import Zuvloop.Loop.TimerLife
import Zuvloop.Reentrant.Runs

/-!
# What the life cycle of a timer guarantees, and what it does not

`timer_life_cycle` reads the invariant of `Zuvloop.Loop.TimerLife` back in terms of the handles, the
heap and the history. The bound on cancelled entries is one on the calls of `cancel()` that take
effect. A repeated `cancel()` is a no-op and compacts nothing, so it can return with any number of
cancelled timers outnumbering the live ones: `repeated_cancel` builds such runs.
-/

namespace Zuvloop.Loop

open Reentrant

variable {T : Type} [LinearOrder T]

/-- The life cycle of a timer, whenever Python code that may call the loop is in control: a timer is
marked as being in the heap exactly if it is there, once; the count is the number of cancelled
entries; each `cancel()` that takes effect on a timer in the heap leaves few cancelled entries, or
at most half of the heap; a timer enters the ready queue only once its deadline has passed, and runs
at most once, and not after its `cancel()` returned. -/
theorem timer_life_cycle [AddZeroClass T] [Inhabited T] (t : T) {s : State T}
    {stack : List (Callback × (Outcome → P T Unit))}
    (h : (system t).Reachable (env True) ⟨s, none, stack⟩)
    (hpython : stack.head?.map Prod.fst ≠ some .finalizer) :
    (∀ k < s.fresh, (s.handles k).kind = .timer →
        ((s.handles k).inHeap = true ↔ k ∈ s.timers.contents.map TimerEntry.handle)) ∧
      (s.timers.contents.map TimerEntry.handle).Nodup ∧
      (∀ e ∈ s.timers.contents, e.handle < s.fresh ∧ (s.handles e.handle).kind = .timer ∧
        (s.handles e.handle).when = e.when) ∧
      s.timers.cancelled =
        (s.timers.contents.filter fun e => (s.handles e.handle).cancelled = true).card ∧
      (∀ k cancelled len, Event.cancelReturned k true true cancelled len ∈ s.history →
        cancelled ≤ 100 ∨ 2 * cancelled ≤ len) ∧
      (∀ k when now, Event.due k when now ∈ s.history →
        (s.handles k).when = when ∧ when ≤ now) ∧
      (∀ k, k ∈ s.ready.toList ∨ k ∈ s.ran → (s.handles k).kind = .timer →
        ∃ when now, Event.due k when now ∈ s.history) ∧
      (∀ k < s.fresh, (s.handles k).kind = .timer → s.ran.count k ≤ 1) ∧
      ∀ before k wasInHeap first cancelled len after,
        s.history = before ++ .cancelReturned k wasInHeap first cancelled len :: after →
        Event.ran k ∉ after := by
  have hloud : ¬ QuietTop (env True) stack := by
    cases stack with
    | nil => exact id
    | cons top rest =>
      refine fun hq => hq [] (State.init t) .callSoon ⟨trivial, fun _ htop => hpython ?_⟩
      exact htop
  have hs : TimerLife s := ((TimerLife.verified t).sound h).1 hloud
  refine ⟨hs.heap.flag, hs.heap.nodup, hs.heap.entries, hs.heap.count, fun k c l he => ?_,
    fun k when now he => (hs.past.ok _ he).2, hs.places.entered, fun k hk hkind => ?_, ?_⟩
  · rw [Nat.mul_comm]
    exact (hs.past.ok _ he).2.2.2 rfl rfl
  · exact le_trans (by omega) (hs.places.once k hk hkind)
  · intro before k wasInHeap first cancelled len after hsplit hmem
    have hsilent := hs.past.silent
    rw [hsplit, List.pairwise_append, List.pairwise_cons] at hsilent
    exact hsilent.2.1.1 _ hmem rfl

/-- A timer that is cancelled in the heap while another one, already due, waits to run. -/
theorem timer_life_cycle_cancelled :
    ∃ s : State ℕ, s.history = [.cancelReturned 0 true true 1 1, .due 1 0 0] ∧
      s.timers.cancelled = 1 ∧ s.ready.toList = [1] ∧ s.ran.count 1 ≤ 1 := by
  let yes : Label (sig ℕ) := .answer ⟨true, 0, 0⟩
  have hplay : ∃ s, (system 0).play (env True) 40
      [.start (.callAt 5), yes, yes, yes, yes, .start (.cancel 0), .resume .returned,
        .resume .returned, .start (.callAt 0), yes, yes, yes] (system 0).initial =
        some ⟨s, none, []⟩ ∧ s.history = [.cancelReturned 0 true true 1 1, .due 1 0 0] ∧
      s.timers.cancelled = 1 ∧ s.ready.toList = [1] ∧ 1 < s.fresh ∧
        (s.handles 1).kind = .timer := ⟨_, rfl, rfl, rfl, rfl, by decide, rfl⟩
  obtain ⟨s, hrun, hhist, hcount, hready, hlt, hkind⟩ := hplay
  obtain ⟨-, -, -, -, -, -, -, honce, -⟩ :=
    timer_life_cycle 0 (System.Reachable.initial.play hrun) nofun
  exact ⟨s, hhist, hcount, hready, honce 1 hlt hkind⟩

/-! ## Runs of the timer functions -/

/-- The same environment, with a clock that never goes back. -/
def steadyEnv (quiet : Prop) : Env (sig T) :=
  { env quiet with
    answers := fun s q a =>
      (q = Request.alloc → a.ok = true) ∧ (q = Request.now → s.clock ≤ a.time) }

/-- A steady clock is one of the clocks the loop can have. -/
theorem reachable_of_steady {M : System (sig T)} {quiet : Prop} {c : Config (sig T)}
    (h : M.Reachable (steadyEnv quiet) c) : M.Reachable (env quiet) c :=
  h.mono (E := steadyEnv quiet) (fun _ _ _ ha => ha.1) (fun _ _ _ hr => hr) fun _ _ _ hop => hop

section Can

variable {M : System (sig T)} {quiet : Prop} {s : State T}

theorem can_alloc {Q : Bool → State T → Prop} (h : Q true s) :
    Can M (steadyEnv quiet) (alloc : P T _) Q s :=
  (Can.request (E := steadyEnv quiet) ⟨true, s.clock, 0⟩ ⟨fun _ => rfl, fun _ => le_rfl⟩ h).map

theorem can_now {t : T} (ht : s.clock ≤ t) {Q : T → State T → Prop} (h : Q t (s.setClock t)) :
    Can M (steadyEnv quiet) (now : P T _) Q s := by
  refine Can.bind (Can.request (S := sig T) ⟨true, t, 0⟩ ⟨fun halloc => ?_, fun _ => ht⟩ ?_)
  · cases halloc
  · exact Can.bind (Can.modify (Can.pure h))

theorem can_release {Q : Unit → State T → Prop} (h : Q () s) :
    Can M (steadyEnv quiet) (release : P T _) Q s :=
  (Can.foreign (S := sig T) (.returned : Outcome) trivial h).map

theorem can_getState {Q : State T → State T → Prop} (h : Q s s) :
    Can M (steadyEnv quiet) (getState : P T _) Q s := Can.read h

theorem can_update {f : State T → State T} {Q : Unit → State T → Prop} (h : Q () (f s)) :
    Can M (steadyEnv quiet) (update f) Q s := Can.modify h

end Can

section Runs

variable [Add T] [Zero T] [Inhabited T] {t₀ : T} {quiet : Prop} {s : State T}

/-- Nothing is dropped from a heap whose first entry is live. -/
theorem can_dropCancelled {e : TimerEntry T ℕ} (he : s.timers.peek = some e)
    (hlive : (s.handles e.handle).cancelled = false) {Q : Unit → State T → Prop} (h : Q () s) :
    Can (system t₀) (steadyEnv quiet) (Prog.invoke (S := sig T) .dropCancelled) Q s := by
  refine Can.invoke (Can.bind (can_getState ?_))
  simp only [he, hlive, Bool.false_eq_true, ↓reduceIte]
  exact Can.pure h

/-- The libuv timer is armed for the first entry, if that is live. -/
theorem can_armTimer {t : T} (ht : s.clock ≤ t) {e : TimerEntry T ℕ} (he : s.timers.peek = some e)
    (hlive : (s.handles e.handle).cancelled = false) {Q : Unit → State T → Prop}
    (h : Q () ((s.setClock t).startTimer e.when)) :
    Can (system t₀) (steadyEnv quiet) (armTimer : P T _) Q s := by
  refine Can.bind (can_dropCancelled he hlive (Can.bind (can_getState ?_)))
  simp only [he]
  exact Can.bind (can_now ht (can_update h))

/-- Starting an open loop without timers. -/
theorem can_runBegin (hopen : s.closed = false) (hidle : s.running = false)
    (hready : s.ready.toList = []) (hempty : s.timers.peek = none)
    (hstopped : s.timerActive = false) {Q : State T → Prop}
    (h : Q (s.setCore fun c => { c with running := true, stopping := false })) :
    Can (system t₀) (steadyEnv quiet) (entry .runBegin) (fun _ s' => Q s') s := by
  have hlen : s.ready.len = 0 := s.ready.len_eq_zero_iff.mpr hready
  refine Can.map (Can.bind (can_getState ?_))
  rw [if_neg (by simp [hopen]), if_neg (by simp [hidle])]
  refine Can.bind (can_update (Can.bind (can_update ?_)))
  have hstart : (s.setCore fun c => { c with running := true, stopping := false }).setCore
      Core.startIdle = s.setCore fun c => { c with running := true, stopping := false } := by
    simp [State.setCore, Core.startIdle, hlen]
  rw [hstart]
  refine Can.bind (Can.bind (Can.invoke (Can.bind (can_getState ?_))))
  simp only [State.setCore, hempty]
  refine Can.pure (Can.bind (can_getState ?_))
  simp only [hempty]
  refine can_update (Can.pure ?_)
  simpa [State.stopTimer, hstopped, State.setCore] using h

/-- A timer that is not due yet goes into the heap, if that holds live timers only. -/
theorem can_callAt {t when : T} (ht : s.clock ≤ t) (hopen : s.closed = false) (hlate : t < when)
    (hlive : ∀ e ∈ s.timers.contents, e.handle < s.fresh ∧
      (s.handles e.handle).cancelled = false) {Q : State T → Prop}
    (h : ∀ timers d, timers.contents = ⟨when, s.timers.seq + 1, s.fresh⟩ ::ₘ s.timers.contents →
      timers.cancelled = s.timers.cancelled →
      Q ((((((s.setClock t).create .timer when).setTimers timers).setClock t).startTimer d))) :
    Can (system t₀) (steadyEnv quiet) (entry (.callAt when)) (fun _ s' => Q s') s := by
  obtain ⟨timers, htimers, hcontents, -, hcount⟩ := s.timers.push_true when s.fresh
  refine Can.map (Can.bind (can_now ht (Can.bind (can_getState ?_))))
  rw [if_neg (by simp [State.setClock, hopen])]
  refine Can.bind (Can.bind (can_alloc ?_))
  refine Can.bind (can_getState (Can.bind (can_update (Can.pure ?_))))
  refine Can.bind (can_getState ?_)
  rw [if_neg (by simp [hlate])]
  refine Can.bind (can_alloc ?_)
  erw [htimers]
  refine Can.bind (can_update (Can.bind ?_))
  have hmem : (⟨when, s.timers.seq + 1, s.fresh⟩ : TimerEntry T ℕ) ∈ timers.contents :=
    hcontents ▸ Multiset.mem_cons_self _ _
  cases he : timers.peek with
  | none =>
    rw [(Timers.peek_eq_none_iff _).mp he] at hmem
    exact absurd hmem (Multiset.notMem_zero _)
  | some e =>
    refine can_armTimer le_rfl he ?_ (Can.pure (h timers e.when hcontents hcount))
    change (((s.setClock t).create .timer when).handles e.handle).cancelled = false
    have hin := Timers.mem_of_peek he
    rw [hcontents, Multiset.mem_cons] at hin
    rcases hin with rfl | hin
    · exact congrArg HandleRec.cancelled ((s.setClock t).handles_create_self .timer when)
    · rw [(s.setClock t).handles_create_of_lt .timer when (hlive e hin).1]
      exact (hlive e hin).2

/-- The first `cancel()` of a timer in the heap, when it does not make compaction worthwhile. -/
theorem can_cancel {k : ℕ} (hkind : (s.handles k).kind = .timer)
    (hlive : (s.handles k).cancelled = false) (hidle : (s.handles k).running = false)
    (hin : (s.handles k).inHeap = true)
    (hfew : s.timers.cancelled * 2 + 2 ≤ s.timers.len) {Q : State T → Prop}
    (h : Q ((s.setHandle k (HandleRec.dropCallback ∘ HandleRec.cancel)).countCancelled.record
      (.cancelReturned k true true (s.timers.cancelled + 1) s.timers.len))) :
    Can (system t₀) (steadyEnv quiet) (entry (.cancel k)) (fun _ s' => Q s') s := by
  refine Can.bind (can_getState ?_)
  simp only [hkind]
  refine Can.bind (can_getState (Can.bind (Can.bind (can_getState ?_))))
  simp only [hlive, hidle, Bool.not_false, ↓reduceIte]
  refine Can.bind (can_update (Can.bind (Can.bind (can_release ?_))))
  refine Can.bind (can_update (can_release (Can.bind (can_getState ?_))))
  rw [State.setHandle_setHandle, State.handles_setHandle_self]
  rw [if_pos (show ((HandleRec.dropCallback ∘ HandleRec.cancel) (s.handles k)).inHeap = true from
    hin)]
  refine Can.bind (can_update (Can.bind (can_getState ?_)))
  rw [if_neg (fun hmany => by
    have : s.timers.len < (s.timers.cancelled + 1) * 2 := hmany.2
    omega)]
  refine Can.pure (can_update ?_)
  rw [hin]
  exact h

/-- Any further `cancel()` of a timer does nothing. -/
theorem can_cancel_again {k : ℕ} (hkind : (s.handles k).kind = .timer)
    (hcancelled : (s.handles k).cancelled = true) {Q : State T → Prop}
    (h : Q (s.record (.cancelReturned k (s.handles k).inHeap false s.timers.cancelled
      s.timers.len))) :
    Can (system t₀) (steadyEnv quiet) (entry (.cancel k)) (fun _ s' => Q s') s := by
  refine Can.bind (can_getState ?_)
  simp only [hkind]
  refine Can.bind (can_getState (Can.bind (Can.bind (can_getState ?_))))
  simp only [hcancelled, Bool.not_true, Bool.false_eq_true, ↓reduceIte]
  exact Can.pure (can_update h)

/-- The timer expires with one entry due, and a live entry after it. -/
theorem can_onTimer {t : T} (ht : s.clock ≤ t) {e e' : TimerEntry T ℕ} (he : s.timers.peek = some e)
    (hlive : (s.handles e.handle).cancelled = false) (hdue : e.when ≤ t)
    (he' : s.timers.pop.2.peek = some e') (hlate : t < e'.when)
    (hlive' : (s.handles e'.handle).cancelled = false) (hne : e'.handle ≠ e.handle)
    {Q : State T → Prop}
    (h : ∀ s', s'.timers = s.timers.pop.2 → s'.fresh = s.fresh →
      s'.handles = (s.setHandle e.handle HandleRec.clearScheduled).handles → Q s') :
    Can (system t₀) (steadyEnv quiet) (entry .onTimer) (fun _ s' => Q s') s := by
  refine Can.bind (can_update (Can.bind (Can.bind (can_now (s := s.expireTimer) ht ?_))))
  refine Can.invoke ?_
  -- the first round of the loop takes the due entry, the second one stops
  refine Can.bind (can_getState ?_)
  simp only [State.setClock, State.expireTimer, he]
  rw [if_neg (not_lt.mpr hdue)]
  refine Can.bind (can_update ?_)
  simp only [hlive, Bool.false_eq_true, ↓reduceIte]
  refine Can.bind (can_getState (Can.bind (can_alloc ?_)))
  obtain ⟨q, hq, -⟩ := State.pushReady_true (((s.expireTimer.setClock t).popTimer).setHandle
    e.handle HandleRec.clearScheduled) e.handle
  erw [hq]
  refine Can.bind (can_update (Can.invoke (Can.bind (can_getState ?_))))
  erw [he']
  dsimp only
  rw [if_pos hlate]
  refine can_update (can_armTimer le_rfl he' ?_ (h _ rfl rfl rfl))
  change ((s.setHandle e.handle HandleRec.clearScheduled).handles e'.handle).cancelled = false
  rw [s.handles_setHandle_of_ne _ hne]
  exact hlive'

end Runs

/-! ## A repeated cancellation -/

/-- The deadlines of the timers in the runs below: one is due first, the live ones follow, and the
cancelled ones, from `live` on, come last. -/
def stockDeadline (live k : ℕ) : ℕ := if k = 0 then 1 else if k < live then 2 else 3

/-- A loop with `n` timers, all of them in the heap, of which the first `c` from `live` on are
cancelled. -/
structure Stock (live n c : ℕ) (s : State ℕ) : Prop where
  /-- The loop can get there. -/
  reach : (system 0).Reachable (steadyEnv True) ⟨s, none, []⟩
  /-- It is open. -/
  isOpen : s.closed = false
  /-- It is running. -/
  running : s.running = true
  /-- The libuv timer is armed for some entry. -/
  armed : n ≠ 0 → s.uvTimer.isSome
  /-- No time has passed. -/
  clock : s.clock = 0
  /-- There are `n` handles. -/
  fresh : s.fresh = n
  /-- There are `n` entries. -/
  len : s.timers.len = n
  /-- And `c` of them are cancelled. -/
  count : s.timers.cancelled = c
  /-- Every entry has its handle's deadline. -/
  entries : ∀ e ∈ s.timers.contents, e.handle < n ∧ e.when = stockDeadline live e.handle
  /-- Every handle has an entry. -/
  complete : ∀ k < n, ∃ e ∈ s.timers.contents, e.handle = k
  /-- Every handle is a timer that waits in the heap. -/
  waiting : ∀ k < n, (s.handles k).kind = .timer ∧ (s.handles k).inHeap = true ∧
    (s.handles k).running = false
  /-- Which handles are cancelled. -/
  cancelled : ∀ k < n, ((s.handles k).cancelled = true ↔ live ≤ k ∧ k < live + c)

theorem Stock.exists_empty (live : ℕ) : ∃ s, Stock live 0 0 s := by
  obtain ⟨s, hreach, hs⟩ := Can.reachable (E := steadyEnv True) .runBegin (Q := fun s' => s' = _)
    (System.Reachable.initial (M := system 0)) ⟨trivial, nofun⟩
    (can_runBegin (s := State.init 0) rfl rfl rfl rfl rfl rfl)
  have hempty : (State.init 0 : State ℕ).timers.contents = 0 := TimerHeap.contents_empty
  refine ⟨s, hreach, by rw [hs]; rfl, by rw [hs]; rfl, fun h => absurd rfl h, by rw [hs]; rfl,
    by rw [hs]; rfl, by rw [hs]; rfl, by rw [hs]; rfl, fun e he => ?_, nofun, nofun, nofun⟩
  rw [hs] at he
  exact absurd (hempty ▸ he) (Multiset.notMem_zero e)

/-- One more `call_at`. -/
theorem Stock.add {live n : ℕ} {s : State ℕ} (h : Stock live n 0 s) :
    ∃ s', Stock live (n + 1) 0 s' := by
  have hpos : 0 < stockDeadline live n := by
    unfold stockDeadline
    split
    · exact Nat.one_pos
    · split <;> omega
  have hlive : ∀ e ∈ s.timers.contents, e.handle < s.fresh ∧
      (s.handles e.handle).cancelled = false := by
    intro e he
    have hlt := (h.entries e he).1
    refine ⟨h.fresh ▸ hlt, Bool.eq_false_iff.mpr fun hc => ?_⟩
    have := (h.cancelled _ hlt).mp hc
    omega
  obtain ⟨s', hreach, timers, d, hs', hcontents, hcount⟩ :=
    Can.reachable (S := sig ℕ) (.callAt (stockDeadline live n))
      (Q := fun s' => ∃ timers d, s' = ((((s.setClock 0).create .timer
        (stockDeadline live n)).setTimers timers).setClock 0).startTimer d ∧ timers.contents =
          ⟨stockDeadline live n, s.timers.seq + 1, s.fresh⟩ ::ₘ s.timers.contents ∧
          timers.cancelled = s.timers.cancelled) h.reach ⟨trivial, nofun⟩
      (can_callAt h.clock.le h.isOpen hpos hlive fun timers d hcontents hcount =>
        ⟨timers, d, rfl, hcontents, hcount⟩)
  have hold : ∀ k < n, s'.handles k = s.handles k := fun k hk => by
    rw [hs']
    exact (s.setClock 0).handles_create_of_lt .timer _ (h.fresh.symm ▸ hk)
  have hnew : s'.handles n = .create .timer (stockDeadline live n) := by
    rw [hs', ← h.fresh]
    exact (s.setClock 0).handles_create_self .timer _
  have hcontents' : s'.timers.contents =
      ⟨stockDeadline live n, s.timers.seq + 1, n⟩ ::ₘ s.timers.contents := by
    rw [hs', ← h.fresh]
    exact h.fresh ▸ hcontents
  refine ⟨s', hreach, by rw [hs']; exact h.isOpen, by rw [hs']; exact h.running,
    fun _ => by rw [hs']; rfl, by rw [hs']; rfl, ?_, ?_, ?_, fun e he => ?_, fun k hk => ?_,
    fun k hk => ?_, fun k hk => ?_⟩
  · rw [hs']
    exact congrArg (· + 1) h.fresh
  · rw [← Timers.card_contents, hcontents', Multiset.card_cons, Timers.card_contents, h.len]
  · rw [hs']
    exact hcount.trans h.count
  · rw [hcontents', Multiset.mem_cons] at he
    rcases he with rfl | he
    · exact ⟨Nat.lt_succ_self n, rfl⟩
    · exact ⟨(h.entries e he).1.trans (Nat.lt_succ_self n), (h.entries e he).2⟩
  · rw [hcontents']
    rcases Nat.lt_succ_iff_lt_or_eq.mp hk with hlt | rfl
    · obtain ⟨e, he, heq⟩ := h.complete k hlt
      exact ⟨e, Multiset.mem_cons_of_mem he, heq⟩
    · exact ⟨_, Multiset.mem_cons_self _ _, rfl⟩
  · rcases Nat.lt_succ_iff_lt_or_eq.mp hk with hlt | rfl
    · rw [hold k hlt]
      exact h.waiting k hlt
    · rw [hnew]
      exact ⟨rfl, rfl, rfl⟩
  · rcases Nat.lt_succ_iff_lt_or_eq.mp hk with hlt | rfl
    · rw [hold k hlt]
      exact h.cancelled k hlt
    · rw [hnew]
      exact ⟨nofun, fun hrange => by omega⟩

/-- One more `cancel()`, as long as at most half of the timers are cancelled. -/
theorem Stock.cancel {live n c : ℕ} {s : State ℕ} (h : Stock live n c s) (hn : live + c < n)
    (hhalf : 2 * c + 2 ≤ n) : ∃ s', Stock live n (c + 1) s' := by
  obtain ⟨hkind, hin, hidle⟩ := h.waiting _ hn
  have hlive : (s.handles (live + c)).cancelled = false :=
    Bool.eq_false_iff.mpr fun hc => by
      have := (h.cancelled _ hn).mp hc
      omega
  have hfew : s.timers.cancelled * 2 + 2 ≤ s.timers.len := by
    rw [h.count, h.len]
    omega
  obtain ⟨s', hreach, hs'⟩ := Can.reachable (S := sig ℕ) (.cancel (live + c))
    (Q := fun s' => s' = _) h.reach ⟨hn.trans_eq h.fresh.symm, nofun⟩
    (can_cancel hkind hlive hidle hin hfew rfl)
  have hother : ∀ k ≠ live + c, s'.handles k = s.handles k := fun k hk => by
    rw [hs']
    exact s.handles_setHandle_of_ne _ hk
  have hself : s'.handles (live + c) = (s.handles (live + c)).cancel.dropCallback := by
    rw [hs']
    exact s.handles_setHandle_self _ _
  refine ⟨s', hreach, by rw [hs']; exact h.isOpen, by rw [hs']; exact h.running,
    by rw [hs']; exact h.armed, by rw [hs']; exact h.clock, by rw [hs']; exact h.fresh,
    by rw [hs']; exact h.len, by rw [hs']; exact congrArg (· + 1) h.count,
    by rw [hs']; exact h.entries, by rw [hs']; exact h.complete, fun k hk => ?_, fun k hk => ?_⟩
  · rcases eq_or_ne k (live + c) with rfl | hne
    · rw [hself]
      exact ⟨hkind, hin, hidle⟩
    · rw [hother k hne]
      exact h.waiting k hk
  · rcases eq_or_ne k (live + c) with rfl | hne
    · rw [hself]
      exact ⟨fun _ => ⟨Nat.le_add_right _ _, by omega⟩, fun _ => rfl⟩
    · rw [hother k hne, h.cancelled k hk]
      omega

/-- A loop with twice as many timers as are live, and all the others cancelled. -/
theorem Stock.exists_half (live : ℕ) : ∃ s, Stock live (2 * live) live s := by
  have hadd : ∀ n, ∃ s, Stock live n 0 s := by
    intro n
    induction n with
    | zero => exact exists_empty live
    | succ n ih =>
      obtain ⟨s, hs⟩ := ih
      exact hs.add
  have hcancel : ∀ c ≤ live, ∃ s, Stock live (2 * live) c s := by
    intro c hc
    induction c with
    | zero => exact hadd _
    | succ c ih =>
      obtain ⟨s, hs⟩ := ih (by omega)
      exact hs.cancel (by omega) (by omega)
  exact hcancel live le_rfl

/-- The first entry is the one that is due first. -/
theorem Stock.peek {live n c : ℕ} {s : State ℕ} (h : Stock live n c s) (hn : 0 < n) :
    ∃ e, s.timers.peek = some e ∧ e.handle = 0 ∧ e.when = 1 := by
  obtain ⟨x, hx, hx0⟩ := h.complete 0 hn
  cases he : s.timers.peek with
  | none =>
    rw [(Timers.peek_eq_none_iff _).mp he] at hx
    exact absurd hx (Multiset.notMem_zero _)
  | some e =>
    have hle := TimerEntry.when_le_of_key_le (TimerHeap.peek_le he hx)
    have hwhen := (h.entries e (Timers.mem_of_peek he)).2
    rw [(h.entries x hx).2, hx0, hwhen] at hle
    refine ⟨e, rfl, ?_⟩
    rw [hwhen]
    unfold stockDeadline at hle ⊢
    split_ifs at hle ⊢ <;> omega

/-- Once the first entry is taken, a live one is next. -/
theorem Stock.peek_pop {live n c : ℕ} {s : State ℕ} (h : Stock live n c s) (hlive : 2 ≤ live)
    (hn : live ≤ n) {e : TimerEntry ℕ ℕ} (he : s.timers.peek = some e) (h0 : e.handle = 0)
    (hnodup : (s.timers.contents.map TimerEntry.handle).Nodup) :
    ∃ e', s.timers.pop.2.peek = some e' ∧ e'.handle ≠ 0 ∧ e'.handle < live ∧ e'.when = 2 := by
  obtain ⟨x, hx, hx1⟩ := h.complete 1 (by omega)
  have hcontents := TimerHeap.contents_pop he
  rw [hcontents, Multiset.mem_cons] at hx
  have hx' : x ∈ s.timers.pop.2.contents := hx.resolve_left fun heq => by
    rw [heq, h0] at hx1
    cases hx1
  cases he' : s.timers.pop.2.peek with
  | none =>
    rw [(Timers.peek_eq_none_iff _).mp he'] at hx'
    exact absurd hx' (Multiset.notMem_zero _)
  | some e' =>
    have hle := TimerEntry.when_le_of_key_le (TimerHeap.peek_le he' hx')
    have hin : e' ∈ s.timers.pop.2.contents := Timers.mem_of_peek he'
    have hwhen := (h.entries e' (hcontents ▸ Multiset.mem_cons_of_mem hin)).2
    rw [(h.entries x (hcontents ▸ Multiset.mem_cons_of_mem hx')).2, hx1, hwhen] at hle
    have hne : e'.handle ≠ 0 := fun heq => by
      rw [hcontents, Multiset.map_cons, Multiset.nodup_cons] at hnodup
      exact hnodup.1 (Multiset.mem_map.mpr ⟨e', hin, heq.trans h0.symm⟩)
    refine ⟨e', rfl, hne, ?_⟩
    rw [hwhen]
    unfold stockDeadline at hle ⊢
    split_ifs at hle ⊢ <;> omega

/-- For every number of at least two cancelled timers there is a run in which a `cancel()` of a
timer in the heap returns with that many cancelled entries and fewer live ones: the timer was
cancelled before, and since then a live timer expired. -/
theorem repeated_cancel (c : ℕ) (hc : 2 ≤ c) :
    ∃ s : State ℕ, (system 0).Reachable (steadyEnv True) ⟨s, none, []⟩ ∧
      Event.cancelReturned c true false c (2 * c - 1) ∈ s.history := by
  obtain ⟨s, hs⟩ := Stock.exists_half c
  obtain ⟨e, he, h0, hwhen⟩ := hs.peek (by omega)
  have hlife : TimerLife s := ((TimerLife.verified 0).top_level (reachable_of_steady hs.reach)).1
  have hnodup := hlife.heap.nodup
  obtain ⟨e', he', hne, hlt, hwhen'⟩ := hs.peek_pop hc (by omega) he h0 hnodup
  have hlive : ∀ k < c, (s.handles k).cancelled = false := fun k hk =>
    Bool.eq_false_iff.mpr fun hcan => by
      have := (hs.cancelled k (by omega)).mp hcan
      omega
  obtain ⟨s₁, hreach₁, htimers, hfresh, hhandles⟩ := Can.reachable (S := sig ℕ) .onTimer
    (Q := fun s' => s'.timers = s.timers.pop.2 ∧ s'.fresh = s.fresh ∧
      s'.handles = (s.setHandle e.handle HandleRec.clearScheduled).handles) hs.reach
    ⟨⟨rfl, hs.running, hs.armed (by omega)⟩, nofun⟩
    (can_onTimer (hs.clock.le.trans zero_le_one) he (hlive _ (by omega)) hwhen.le he' (by omega)
      (hlive _ hlt) (by omega) fun s' ht hf hh => ⟨ht, hf, hh⟩)
  -- the timer that is cancelled again is still in the heap
  have hself : s₁.handles c = s.handles c := by
    rw [hhandles]
    exact s.handles_setHandle_of_ne _ (by omega)
  obtain ⟨hkind, hin, -⟩ := hs.waiting c (by omega)
  have hcancelled : (s.handles c).cancelled = true := (hs.cancelled c (by omega)).mpr (by omega)
  have hlen : s₁.timers.len = 2 * c - 1 := by
    have hcard := congrArg Multiset.card (TimerHeap.contents_pop he)
    rw [Multiset.card_cons, Timers.card_contents, hs.len] at hcard
    rw [htimers, ← Timers.card_contents]
    omega
  have hcount : s₁.timers.cancelled = c := by
    rw [htimers, TimerHeap.pop_cancelled, hs.count]
  obtain ⟨s₂, hreach₂, hs₂⟩ := Can.reachable (S := sig ℕ) (.cancel c)
    (Q := fun s' => s' = s₁.record (.cancelReturned c (s₁.handles c).inHeap false
      s₁.timers.cancelled s₁.timers.len)) hreach₁
    ⟨show c < s₁.fresh by rw [hfresh, hs.fresh]; omega, nofun⟩
    (can_cancel_again (hself ▸ hkind) (hself ▸ hcancelled) rfl)
  refine ⟨s₂, hreach₂, ?_⟩
  rw [hself, hin, hcount, hlen] at hs₂
  rw [hs₂]
  exact List.mem_append_right _ (List.mem_singleton_self _)

/-- A `cancel()` of a timer in the heap that returns with 101 of 201 entries cancelled. -/
theorem repeated_cancel_dominates :
    ¬ ∀ (s : State ℕ) (stack : List (Callback × (Outcome → P ℕ Unit))),
      (system 0).Reachable (steadyEnv True) ⟨s, none, stack⟩ →
      stack.head?.map Prod.fst ≠ some .finalizer →
      ∀ k first cancelled len, Event.cancelReturned k true first cancelled len ∈ s.history →
        cancelled ≤ 100 ∨ 2 * cancelled ≤ len := by
  intro hall
  obtain ⟨s, hreach, hmem⟩ := repeated_cancel 101 (by decide)
  exact absurd (hall s [] hreach nofun _ _ _ _ hmem) (by decide)

end Zuvloop.Loop
