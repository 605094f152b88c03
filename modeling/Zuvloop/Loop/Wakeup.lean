import Zuvloop.Loop.Scheduling

/-!
# No lost wake-up

Three mechanisms wake the loop: the idle handle while there is something to run, the async handle
while there is something in the inbox, and the libuv timer while a timer is waiting. Each has a
cached flag of its own, and each is brought up to date by every function that could make it
necessary.

Some functions run Python code while a mechanism is not yet up to date: `collectDueTimers` releases
cancelled timers between two pushes and starts the idle handle at the end, `armTimer` releases
cancelled timers before it arms. So `IdleOk` and `TimerOk` are no invariants of the moments when
Python code runs. What holds there is `Synced`, and every entry point that finds `IdleOk` or
`TimerOk` true leaves it true; that is `WakeRely`. Between two native callbacks both hold.
-/

namespace Zuvloop.Loop

open Reentrant

variable {T : Type} [LinearOrder T]

/-! ## The three mechanisms -/

/-- Something to run keeps the idle handle active. -/
def IdleOk (s : State T) : Prop := s.ready.toList ≠ [] → s.uvIdle = true

/-- Something in the inbox comes with a wake-up that is still to be handled. -/
def WakeOk (s : State T) : Prop :=
  s.threadsafeReady.toList ≠ [] →
    s.wakerPending = true ∧ (s.asyncSent = true ∨ s.wakeDispatched = true)

/-- A timer that waits keeps the libuv timer armed, for a deadline no later than any that waits. -/
def TimerOk (s : State T) : Prop :=
  ∀ e ∈ s.timers.contents, (s.handles e.handle).cancelled = false →
    ∃ d, s.uvTimer = some d ∧
      ∀ e' ∈ s.timers.contents, (s.handles e'.handle).cancelled = false → d ≤ e'.when

/-- What holds whenever Python code runs: the cached flags are right, a pending wake-up is on its
way, and the inbox is announced. -/
structure Synced (s : State T) : Prop where
  /-- The idle flag is right. -/
  idle : s.idleActive = s.uvIdle
  /-- The timer flag is right. -/
  timer : s.timerActive = s.uvTimer.isSome
  /-- A pending wake-up is on its way. -/
  wake : s.wakerPending = true → s.asyncSent = true ∨ s.wakeDispatched = true
  /-- The inbox is announced. -/
  inbox : s.threadsafeReady.toList ≠ [] → s.wakerPending = true
  /-- The timers of the heap exist. -/
  heap : ∀ e ∈ s.timers.contents, e.handle < s.fresh

/-- What Python code leaves in place. -/
structure WakeRely (s s' : State T) : Prop where
  /-- The idle handle stays active if it has to be. -/
  idle : IdleOk s → IdleOk s'
  /-- The libuv timer stays armed if it has to be. -/
  timer : TimerOk s → TimerOk s'

namespace WakeRely

theorem refl (s : State T) : WakeRely s s := ⟨id, id⟩

theorem trans {s₁ s₂ s₃ : State T} (h₁ : WakeRely s₁ s₂) (h₂ : WakeRely s₂ s₃) :
    WakeRely s₁ s₃ := ⟨h₂.idle ∘ h₁.idle, h₂.timer ∘ h₁.timer⟩

end WakeRely

/-- The specification. Collecting the timers that are due ends with the idle handle up to date,
whatever it was before. -/
def wakeSpec : Spec (sig T) where
  inv := Synced
  rely := WakeRely
  pre := fun _ => Synced
  post := fun f s s' => Synced s' ∧ match f with
    | Proc.collectDue _ => IdleOk s' ∧ (TimerOk s → TimerOk s')
    | _ => WakeRely s s'

/-! ## What each update does -/

section Updates

variable {s s' : State T}

/-- Fewer timers wait, and the libuv timer is as it was. -/
theorem TimerOk.mono (h : TimerOk s) (huv : s'.uvTimer = s.uvTimer)
    (hheap : ∀ e ∈ s'.timers.contents, (s'.handles e.handle).cancelled = false →
      e ∈ s.timers.contents ∧ (s.handles e.handle).cancelled = false) : TimerOk s' := by
  intro e he hc
  obtain ⟨d, hd, hle⟩ := h e (hheap e he hc).1 (hheap e he hc).2
  refine ⟨d, huv.trans hd, fun e' he' hc' => ?_⟩
  exact hle e' (hheap e' he' hc').1 (hheap e' he' hc').2

/-- An update that leaves the three mechanisms alone, and gives them no more to do. -/
theorem Synced.step (hs : Synced s) (hidle : s'.idleActive = s.idleActive)
    (huvIdle : s'.uvIdle = s.uvIdle) (hready : s'.ready.toList ≠ [] → s.ready.toList ≠ [])
    (htimer : s'.timerActive = s.timerActive) (huvTimer : s'.uvTimer = s.uvTimer)
    (hpending : s'.wakerPending = s.wakerPending) (hsent : s'.asyncSent = s.asyncSent)
    (hdispatched : s'.wakeDispatched = s.wakeDispatched)
    (hinbox : s'.threadsafeReady.toList = s.threadsafeReady.toList)
    (hheap : ∀ e ∈ s'.timers.contents, e ∈ s.timers.contents)
    (hcancelled : ∀ h < s.fresh, (s.handles h).cancelled = true → (s'.handles h).cancelled = true)
    (hfresh : s.fresh ≤ s'.fresh) : Synced s' ∧ WakeRely s s' := by
  refine ⟨⟨?_, ?_, ?_, ?_, fun e he => ?_⟩, fun h hne => ?_, fun h => h.mono huvTimer ?_⟩
  · rw [hidle, huvIdle]
    exact hs.idle
  · rw [htimer, huvTimer]
    exact hs.timer
  · rw [hpending, hsent, hdispatched]
    exact hs.wake
  · rw [hpending, hinbox]
    exact hs.inbox
  · exact (hs.heap e (hheap e he)).trans_le hfresh
  · rw [huvIdle]
    exact h (hready hne)
  · intro e he hc
    refine ⟨hheap e he, ?_⟩
    cases hc' : (s.handles e.handle).cancelled with
    | false => rfl
    | true =>
      rw [hcancelled _ (hs.heap e (hheap e he)) hc'] at hc
      cases hc

/-- A change to one handle that does not bring it back from cancellation. -/
theorem Synced.setHandle (hs : Synced s) (h : ℕ) (f : HandleRec T → HandleRec T)
    (hf : ∀ r, r.cancelled = true → (f r).cancelled = true) :
    Synced (s.setHandle h f) ∧ WakeRely s (s.setHandle h f) := by
  refine hs.step rfl rfl id rfl rfl rfl rfl rfl rfl (fun _ he => he) (fun k _ hc => ?_) le_rfl
  rw [s.handles_setHandle]
  split
  · rename_i hk
    exact hf _ (hk ▸ hc)
  · exact hc

theorem Synced.create (hs : Synced s) (kind : HandleKind) (when : T) :
    Synced (s.create kind when) ∧ WakeRely s (s.create kind when) := by
  refine hs.step rfl rfl id rfl rfl rfl rfl rfl rfl (fun _ he => he) (fun k hk hc => ?_)
    (Nat.le_succ _)
  rwa [s.handles_create_of_lt kind when hk]

/-- A change to the core that touches neither the ready queue nor the idle handle. -/
theorem Synced.setCore (hs : Synced s) (f : Core ℕ → Core ℕ)
    (hready : (f s.toCore).ready = s.ready) (hidle : (f s.toCore).idleActive = s.idleActive)
    (huvIdle : (f s.toCore).uvIdle = s.uvIdle) :
    Synced (s.setCore f) ∧ WakeRely s (s.setCore f) :=
  hs.step hidle huvIdle (fun hne => by rwa [← hready]) rfl rfl rfl rfl rfl rfl (fun _ he => he)
    (fun _ _ hc => hc) le_rfl

/-- Starting the idle handle brings it up to date, whatever happened before. -/
theorem Synced.startIdle (hs : Synced s) :
    Synced (s.setCore Core.startIdle) ∧ IdleOk (s.setCore Core.startIdle) ∧
      (TimerOk s → TimerOk (s.setCore Core.startIdle)) := by
  unfold State.setCore Core.startIdle
  split
  · refine ⟨⟨rfl, hs.timer, hs.wake, hs.inbox, hs.heap⟩, fun _ => rfl, id⟩
  · rename_i hskip
    refine ⟨hs, fun hne => ?_, id⟩
    have hlen : s.ready.len ≠ 0 := fun h => hne (s.ready.len_eq_zero_iff.mp h)
    have hactive : s.idleActive = true := by
      simpa [hlen] using hskip
    exact hs.idle ▸ hactive

/-- Stopping the idle handle is right when nothing is left to run. -/
theorem Synced.stopIdle (hs : Synced s) :
    Synced (s.setCore Core.stopIdle) ∧ WakeRely s (s.setCore Core.stopIdle) := by
  unfold State.setCore Core.stopIdle
  split
  · rename_i hstop
    refine ⟨⟨rfl, hs.timer, hs.wake, hs.inbox, hs.heap⟩, fun _ hne => ?_, id⟩
    have hlen : s.ready.len = 0 := by
      simp only [Bool.and_eq_true, beq_iff_eq] at hstop
      exact hstop.1
    exact absurd (s.ready.len_eq_zero_iff.mp hlen) hne
  · exact ⟨hs, .refl s⟩

/-- Arming the libuv timer for the first deadline brings it up to date. -/
theorem Synced.startTimer (hs : Synced s) {e : TimerEntry T ℕ} (he : s.timers.peek = some e)
    (t : T) : Synced ((s.setClock t).startTimer e.when) ∧
      (IdleOk s → IdleOk ((s.setClock t).startTimer e.when)) ∧
      TimerOk ((s.setClock t).startTimer e.when) := by
  refine ⟨⟨hs.idle, rfl, hs.wake, hs.inbox, hs.heap⟩, id, fun _ _ _ => ⟨e.when, rfl, ?_⟩⟩
  exact fun e' he' _ => TimerEntry.when_le_of_key_le (s.timers.peek_le he he')

/-- Stopping the libuv timer is right when no timer is left. -/
theorem Synced.stopTimer (hs : Synced s) (he : s.timers.peek = none) :
    Synced s.stopTimer ∧ (IdleOk s → IdleOk s.stopTimer) ∧ TimerOk s.stopTimer := by
  have hempty : s.timers.contents = 0 := (Timers.peek_eq_none_iff _).mp he
  have hnone : ∀ s' : State T, s'.timers = s.timers → TimerOk s' := fun s' hs' e hmem => by
    rw [hs', hempty] at hmem
    exact absurd hmem (Multiset.notMem_zero e)
  unfold State.stopTimer
  split
  · exact ⟨⟨hs.idle, rfl, hs.wake, hs.inbox, hs.heap⟩, id, hnone _ rfl⟩
  · exact ⟨hs, id, hnone _ rfl⟩

/-- An update that no mechanism depends on. -/
theorem Synced.record (hs : Synced s) (e : Event T) :
    Synced (s.record e) ∧ WakeRely s (s.record e) :=
  hs.step rfl rfl id rfl rfl rfl rfl rfl rfl (fun _ he => he) (fun _ _ hc => hc) le_rfl

/-- Taking a handle off the ready queue. -/
theorem Synced.pop (hs : Synced s) {q : Queue ℕ} {h : ℕ} (hq : s.ready.pop = (some h, q)) :
    Synced (s.setReady q) ∧ WakeRely s (s.setReady q) := by
  refine hs.step rfl rfl (fun _ hnil => ?_) rfl rfl rfl rfl rfl rfl (fun _ he => he)
    (fun _ _ hc => hc) le_rfl
  have hfst := s.ready.pop_fst
  rw [hq, hnil] at hfst
  cases hfst

/-- Queueing leaves the idle handle to be started. -/
theorem Synced.setReady (hs : Synced s) (q : Queue ℕ) :
    Synced (s.setReady q) ∧ (TimerOk s → TimerOk (s.setReady q)) :=
  ⟨⟨hs.idle, hs.timer, hs.wake, hs.inbox, hs.heap⟩, id⟩

/-- Taking an entry out of the heap, and ending its scheduled state. -/
theorem Synced.popTimer (hs : Synced s) {e : TimerEntry T ℕ} (he : s.timers.peek = some e) :
    Synced (s.popTimer.setHandle e.handle HandleRec.clearScheduled) ∧
      WakeRely s (s.popTimer.setHandle e.handle HandleRec.clearScheduled) := by
  refine hs.step rfl rfl id rfl rfl rfl rfl rfl rfl (fun x hx => ?_) (fun k _ hc => ?_) le_rfl
  · rw [TimerHeap.contents_pop he]
    exact Multiset.mem_cons_of_mem hx
  · rw [State.handles_setHandle]
    split
    · rename_i hk
      exact hk ▸ hc
    · exact hc

theorem Synced.setTimers (hs : Synced s) {timers : TimerHeap T ℕ}
    (hheap : ∀ e ∈ timers.contents, e ∈ s.timers.contents) :
    Synced (s.setTimers timers) ∧ WakeRely s (s.setTimers timers) :=
  hs.step rfl rfl id rfl rfl rfl rfl rfl rfl hheap (fun _ _ hc => hc) le_rfl

theorem Synced.uncountCancelled (hs : Synced s) :
    Synced s.uncountCancelled ∧ WakeRely s s.uncountCancelled := by
  unfold State.uncountCancelled
  split
  · exact hs.setTimers fun _ he => he
  · exact ⟨hs, .refl s⟩

theorem Synced.compactTimers (hs : Synced s) :
    Synced (s.compactTimers true).1 ∧ WakeRely s (s.compactTimers true).1 := by
  refine hs.step rfl rfl id rfl rfl rfl rfl rfl rfl (fun e he => ?_) (fun k _ hc => ?_) le_rfl
  · have hc := (s.timers.contents_compact fun h => (s.handles h).cancelled).1
    exact Multiset.mem_of_le (hc.trans_le (Multiset.filter_le _ _)) he
  · unfold State.compactTimers
    dsimp only
    split
    · exact hc
    · exact hc

/-- Announcing the inbox. -/
theorem Synced.sendWake (hs : Synced s) {q : Queue ℕ} {e : Event T} :
    Synced ((s.setInbox q).record e).sendWake ∧
      WakeRely s ((s.setInbox q).record e).sendWake := by
  unfold State.sendWake
  split
  · exact ⟨⟨hs.idle, hs.timer, fun _ => Or.inl rfl, fun _ => rfl, hs.heap⟩, id, id⟩
  · rename_i hpending
    have hpend : ((s.setInbox q).record e).wakerPending = true := by
      simpa using hpending
    exact ⟨⟨hs.idle, hs.timer, hs.wake, fun _ => hpend, hs.heap⟩, id, id⟩

end Updates

/-! ## Programs that keep the mechanisms up to date -/

section Programs

variable {quiet : Prop}

theorem Wakeup.keeps_python (c : Callback) : (python c : P T _).Keeps (env quiet) wakeSpec :=
  fun _ hs => wp_python_of_inv WakeRely.refl hs fun _ hrely hinv => ⟨hinv, hrely⟩

theorem Wakeup.keeps_bind {α β : Type} {p : P T α} {f : α → P T β}
    (hp : p.Keeps (env quiet) wakeSpec) (hf : ∀ a, (f a).Keeps (env quiet) wakeSpec) :
    (p >>= f).Keeps (env quiet) wakeSpec :=
  hp.bind (fun _ _ _ => WakeRely.trans) hf

theorem Wakeup.keeps_return {α : Type} (a : α) :
    (pure a : P T α).Keeps (env quiet) wakeSpec := keeps_pure WakeRely.refl a

theorem Wakeup.keeps_setHandle (h : ℕ) {f : HandleRec T → HandleRec T}
    (hf : ∀ r, r.cancelled = true → (f r).cancelled = true) :
    (update fun s => s.setHandle h f).Keeps (env quiet) wakeSpec :=
  fun _ hs => hs.setHandle h f hf

theorem Wakeup.keeps_setCore (f : Core ℕ → Core ℕ) (hready : ∀ c, (f c).ready = c.ready)
    (hidle : ∀ c, (f c).idleActive = c.idleActive) (huvIdle : ∀ c, (f c).uvIdle = c.uvIdle) :
    (update fun s : State T => s.setCore f).Keeps (env quiet) wakeSpec :=
  fun s hs => hs.setCore f (hready s.toCore) (hidle s.toCore) (huvIdle s.toCore)

theorem Wakeup.keeps_startIdle :
    (update fun s : State T => s.setCore Core.startIdle).Keeps (env quiet) wakeSpec :=
  fun _ hs => ⟨hs.startIdle.1, fun _ => hs.startIdle.2.1, hs.startIdle.2.2⟩

theorem Wakeup.keeps_alloc : (alloc : P T _).Keeps (env quiet) wakeSpec :=
  fun s hs => (wp_alloc _).mpr ⟨hs, .refl s⟩

theorem Wakeup.keeps_clearCallback (h : ℕ) :
    (clearCallback h : P T _).Keeps (env quiet) wakeSpec :=
  keeps_bind (keeps_python _) fun _ =>
    keeps_bind (keeps_setHandle h fun _ hc => hc) fun _ => keeps_python _

theorem Wakeup.keeps_callbackFailed (o : Outcome) :
    (callbackFailed o : P T _).Keeps (env quiet) wakeSpec := by
  cases o with
  | returned => exact keeps_python _
  | raised => exact keeps_python _
  | exit => exact keeps_setCore _ (fun _ => rfl) (fun _ => rfl) fun _ => rfl

/-! ### Running -/

theorem Wakeup.keeps_invoke (h : ℕ) : (invoke h : P T _).Keeps (env quiet) wakeSpec := by
  refine keeps_bind (fun s hs => hs.record _) fun _ => ?_
  refine keeps_bind (fun s hs => (wp_enterContext _).mpr fun _ => ⟨hs, .refl s⟩) fun entered => ?_
  refine keeps_ite _ (keeps_bind ?_ fun r => ?_) (keeps_callbackFailed _)
  · exact fun s hs => Prog.wp_foreign (WakeRely.refl s) hs fun _ _ hrely hinv => ⟨hinv, hrely⟩
  · cases r with
    | returned => exact keeps_return _
    | raised => exact keeps_callbackFailed _
    | exit => exact keeps_callbackFailed _

theorem Wakeup.keeps_finishRun (h : ℕ) : (finishRun h : P T _).Keeps (env quiet) wakeSpec :=
  keeps_bind (keeps_setHandle h fun _ hc => hc) fun _ => keeps_getState fun _ =>
    keeps_ite _ (keeps_clearCallback h) (keeps_return _)

theorem Wakeup.keeps_runHandle (h : ℕ) : (runHandle h : P T _).Keeps (env quiet) wakeSpec := by
  refine keeps_getState fun s => keeps_ite _ (keeps_return _) ?_
  refine keeps_bind (keeps_setHandle h fun _ hc => hc) fun _ => ?_
  refine keeps_bind keeps_alloc fun ok => ?_
  exact keeps_ite _ (keeps_bind (keeps_invoke h) fun _ => keeps_finishRun h)
    (keeps_bind (keeps_callbackFailed _) fun _ => keeps_finishRun h)

theorem Wakeup.keeps_runTimer (h : ℕ) : (runTimer h : P T _).Keeps (env quiet) wakeSpec := by
  refine keeps_getState fun s => keeps_ite _ (keeps_return _) ?_
  refine keeps_bind (keeps_setHandle h fun _ hc => hc) fun _ => ?_
  exact keeps_bind (keeps_invoke h) fun _ => keeps_finishRun h

theorem Wakeup.keeps_runThreadsafe (h : ℕ) :
    (runThreadsafe h : P T _).Keeps (env quiet) wakeSpec := by
  have hdone : (do
      update fun s => s.setHandle h (HandleRec.setRunState .done)
      let s ← getState
      if (s.handles h).cancelled then
        update fun s => s.setHandle h HandleRec.dropCallback
        release
        release : P T Unit).Keeps (env quiet) wakeSpec := by
    refine keeps_bind (keeps_setHandle h fun _ hc => hc) fun _ => keeps_getState fun _ => ?_
    refine keeps_ite _ (keeps_bind (keeps_setHandle h fun _ hc => hc) fun _ => ?_) (keeps_return _)
    exact keeps_bind (keeps_python _) fun _ => keeps_python _
  refine keeps_getState fun s => keeps_ite _ (keeps_return _) ?_
  refine keeps_bind (keeps_setHandle h fun _ hc => hc) fun _ => ?_
  refine keeps_ite _ (keeps_setCore _ (fun _ => rfl) (fun _ => rfl) fun _ => rfl) ?_
  refine keeps_bind keeps_alloc fun ok => ?_
  exact keeps_ite _ (keeps_bind (keeps_invoke h) fun _ => hdone)
    (keeps_bind (keeps_callbackFailed _) fun _ => hdone)

theorem Wakeup.keeps_runOne (h : ℕ) : (runOne h : P T _).Keeps (env quiet) wakeSpec := by
  refine keeps_getState fun s => ?_
  cases (s.handles h).kind with
  | soon => exact keeps_runHandle h
  | native => exact keeps_runHandle h
  | threadsafe => exact keeps_runThreadsafe h
  | timer => exact keeps_bind (keeps_setHandle h fun _ hc => hc) fun _ => keeps_runTimer h

theorem Wakeup.keeps_hrtime : (hrtime : P T _).Keeps (env quiet) wakeSpec :=
  fun s hs => (wp_hrtime _).mpr fun _ => ⟨hs, .refl s⟩

theorem Wakeup.keeps_runTimed (h : ℕ) : (runTimed h : P T _).Keeps (env quiet) wakeSpec := by
  refine keeps_getState fun s => ?_
  cases s.slowCallbackDuration with
  | none => exact keeps_runOne h
  | some duration =>
    refine keeps_ite _ ?_ (keeps_runOne h)
    refine keeps_bind keeps_hrtime fun _ => keeps_bind (keeps_runOne h) fun _ => ?_
    exact keeps_bind keeps_hrtime fun _ => keeps_ite _ (keeps_python _) (keeps_return _)

theorem Wakeup.keeps_runReadyLoop (remaining : ℕ) :
    (runReadyLoop remaining : P T _).Keeps (env quiet) wakeSpec := by
  induction remaining with
  | zero => exact keeps_return _
  | succ remaining ih =>
    intro s hs
    simp only [runReadyLoop, release, Prog.wp_bind, wp_getState]
    rcases hpop : s.ready.pop with ⟨h?, q⟩
    cases h? with
    | none => exact ⟨hs, .refl s⟩
    | some h =>
      simp only [Prog.wp_bind, wp_setState]
      obtain ⟨hs₁, hrely₁⟩ := hs.pop hpop
      refine (keeps_runTimed h).wp hs₁ fun _ s₂ hs₂ hrely₂ => ?_
      refine (keeps_python _).wp hs₂ fun _ s₃ hs₃ hrely₃ => ?_
      refine ih.wp hs₃ fun _ s₄ hs₄ hrely₄ => ⟨hs₄, ?_⟩
      exact hrely₁.trans (hrely₂.trans (hrely₃.trans hrely₄))

theorem Wakeup.keeps_runReady : (runReady : P T _).Keeps (env quiet) wakeSpec := by
  refine keeps_getState fun s => keeps_bind (fun s hs => ?_) fun _ => keeps_runReadyLoop _
  exact hs.step rfl rfl id rfl rfl rfl rfl rfl rfl (fun _ he => he) (fun _ _ hc => hc) le_rfl

theorem Wakeup.keeps_idleLoop (batches callbacks started : ℕ) :
    (Prog.invoke (S := sig T) (.idleLoop batches callbacks started)).Keeps (env quiet) wakeSpec :=
  fun _ hs => ⟨hs, fun _ hs' => hs'⟩

theorem Wakeup.keeps_onIdle : (onIdle : P T _).Keeps (env quiet) wakeSpec :=
  keeps_bind keeps_hrtime fun _ => keeps_bind (keeps_idleLoop _ _ _) fun _ =>
    fun _ hs => hs.stopIdle

/-! ### Timers -/

theorem Wakeup.keeps_now : (now : P T _).Keeps (env quiet) wakeSpec :=
  fun _ hs => (wp_now _).mpr fun _ =>
    hs.step rfl rfl id rfl rfl rfl rfl rfl rfl (fun _ he => he) (fun _ _ hc => hc) le_rfl

theorem Wakeup.keeps_dropCancelled :
    (Prog.invoke (S := sig T) .dropCancelled).Keeps (env quiet) wakeSpec :=
  fun _ hs => ⟨hs, fun _ hs' => hs'⟩

theorem Wakeup.keeps_dropCancelledBody :
    (dropCancelledBody : P T _).Keeps (env quiet) wakeSpec := by
  intro s hs
  simp only [dropCancelledBody, release, Prog.wp_bind, wp_getState]
  cases he : s.timers.peek with
  | none => exact ⟨hs, .refl s⟩
  | some e =>
    simp only [Prog.wp_ite, Prog.wp_bind, wp_update, Prog.wp_pure]
    split
    · obtain ⟨hs₁, hrely₁⟩ := hs.popTimer he
      refine (keeps_python _).wp hs₁ fun _ s₂ hs₂ hrely₂ => ?_
      obtain ⟨hs₃, hrely₃⟩ := hs₂.uncountCancelled
      refine keeps_dropCancelled.wp hs₃ fun _ s₄ hs₄ hrely₄ => ⟨hs₄, ?_⟩
      exact hrely₁.trans (hrely₂.trans (hrely₃.trans hrely₄))
    · exact ⟨hs, .refl s⟩

/-- Arming brings the libuv timer up to date, whatever it was before. -/
theorem Wakeup.wp_armTimer {s : State T} (hs : Synced s) :
    (armTimer : P T _).wp (env quiet) wakeSpec
      (fun _ s' => Synced s' ∧ (IdleOk s → IdleOk s') ∧ TimerOk s') s := by
  simp only [armTimer, Prog.wp_bind, wp_getState]
  refine keeps_dropCancelled.wp hs fun _ s₁ hs₁ hrely₁ => ?_
  cases he : s₁.timers.peek with
  | none =>
    obtain ⟨hs₂, hidle, htimer⟩ := hs₁.stopTimer he
    exact ⟨hs₂, hidle ∘ hrely₁.idle, htimer⟩
  | some e =>
    simp only [Prog.wp_bind, wp_now, wp_update]
    intro t
    obtain ⟨hs₂, hidle, htimer⟩ := hs₁.startTimer he t
    exact ⟨hs₂, hidle ∘ hrely₁.idle, htimer⟩

theorem Wakeup.keeps_armTimer : (armTimer : P T _).Keeps (env quiet) wakeSpec :=
  fun _ hs => Prog.wp_mono (wp_armTimer hs) fun _ _ hs' => ⟨hs'.1, hs'.2.1, fun _ => hs'.2.2⟩

/-- Collecting brings the idle handle up to date, whatever it was before. -/
theorem Wakeup.wp_collectDueBody (deadline : T) {s : State T} (hs : Synced s) :
    (collectDueBody deadline).wp (env quiet) wakeSpec
      (fun _ s' => Synced s' ∧ IdleOk s' ∧ (TimerOk s → TimerOk s')) s := by
  simp only [collectDueBody, release, Prog.wp_bind, wp_getState]
  cases he : s.timers.peek with
  | none => exact hs.startIdle
  | some e =>
    simp only [Prog.wp_ite, Prog.wp_bind, wp_update, wp_getState, wp_alloc]
    obtain ⟨hs₁, hrely₁⟩ := hs.popTimer he
    split
    · exact hs.startIdle
    split
    · refine (keeps_python _).wp hs₁ fun _ s₂ hs₂ hrely₂ => ?_
      obtain ⟨hs₃, hrely₃⟩ := hs₂.uncountCancelled
      refine ⟨hs₃, fun s₄ hs₄ => ⟨hs₄.1, hs₄.2.1, fun htimer => hs₄.2.2 ?_⟩⟩
      exact hrely₃.timer (hrely₂.timer (hrely₁.timer htimer))
    · obtain ⟨q, hq, -⟩ :=
        (s.popTimer.setHandle e.handle HandleRec.clearScheduled).pushReady_true e.handle
      rw [hq]
      simp only [Prog.wp_bind, wp_setState]
      obtain ⟨hs₂, htimer₂⟩ := hs₁.setReady q
      obtain ⟨hs₃, hrely₃⟩ := hs₂.record (.due e.handle e.when s.clock)
      refine ⟨hs₃, fun s₄ hs₄ => ⟨hs₄.1, hs₄.2.1, fun htimer => hs₄.2.2 ?_⟩⟩
      exact hrely₃.timer (htimer₂ (hrely₁.timer htimer))

theorem Wakeup.keeps_onTimer : (onTimer : P T _).Keeps (env quiet) wakeSpec := by
  intro s hs
  simp only [onTimer, collectDueTimers, Prog.wp_bind, wp_update, wp_now, Prog.wp_invoke]
  intro t
  have hs₁ : Synced (s.expireTimer.setClock t) := ⟨hs.idle, rfl, hs.wake, hs.inbox, hs.heap⟩
  refine ⟨hs₁, fun s₂ hs₂ => ?_⟩
  refine Prog.wp_mono (wp_armTimer hs₂.1) fun _ s₃ hs₃ => ⟨hs₃.1, ?_, fun _ => hs₃.2.2⟩
  exact fun _ => hs₃.2.1 hs₂.2.1

theorem Wakeup.keeps_releaseAll (doomed : List ℕ) :
    (releaseAll doomed : P T _).Keeps (env quiet) wakeSpec := by
  induction doomed with
  | nil => exact keeps_return _
  | cons h doomed ih => exact keeps_bind (keeps_python _) fun _ => ih

theorem Wakeup.keeps_noteTimerCancelled :
    (noteTimerCancelled : P T _).Keeps (env quiet) wakeSpec := by
  refine keeps_bind (fun s hs => hs.setTimers fun _ he => he) fun _ => ?_
  intro s hs
  simp only [Prog.wp_bind, wp_getState, Prog.wp_ite, wp_alloc, wp_setState, Prog.wp_pure]
  split
  · obtain ⟨hs₁, hrely₁⟩ := hs.compactTimers
    refine (keeps_releaseAll _).wp hs₁ fun _ s₂ hs₂ hrely₂ => ?_
    refine keeps_armTimer.wp hs₂ fun _ s₃ hs₃ hrely₃ => ⟨hs₃, ?_⟩
    exact hrely₁.trans (hrely₂.trans hrely₃)
  · exact ⟨hs, .refl s⟩

theorem Wakeup.keeps_scheduleAt (when : T) (alreadyDue : Bool) :
    (scheduleAt when alreadyDue).Keeps (env quiet) wakeSpec := by
  intro s hs
  simp only [scheduleAt, create, Prog.wp_bind, wp_getState, Prog.wp_ite, Prog.wp_pure, wp_alloc,
    ↓reduceIte, wp_setState, wp_update]
  obtain ⟨hs₁, hrely₁⟩ := hs.create .timer when
  split
  · exact ⟨hs, .refl s⟩
  split
  · obtain ⟨hs₂, hrely₂⟩ := hs₁.setHandle s.fresh HandleRec.markReady fun _ hc => hc
    obtain ⟨q, hq, -⟩ :=
      ((s.create .timer when).setHandle s.fresh HandleRec.markReady).pushReady_true s.fresh
    rw [hq]
    simp only [Prog.wp_bind, wp_setState, Prog.wp_pure]
    obtain ⟨hs₃, htimer₃⟩ := hs₂.setReady q
    obtain ⟨hs₄, hrely₄⟩ := hs₃.record (.due s.fresh when s.clock)
    obtain ⟨hs₅, hidle₅, htimer₅⟩ := hs₄.startIdle
    refine ⟨hs₅, fun _ => hidle₅, fun htimer => htimer₅ (hrely₄.timer (htimer₃ ?_))⟩
    exact hrely₂.timer (hrely₁.timer htimer)
  · obtain ⟨timers, htimers, hcontents, -, -⟩ :=
      (s.create .timer when).timers.push_true when s.fresh
    rw [htimers]
    simp only [Prog.wp_bind, wp_update, Prog.wp_pure]
    have hs₂ : Synced ((s.create .timer when).setTimers timers) := by
      refine ⟨hs₁.idle, hs₁.timer, hs₁.wake, hs₁.inbox, fun e he => ?_⟩
      rw [State.setTimers, hcontents, Multiset.mem_cons] at he
      rcases he with rfl | he
      · exact Nat.lt_succ_self _
      · exact hs₁.heap e he
    refine Prog.wp_mono (wp_armTimer hs₂) fun _ s₃ hs₃ => ⟨hs₃.1, ?_, fun _ => hs₃.2.2⟩
    exact fun hidle => hs₃.2.1 (hrely₁.idle hidle)

theorem Wakeup.keeps_create (kind : HandleKind) (when : T) :
    (create kind when).Keeps (env quiet) wakeSpec := by
  intro s hs
  simp only [create, Prog.wp_bind, wp_alloc, ↓reduceIte, wp_getState, wp_setState, Prog.wp_pure]
  exact hs.create kind when

/-! ### Scheduling -/

/-- Queueing a handle and starting the idle handle. -/
theorem Synced.pushAndStart {s : State T} (hs : Synced s) (q : Queue ℕ) :
    Synced ((s.setReady q).setCore Core.startIdle) ∧
      WakeRely s ((s.setReady q).setCore Core.startIdle) := by
  obtain ⟨hs₁, htimer₁⟩ := hs.setReady q
  obtain ⟨hs₂, hidle₂, htimer₂⟩ := hs₁.startIdle
  exact ⟨hs₂, fun _ => hidle₂, htimer₂ ∘ htimer₁⟩

/-- Draining the inbox leaves nothing to be announced. -/
theorem Synced.drain {s : State T} (hs : Synced s) (ready : Queue ℕ) {inbox : Queue ℕ}
    (hinbox : inbox.toList = []) : Synced ((s.setReady ready).setInbox inbox) :=
  ⟨hs.idle, hs.timer, hs.wake, fun hne => absurd hinbox hne, hs.heap⟩

section

variable [Inhabited T]

theorem Wakeup.keeps_scheduleSoon : (scheduleSoon : P T _).Keeps (env quiet) wakeSpec := by
  intro s hs
  simp only [scheduleSoon, create, Prog.wp_bind, wp_getState, Prog.wp_ite, Prog.wp_pure, wp_alloc,
    ↓reduceIte, wp_setState]
  obtain ⟨hs₁, hrely₁⟩ := hs.create .soon default
  split
  · exact ⟨hs₁, hrely₁⟩
  obtain ⟨ready, inbox, hdrain, -, hinbox⟩ := (s.create .soon default).drainThreadsafe_true
  rw [hdrain]
  simp only [Prog.wp_bind, wp_setState, wp_alloc]
  have hs₂ := hs₁.drain ready hinbox
  obtain ⟨q, hq, -⟩ :=
    (((s.create .soon default).setReady ready).setInbox inbox).pushReady_true s.fresh
  rw [hq]
  simp only [Prog.wp_bind, wp_setState, Prog.wp_pure]
  obtain ⟨hs₃, -⟩ := hs₂.setReady q
  obtain ⟨hs₄, -⟩ := hs₃.record (.registered s.fresh)
  obtain ⟨hs₅, hidle₅, -⟩ := hs₄.startIdle
  refine ⟨hs₅, fun _ => hidle₅, fun htimer => (hrely₁.timer htimer).mono ?_ ?_⟩
  · unfold State.setCore Core.startIdle
    split <;> rfl
  · unfold State.setCore Core.startIdle
    split <;> exact fun _ he hc => ⟨he, hc⟩

theorem Wakeup.keeps_callSoonThreadsafe :
    (callSoonThreadsafe : P T _).Keeps (env quiet) wakeSpec := by
  intro s hs
  simp only [callSoonThreadsafe, create, Prog.wp_bind, wp_getState, Prog.wp_ite, Prog.wp_pure,
    wp_alloc, ↓reduceIte, wp_setState]
  obtain ⟨hs₁, hrely₁⟩ := hs.create .threadsafe default
  split
  · exact ⟨hs, .refl s⟩
  obtain ⟨inbox, hinbox, -⟩ := (s.create .threadsafe default).threadsafeReady.push_true s.fresh
  rw [hinbox]
  simp only [Prog.wp_bind, wp_setState, Prog.wp_pure]
  obtain ⟨hs₂, hrely₂⟩ := hs₁.sendWake
  exact ⟨hs₂, hrely₁.trans hrely₂⟩

theorem Wakeup.keeps_scheduleCall : (scheduleCall : P T _).Keeps (env quiet) wakeSpec := by
  intro s hs
  simp only [scheduleCall, create, Prog.wp_bind, wp_getState, Prog.wp_ite, Prog.wp_pure, wp_alloc,
    ↓reduceIte, wp_setState]
  obtain ⟨hs₁, hrely₁⟩ := hs.create .native default
  split
  · exact ⟨hs, .refl s⟩
  obtain ⟨q, hq, -⟩ := (s.create .native default).pushReady_true s.fresh
  rw [hq]
  simp only [wp_setState]
  obtain ⟨hs₂, hrely₂⟩ := hs₁.pushAndStart q
  exact ⟨hs₂, hrely₁.trans hrely₂⟩

end

theorem Wakeup.keeps_onWake : (onWake : P T _).Keeps (env quiet) wakeSpec := by
  intro s hs
  simp only [onWake, Prog.wp_bind, wp_update, wp_getState, wp_alloc]
  obtain ⟨ready, inbox, hdrain, -, hinbox⟩ := s.consumeWake.drainThreadsafe_true
  rw [hdrain]
  simp only [wp_setState]
  -- the wake-up is consumed and the inbox emptied in one go
  have hs₁ : Synced ((s.consumeWake.setReady ready).setInbox inbox) :=
    ⟨hs.idle, hs.timer, fun hp => absurd hp Bool.false_ne_true, fun hne => absurd hinbox hne,
      hs.heap⟩
  obtain ⟨hs₂, hidle₂, htimer₂⟩ := hs₁.startIdle
  exact ⟨hs₂, fun _ => hidle₂, htimer₂⟩

theorem Wakeup.wp_scheduleFired (fired : List ℕ) {s : State T} (hs : Synced s) :
    (scheduleFired fired).wp (env quiet) wakeSpec
      (fun _ s' => Synced s' ∧ (TimerOk s → TimerOk s')) s := by
  induction fired generalizing s with
  | nil => exact ⟨hs, id⟩
  | cons h fired ih =>
    simp only [scheduleFired, Prog.wp_bind, wp_getState, Prog.wp_ite, wp_alloc]
    split
    · obtain ⟨q, hq, -⟩ := s.pushReady_true h
      rw [hq]
      simp only [Prog.wp_bind, wp_setState]
      obtain ⟨hs₁, htimer₁⟩ := hs.setReady q
      exact Prog.wp_mono (ih hs₁) fun _ s' hs' => ⟨hs'.1, hs'.2 ∘ htimer₁⟩
    · exact ih hs

theorem Wakeup.keeps_onPoll (fired : List ℕ) :
    (onPoll fired : P T _).Keeps (env quiet) wakeSpec := by
  intro s hs
  simp only [onPoll, Prog.wp_bind, wp_update]
  refine Prog.wp_mono (wp_scheduleFired fired hs) fun _ s₁ hs₁ => ?_
  obtain ⟨hs₂, hidle₂, htimer₂⟩ := hs₁.1.startIdle
  exact ⟨hs₂, fun _ => hidle₂, htimer₂ ∘ hs₁.2⟩

/-! ### Cancellation -/

theorem Wakeup.keeps_cancelHandle (h : ℕ) :
    (cancelHandle h : P T _).Keeps (env quiet) wakeSpec := by
  refine keeps_getState fun s => keeps_ite _ ?_ (keeps_return _)
  refine keeps_bind (keeps_setHandle h fun _ _ => rfl) fun _ => ?_
  exact keeps_ite _ (keeps_clearCallback h) (keeps_return _)

theorem Wakeup.keeps_timerCancel (h : ℕ) :
    (timerCancel h : P T _).Keeps (env quiet) wakeSpec := by
  have hnote : (do
      let s ← getState
      if (s.handles h).inHeap then noteTimerCancelled : P T Unit).Keeps (env quiet) wakeSpec :=
    keeps_getState fun _ => keeps_ite _ keeps_noteTimerCancelled (keeps_return _)
  refine keeps_getState fun s => keeps_ite _ ?_ (keeps_return _)
  refine keeps_bind (keeps_setHandle h fun _ _ => rfl) fun _ => ?_
  exact keeps_ite _ (keeps_bind (keeps_clearCallback h) fun _ => hnote) hnote

theorem Wakeup.keeps_cancelTimer (h : ℕ) :
    (cancelTimer h : P T _).Keeps (env quiet) wakeSpec :=
  keeps_getState fun _ => keeps_bind (keeps_timerCancel h) fun _ => fun _ hs => hs.record _

theorem Wakeup.keeps_cancelThreadsafe (h : ℕ) :
    (cancelThreadsafe h : P T _).Keeps (env quiet) wakeSpec := by
  refine keeps_bind (keeps_setHandle h fun r hc => ?_) fun _ => keeps_getState fun s => ?_
  · unfold HandleRec.settle
    split
    · exact hc
    · exact hc
  refine keeps_ite _ (keeps_bind (keeps_setHandle h fun _ _ => rfl) fun _ => ?_) (keeps_return _)
  refine keeps_ite _ (keeps_bind (keeps_setHandle h fun _ hc => hc) fun _ => ?_) (keeps_return _)
  exact keeps_bind (keeps_python _) fun _ => keeps_python _

theorem Wakeup.keeps_cancel (h : ℕ) : (cancel h : P T _).Keeps (env quiet) wakeSpec := by
  refine keeps_getState fun s => ?_
  cases (s.handles h).kind with
  | soon => exact keeps_cancelHandle h
  | native => exact keeps_cancelHandle h
  | timer => exact keeps_cancelTimer h
  | threadsafe => exact keeps_cancelThreadsafe h

/-! ## Every reachable state -/

theorem Wakeup.keeps_runBegin : (runBegin : P T _).Keeps (env quiet) wakeSpec := by
  refine keeps_getState fun s => keeps_ite _ (keeps_return _) (keeps_ite _ (keeps_return _) ?_)
  refine keeps_bind (keeps_setCore _ (fun _ => rfl) (fun _ => rfl) fun _ => rfl) fun _ => ?_
  exact keeps_bind keeps_startIdle fun _ => keeps_bind keeps_armTimer fun _ => keeps_return _

theorem Wakeup.init [Inhabited T] (t : T) : Synced (State.init t) ∧ IdleOk (State.init t) ∧
    TimerOk (State.init t) := by
  have hempty : (State.init t).timers.contents = 0 := TimerHeap.contents_empty
  have hnone : ∀ e, e ∉ (State.init t).timers.contents := fun e he => by
    rw [hempty] at he
    exact absurd he (Multiset.notMem_zero e)
  refine ⟨⟨rfl, rfl, nofun, fun hne => absurd rfl hne, fun e he => absurd he (hnone e)⟩, ?_, ?_⟩
  · exact fun hne => absurd rfl hne
  · exact fun e he => absurd he (hnone e)

/-- Every entry point and every procedure of the loop keeps the wake-up mechanisms up to date. -/
theorem Wakeup.verified [Add T] [Zero T] [Inhabited T] (t : T) :
    Verified (system t) (env quiet) wakeSpec where
  rely_refl := WakeRely.refl
  rely_trans := fun _ _ _ => WakeRely.trans
  init := (Wakeup.init t).1
  body := fun f s hs => by
    cases f with
    | collectDue deadline => exact wp_collectDueBody deadline hs
    | dropCancelled => exact keeps_dropCancelledBody s hs
    | idleLoop batches callbacks started =>
      exact keeps_idleBody WakeRely.refl (fun _ _ _ => WakeRely.trans) keeps_runReady
        keeps_idleLoop batches callbacks started s hs
  entry := fun stack s op hstart hs _ => by
    cases op with
    | callSoon => exact keeps_scheduleSoon.map _ s hs
    | callSoonThreadsafe => exact keeps_callSoonThreadsafe.map _ s hs
    | callLater delay => exact (keeps_bind keeps_now fun _ => keeps_scheduleAt _ _).map _ s hs
    | callAt when => exact (keeps_bind keeps_now fun _ => keeps_scheduleAt _ _).map _ s hs
    | cancel h => exact keeps_cancel h s hs
    | stop => exact hs.setCore _ rfl rfl rfl
    | runBegin => exact keeps_runBegin.map _ s hs
    | runEnd => exact hs.setCore _ rfl rfl rfl
    | onIdle => exact keeps_onIdle s hs
    | onTimer => exact keeps_onTimer s hs
    | asyncDispatch =>
      exact ⟨⟨hs.idle, hs.timer, fun _ => Or.inr rfl, hs.inbox, hs.heap⟩, id, id⟩
    | onWake => exact keeps_onWake s hs
    | onPoll fired => exact keeps_onPoll fired s hs
    | createNative => exact (keeps_create _ _).map _ s hs
    | scheduleCall => exact keeps_scheduleCall s hs
    | surroundings e =>
      exact hs.step rfl rfl id rfl rfl rfl rfl rfl rfl (fun _ he => he) (fun _ _ hc => hc) le_rfl

end Programs

/-- There is something to run at time `now`: a queued callback, or a timer that is due. -/
def State.Runnable (s : State T) (now : T) : Prop :=
  s.ready.toList ≠ [] ∨ s.threadsafeReady.toList ≠ [] ∨
    ∃ e ∈ s.timers.contents, (s.handles e.handle).cancelled = false ∧ e.when ≤ now

/-- libuv may block in its poll past time `now`: no idle handle is active, no wake-up has been sent,
and the timer, if it is armed at all, is armed for later. -/
def State.MayBlockPast (s : State T) (now : T) : Prop :=
  s.uvIdle = false ∧ s.asyncSent = false ∧ s.wakeDispatched = false ∧
    ∀ d, s.uvTimer = some d → now < d

/-- Between two native callbacks no wake-up is lost: something to run keeps the idle handle active,
something in the inbox comes with a wake-up not yet handled, a waiting timer keeps the libuv timer
armed for a deadline no later than any that waits. So libuv never blocks past something to run. -/
theorem no_lost_wakeup [Add T] [Zero T] [Inhabited T] (t : T) {s : State T}
    (h : (system t).Reachable (env False) ⟨s, none, []⟩) :
    (s.ready.toList ≠ [] → s.idleActive = true ∧ s.uvIdle = true) ∧
      (s.threadsafeReady.toList ≠ [] →
        s.wakerPending = true ∧ (s.asyncSent = true ∨ s.wakeDispatched = true)) ∧
      (∀ e ∈ s.timers.contents, (s.handles e.handle).cancelled = false →
        s.timerActive = true ∧ ∃ d, s.uvTimer = some d ∧
          ∀ e' ∈ s.timers.contents, (s.handles e'.handle).cancelled = false → d ≤ e'.when) ∧
      ∀ now, s.Runnable now → ¬ s.MayBlockPast now := by
  obtain ⟨hs, hrely⟩ : Synced s ∧ WakeRely (State.init t) s := (Wakeup.verified t).top_level h
  have hidle : IdleOk s := hrely.idle (Wakeup.init t).2.1
  have htimer : TimerOk s := hrely.timer (Wakeup.init t).2.2
  have hwake : WakeOk s := fun hne => ⟨hs.inbox hne, hs.wake (hs.inbox hne)⟩
  refine ⟨fun hne => ⟨hs.idle.trans (hidle hne), hidle hne⟩, hwake, fun e he hc => ?_, ?_⟩
  · obtain ⟨d, hd, hle⟩ := htimer e he hc
    exact ⟨by rw [hs.timer, hd]; rfl, d, hd, hle⟩
  · rintro now (hne | hne | ⟨e, he, hc, hdue⟩) ⟨hnoIdle, hnoSend, hnoWake, hlater⟩
    · exact absurd (hidle hne) (by simp [hnoIdle])
    · exact absurd (hwake hne).2 (by simp [hnoSend, hnoWake])
    · obtain ⟨d, hd, hle⟩ := htimer e he hc
      exact absurd ((hlater d hd).trans_le (hle e he hc)) (not_lt.mpr hdue)

/-- A running loop with a handle of `call_soon`, one of `call_soon_threadsafe` and a timer. -/
theorem no_lost_wakeup_all_three :
    ∃ s : State ℕ, s.ready.toList = [0] ∧ s.threadsafeReady.toList = [1] ∧ s.timers.len = 1 ∧
      s.uvIdle = true ∧ s.wakerPending = true ∧ ∀ now, s.Runnable now → ¬ s.MayBlockPast now := by
  let yes : Label (sig ℕ) := .answer ⟨true, 0, 0⟩
  have hplay : ∃ s, (system 0).play (env False) 40
      [.start .runBegin, .start .callSoon, yes, yes, yes, .start .callSoonThreadsafe, yes, yes,
        .start (.callLater 5), yes, yes, yes, yes] (system 0).initial = some ⟨s, none, []⟩ ∧
      s.ready.toList = [0] ∧ s.threadsafeReady.toList = [1] ∧ s.timers.len = 1 :=
    ⟨_, rfl, rfl, rfl, rfl⟩
  obtain ⟨s, hrun, hready, hinbox, hlen⟩ := hplay
  obtain ⟨ha, hb, -, hd⟩ := no_lost_wakeup 0 (System.Reachable.initial.play hrun)
  exact ⟨s, hready, hinbox, hlen, (ha (by simp [hready])).2, (hb (by simp [hinbox])).1, hd⟩

end Zuvloop.Loop
