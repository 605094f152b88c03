import Zuvloop.Loop.Nested
import Zuvloop.Loop.Order

/-!
# Batches

A batch is everything that is queued when it starts, whatever its callbacks do. It takes exactly
these handles off the ready queue, and as long as there is memory it runs those of them that are not
cancelled, and nothing else.

## Main definitions

* `Batch`: the run of one batch.
* `takenIn`: the handles that are taken off the ready queue in a log.
* `RanAll`: what a batch has run when it is over.

## Main results

* `Batch.whole`: a batch takes exactly the handles that were queued when it started.
* `Batch.ran`: it runs every one of them that is not cancelled, also after a `stop()`.
-/

namespace Zuvloop.Loop

open Reentrant

variable {T : Type} [LinearOrder T]

/-! ## What a batch takes off the ready queue -/

/-- The handle that an entry of a log takes off the ready queue. -/
def taken : Entry (sig T) → Option ℕ
  | .set s s' => if s'.ready.toList = s.ready.toList.tail then s.ready.toList.head? else none
  | .yield .. => none

/-- The handles taken off the ready queue, in order. -/
def takenIn (log : Log (sig T)) : List ℕ := log.filterMap taken

theorem takenIn_append (log log' : Log (sig T)) :
    takenIn (log ++ log') = takenIn log ++ takenIn log' := List.filterMap_append

/-- What appends to the ready queue takes nothing off it. -/
theorem taken_of_prefix {s s' : State T} (h : s.ready.toList <+: s'.ready.toList) :
    taken (.set s s' : Entry (sig T)) = none := by
  rw [taken]
  split
  · rename_i htail
    cases hlist : s.ready.toList with
    | nil => rfl
    | cons head rest =>
      -- the queue would be a prefix of its own tail
      have hle := h.length_le
      rw [htail, hlist] at hle
      exact absurd hle (Nat.not_succ_le_self rest.length)
  · rfl

theorem taken_pop {s : State T} {h : ℕ} {rest : List ℕ} (q : Queue ℕ)
    (hlist : s.ready.toList = h :: rest) (hq : q.toList = rest) :
    taken (.set s (s.setReady q) : Entry (sig T)) = some h := by
  rw [taken, hlist]
  exact if_pos hq

/-- The run of one batch: where it starts, where it ends, and what happens. -/
structure Batch (T : Type) [LinearOrder T] where
  /-- The state the batch starts in. -/
  before : State T
  /-- The state it ends in. -/
  after : State T
  /-- What happens. -/
  log : Log (sig T)

/-- The number of callbacks queued when the batch starts. -/
def Batch.size (b : Batch T) : ℕ := b.before.ready.len

section Runs

variable {M : System (sig T)} {E : Env (sig T)} {R : Callback → State T → State T → Prop}
  {s s' : State T} {log : Log (sig T)}

/-- The batch is a run of `runReady`. -/
def Batch.IsRun (M : System (sig T)) (E : Env (sig T)) (R : Callback → State T → State T → Prop)
    (b : Batch T) : Prop := Run M E R (runReady : P T Unit) b.before () b.after b.log

/-- The run of one callback takes nothing off the ready queue. -/
theorem onward_of_works (hR : ∀ c s s', R c s s' → Onward s s') {p : P T Unit} (hp : Works p)
    (hrun : Run M E R p s () s' log) : Onward s s' ∧ takenIn log = [] := by
  obtain ⟨-, honward, hsets, -⟩ := hrun.confined (G := Onward) Onward.refl
    (fun _ _ _ => Onward.trans) (fun _ _ => Work.onward) hR (hp s)
  refine ⟨honward, List.filterMap_eq_nil_iff.mpr fun e he => ?_⟩
  cases e with
  | set s₁ s₂ => exact taken_of_prefix (hsets s₁ s₂ he).onward.ready
  | yield => rfl

/-- The loop of a batch takes the first handles of the queue, as many as there were. -/
theorem takenIn_runReadyLoop (hR : ∀ c s s', R c s s' → Onward s s') {remaining : ℕ}
    (hlen : remaining ≤ s.ready.len) (hrun : Run M E R (runReadyLoop remaining) s () s' log) :
    takenIn log = s.ready.toList.take remaining ∧
      s'.iterations = s.iterations ∧ s'.callbacksRun = s.callbacksRun := by
  induction remaining generalizing s log with
  | zero =>
    obtain ⟨-, rfl, rfl⟩ := run_pure_iff.mp hrun
    exact ⟨rfl, rfl, rfl⟩
  | succ remaining ih =>
    have hfst := s.ready.pop_fst
    have hsnd := s.ready.toList_pop
    rw [← s.ready.length_toList] at hlen
    obtain ⟨h, rest, hlist⟩ := List.exists_cons_of_length_pos (Nat.lt_of_lt_of_le
      (Nat.succ_pos _) hlen)
    have hloop := run_read_bind_iff.mp hrun
    rcases hpop : s.ready.pop with ⟨h?, q⟩
    rw [hpop] at hfst hsnd
    simp only [hpop] at hloop
    rw [hlist] at hfst hsnd
    subst hfst
    -- the handle is taken, run and released, and the loop goes on
    obtain ⟨log₁, hafter, rfl⟩ := run_modify_bind_iff.mp hloop
    obtain ⟨_, s₁, log₂, log₃, hone, hlast, rfl⟩ := run_bind_iff.mp hafter
    obtain ⟨_, s₂, log₄, log₅, hrelease, hagain, rfl⟩ := run_bind_iff.mp hlast
    obtain ⟨honward₁, htaken₁⟩ := onward_of_works hR (works_runTimed h) hone
    obtain ⟨honward₂, htaken₂⟩ := onward_of_works hR .release hrelease
    have honward := honward₁.trans honward₂
    have hrest : rest <+: s₂.ready.toList := by
      have hq : q.toList = rest := hsnd
      rw [← hq]
      exact honward.ready
    have hlen₂ : remaining ≤ s₂.ready.len := by
      rw [← s₂.ready.length_toList]
      rw [hlist] at hlen
      exact (Nat.le_of_succ_le_succ hlen).trans hrest.length_le
    obtain ⟨htaken₃, hiterations, hcallbacks⟩ := ih hlen₂ hagain
    refine ⟨?_, hiterations.trans honward.counts.1, hcallbacks.trans honward.counts.2⟩
    have hrestlen : remaining ≤ rest.length := by
      rw [hlist] at hlen
      exact Nat.le_of_succ_le_succ hlen
    obtain ⟨more, hmore⟩ := hrest
    have hhead : takenIn (.set s (s.setReady q) :: (log₂ ++ (log₄ ++ log₅))) =
        h :: takenIn (log₂ ++ (log₄ ++ log₅)) := by
      simp only [takenIn, List.filterMap_cons, taken_pop q hlist hsnd]
    refine hhead.trans ?_
    rw [takenIn_append, takenIn_append, htaken₁, htaken₂, htaken₃, hlist, ← hmore,
      List.take_append_of_le_length hrestlen, List.take_succ_cons]
    rfl

/-- A batch takes exactly the handles that were queued when it started, in order, and is counted as
such. -/
theorem Batch.whole (hR : ∀ c s s', R c s s' → Onward s s') {b : Batch T} (hb : b.IsRun M E R) :
    takenIn b.log = b.before.ready.toList ∧ b.after.iterations = b.before.iterations + 1 ∧
      b.after.callbacksRun = b.before.callbacksRun + b.size := by
  obtain ⟨rest, hloop, hlog⟩ := run_modify_bind_iff.mp (run_read_bind_iff.mp hb)
  have hlen : b.before.ready.len ≤ b.before.countBatch.ready.len := le_rfl
  obtain ⟨htaken, hiterations, hcallbacks⟩ := takenIn_runReadyLoop hR hlen hloop
  refine ⟨?_, hiterations, hcallbacks⟩
  have hfirst : taken (.set b.before b.before.countBatch : Entry (sig T)) = none :=
    taken_of_prefix List.prefix_rfl
  rw [hlog]
  simp only [takenIn, List.filterMap_cons, hfirst]
  change takenIn rest = _
  rw [htaken]
  change List.take b.before.ready.len b.before.ready.toList = _
  rw [← b.before.ready.length_toList, List.take_length]

/-- What persists through a batch, from any moment of it. -/
theorem Batch.persists (hR : ∀ c s s', R c s s' → Onward s s') {b : Batch T}
    (hb : b.IsRun M E R) : Persists b.before b.after ∧
      ∀ e ∈ b.log, ∀ σ ∈ e.states, Persists b.before σ ∧ Persists σ b.after := by
  obtain ⟨-, hall, -, hstates⟩ := hb.confined (G := Persists) Persists.refl
    (fun _ _ _ => Persists.trans) (fun _ _ => InBatch.persists)
    (fun c s s' h => (hR c s s' h).toPersists) (batches_runReady b.before)
  exact ⟨hall, hstates⟩

end Runs

/-! ## What a batch runs -/

section Ran

variable {M : System (sig T)} {E : Env (sig T)} {R : Callback → State T → State T → Prop}
  {s s' : State T} {log : Log (sig T)} {h : ℕ}

/-- Scheduling functions run no callback. -/
theorem ran_of_touches (hR : ∀ c s s', R c s s' → Frame s s') {p : P T Unit} (hp : Touches p)
    (hrun : Run M E R p s () s' log) : s'.ran = s.ran := by
  have hconfined := hrun.confined (G := fun s s' : State T => s'.ran = s.ran) (fun _ => rfl)
    (fun _ _ _ h h' => h'.trans h) (fun _ _ h => h.frame.ran) (fun c s s' h => (hR c s s' h).ran)
    (hp s)
  exact hconfined.2.1

/-- Calling a handle's callback counts as running it. -/
theorem ran_invoke (hR : ∀ c s s', R c s s' → Frame s s')
    (hrun : Run M E R (invoke h) s () s' log) : s'.ran = s.ran ++ [h] := by
  obtain ⟨rest, hrest, rfl⟩ := run_modify_bind_iff.mp hrun
  -- whatever becomes of the callback, what is left to do schedules at most
  refine (ran_of_touches hR ?_ hrest).trans ?_
  · refine .bind .enterContext fun entered => .ite (.bind (.foreign _) fun outcome => ?_)
      (touches_callbackFailed _)
    cases outcome with
    | returned => exact .pure ()
    | raised => exact touches_callbackFailed _
    | exit => exact touches_callbackFailed _
  · rw [State.ran_record]
    rfl

/-- A handle that was taken off the ready queue ran, or it had been cancelled. -/
def RanOrCancelled (h : ℕ) (s s' : State T) : Prop :=
  s'.ran = s.ran ++ [h] ∨ s'.ran = s.ran ∧ (s.handles h).cancelled = true

theorem Popped.cancelled_of_skip (hp : Popped s h)
    (hskip : ((s.handles h).cancelled || !(s.handles h).callback) = true) :
    (s.handles h).cancelled = true := by
  by_contra hno
  have hc : (s.handles h).cancelled = false := Bool.eq_false_iff.mpr hno
  have hcallback : (s.handles h).callback = true := hp.ordered.callback h hp.lt hc
  simp [hc, hcallback] at hskip

/-- There is memory. -/
theorem run_of_alloc {α : Type} {a : α} {f : Bool → P T α}
    (hrun : Run M (env False) R (alloc >>= f) s a s' log) :
    Run M (env False) R (f true) s a s' log := by
  obtain ⟨r, hanswer, hrest⟩ := run_ask_iff.mp hrun
  have hok : r.ok = true := hanswer rfl
  change Run M (env False) R (f r.ok) s a s' log at hrest
  rwa [hok] at hrest

theorem ran_markAndInvoke (hR : ∀ c s s', R c s s' → Frame s s')
    (hrun : Run M E R (do
      invoke h
      finishRun h : P T Unit) s () s' log) : s'.ran = s.ran ++ [h] := by
  obtain ⟨_, s₁, log₁, log₂, hinvoke, hfinish, rfl⟩ := run_bind_iff.mp hrun
  rw [ran_of_touches hR (touches_finishRun h) hfinish, ran_invoke hR hinvoke]

theorem ran_runHandle (hR : ∀ c s s', R c s s' → Frame s s') (hp : Popped s h)
    (hrun : Run M (env False) R (runHandle h) s () s' log) : RanOrCancelled h s s' := by
  have hrest := run_read_bind_iff.mp hrun
  split at hrest
  · rename_i hskip
    obtain ⟨-, rfl, -⟩ := run_pure_iff.mp hrest
    exact .inr ⟨rfl, hp.cancelled_of_skip hskip⟩
  · obtain ⟨_, hmarked, -⟩ := run_modify_bind_iff.mp hrest
    exact .inl (ran_markAndInvoke (s := s.setHandle h _) hR (run_of_alloc hmarked))

theorem ran_runTimer (hR : ∀ c s s', R c s s' → Frame s s') (hp : Popped s h)
    (hrun : Run M E R (runTimer h) s () s' log) : RanOrCancelled h s s' := by
  have hrest := run_read_bind_iff.mp hrun
  split at hrest
  · rename_i hskip
    obtain ⟨-, rfl, -⟩ := run_pure_iff.mp hrest
    exact .inr ⟨rfl, hp.cancelled_of_skip hskip⟩
  · obtain ⟨_, hmarked, -⟩ := run_modify_bind_iff.mp hrest
    exact .inl (ran_markAndInvoke (s := s.setHandle h _) hR hmarked)

theorem ran_runThreadsafe (hR : ∀ c s s', R c s s' → Frame s s') (hp : Popped s h)
    (hkind : (s.handles h).kind = .threadsafe)
    (hrun : Run M (env False) R (runThreadsafe h) s () s' log) : RanOrCancelled h s s' := by
  have hdone : Touches (do
      update fun s => s.setHandle h (HandleRec.setRunState .done)
      let s ← getState
      if (s.handles h).cancelled then
        update fun s => s.setHandle h HandleRec.dropCallback
        release
        release : P T Unit) := by
    refine .bind (.update fun s => .handle s h _) fun _ => .getState fun s =>
      .ite (.update (.handle s h _) ?_) (.pure ())
    exact Makes.bind .release (fun _ => .release) _
  have hrest := run_read_bind_iff.mp hrun
  split at hrest
  · -- a handle whose state word is not pending was cancelled
    rename_i hskip
    obtain ⟨-, rfl, -⟩ := run_pure_iff.mp hrest
    refine .inr ⟨rfl, ?_⟩
    by_contra hno
    exact hskip (hp.pending hkind (Bool.eq_false_iff.mpr hno))
  · rename_i hpending
    -- a pending handle was not cancelled, so that it has its callback
    have hc := hp.ordered.settled h hp.lt hkind (not_not.mp hpending)
    have hcallback : (s.handles h).callback = true := hp.ordered.callback h hp.lt hc
    obtain ⟨_, hmarked, -⟩ := run_modify_bind_iff.mp hrest
    rw [if_neg (by simp [hcallback])] at hmarked
    obtain ⟨_, s₁, _, _, hinvoke, hlast, -⟩ := run_bind_iff.mp (run_of_alloc hmarked)
    refine .inl ?_
    rw [ran_of_touches hR hdone hlast, ran_invoke hR hinvoke]
    rfl

theorem ran_runOne (hR : ∀ c s s', R c s s' → Frame s s') (hp : Popped s h)
    (hrun : Run M (env False) R (runOne h) s () s' log) : RanOrCancelled h s s' := by
  have hrest := run_read_bind_iff.mp hrun
  split at hrest
  · rename_i hkind
    obtain ⟨_, hcleared, -⟩ := run_modify_bind_iff.mp hrest
    have hp' : Popped (s.setHandle h HandleRec.clearScheduled) h := by
      refine ⟨hp.setHandle _ (.clearScheduled _), fun hk => ?_⟩
      rw [s.handles_setHandle_self] at hk
      exact absurd (hk.symm.trans hkind) (by simp)
    rcases ran_runTimer hR hp' hcleared with hran | ⟨hran, hc⟩
    · exact .inl hran
    · rw [s.handles_setHandle_self] at hc
      exact .inr ⟨hran, hc⟩
  · rename_i hkind
    exact ran_runThreadsafe hR hp hkind hrest
  · exact ran_runHandle hR hp hrest
  · exact ran_runHandle hR hp hrest

theorem ran_runTimed (hR : ∀ c s s', R c s s' → Frame s s') (hp : Popped s h)
    (hrun : Run M (env False) R (runTimed h) s () s' log) : RanOrCancelled h s s' := by
  have hmonitored : ∀ {duration : ℕ} {log : Log (sig T)},
      Run M (env False) R (runMonitored h duration) s () s' log → RanOrCancelled h s s' := by
    intro duration log hrun
    obtain ⟨_, s₁, _, _, hstarted, hrest, -⟩ := run_bind_iff.mp hrun
    obtain ⟨_, hrequest, -⟩ := run_map_iff.mp hstarted
    obtain ⟨-, rfl, -⟩ := run_request_iff.mp hrequest
    obtain ⟨_, s₂, _, _, hone, hlast, -⟩ := run_bind_iff.mp hrest
    -- reporting a slow callback runs none
    have hreport : ∀ started : ℕ, Touches (do
        let ended ← hrtime
        if duration < ended - started then python (.onSlowCallback h) : P T Unit) :=
      fun _ => .bind .hrtime fun _ => .ite (.python _) (.pure ())
    have hran := ran_of_touches hR (hreport _) hlast
    rcases ran_runOne hR hp hone with h₂ | ⟨h₂, hc⟩
    · exact .inl (hran.trans h₂)
    · exact .inr ⟨hran.trans h₂, hc⟩
  have hrest := run_read_bind_iff.mp hrun
  split at hrest
  · split at hrest
    · exact hmonitored hrest
    · exact ran_runOne hR hp hrest
  · exact ran_runOne hR hp hrest

end Ran

/-- A stronger condition keeps less of a list. -/
theorem filter_sublist_filter {α : Type} {p q : α → Bool} {l : List α}
    (h : ∀ a ∈ l, p a = true → q a = true) : (l.filter p).Sublist (l.filter q) := by
  have heq : l.filter p = (l.filter q).filter p := by
    rw [List.filter_filter]
    refine List.filter_congr fun a ha => ?_
    cases hp : p a with
    | true => rw [h a ha hp]; rfl
    | false => rfl
  rw [heq]
  exact List.filter_sublist

section Batches

variable [Add T] [Zero T] [Inhabited T] {t : T} {n : ℕ} {s s' : State T} {log : Log (sig T)}

/-- What Python code does while a callback of a batch is suspended. -/
abbrev Meanwhile (t : T) (n : ℕ) (c : Callback) (s s' : State T) : Prop :=
  Interlude (system t) (env False) n [c] s s'

theorem frame_of_meanwhile {c : Callback} (h : Meanwhile t n c s s') : Frame s s' :=
  frame_of_interlude (E := env False) (fun _ _ _ h => h.1) t h

theorem ordered_verified (t : T) : Verified (system t) (env False) orderSpec := Order.verified t

theorem sound_meanwhile : Sound (env False) orderSpec (Meanwhile t n) :=
  (Order.verified t).interlude n []

/-- A program of the loop keeps the two queues in order. -/
theorem ordered_of_run {p : P T Unit} {Q : Unit → State T → Prop}
    (hwp : p.wp (env False) orderSpec Q s) (hrun : Run (system t) (env False) (Meanwhile t n) p s ()
      s' log) : Q () s' := ((Order.verified t).run sound_meanwhile hrun hwp).1

/-- What a batch has run when it is over: of the given handles, in their order, all that have not
been cancelled. -/
def RanAll (queued : List ℕ) (s s' : State T) : Prop :=
  ∃ ran : List ℕ, s'.ran = s.ran ++ ran ∧ ran.Sublist queued ∧
    (queued.filter fun h => !(s'.handles h).cancelled).Sublist ran

theorem ranAll_runReadyLoop {remaining : ℕ} (hs : Ordered s) (hlen : remaining ≤ s.ready.len)
    (hrun : Run (system t) (env False) (Meanwhile t n) (runReadyLoop remaining) s () s' log) :
    RanAll (s.ready.toList.take remaining) s s' ∧ Ordered s' ∧ OrderRely s s' := by
  refine ⟨?_, ordered_of_run (Order.keeps_runReadyLoop remaining s hs) hrun⟩
  have hR : ∀ c s s', Meanwhile t n c s s' → Frame s s' := fun c s s' => frame_of_meanwhile
  induction remaining generalizing s log with
  | zero =>
    obtain ⟨-, rfl, -⟩ := run_pure_iff.mp hrun
    exact ⟨[], (List.append_nil _).symm, .slnil, .slnil⟩
  | succ remaining ih =>
    have hfst := s.ready.pop_fst
    have hsnd := s.ready.toList_pop
    rw [← s.ready.length_toList] at hlen
    obtain ⟨h, rest, hlist⟩ := List.exists_cons_of_length_pos (Nat.lt_of_lt_of_le
      (Nat.succ_pos _) hlen)
    have hloop := run_read_bind_iff.mp hrun
    rcases hpop : s.ready.pop with ⟨h?, q⟩
    rw [hpop] at hfst hsnd
    simp only [hpop] at hloop
    rw [hlist] at hfst hsnd hlen
    subst hfst
    have hq : q.toList = rest := hsnd
    obtain ⟨log₁, hafter, -⟩ := run_modify_bind_iff.mp hloop
    obtain ⟨_, s₁, log₂, log₃, hone, hlast, -⟩ := run_bind_iff.mp hafter
    obtain ⟨_, s₂, log₄, log₅, hrelease, hagain, -⟩ := run_bind_iff.mp hlast
    -- the handle was queued, and the two queues stay in order
    have hpopped : Popped (s.setReady q) h := hs.popped (hlist.trans (hq ▸ rfl))
    obtain ⟨hs₁, hrely₁⟩ := ordered_of_run (Order.wp_runTimed hpopped) hone
    obtain ⟨hs₂, hrely₂⟩ := ordered_of_run (Order.keeps_python _ s₁ hs₁) hrelease
    have honward := (onward_of_works (fun c s s' h => (hR c s s' h).toOnward) (works_runTimed h)
      hone).1.trans (onward_of_works (fun c s s' h => (hR c s s' h).toOnward) .release hrelease).1
    have hrest : rest <+: s₂.ready.toList := hq ▸ honward.ready
    have hrestlen : remaining ≤ rest.length := Nat.le_of_succ_le_succ hlen
    have hlen₂ : remaining ≤ s₂.ready.len := by
      rw [← s₂.ready.length_toList]
      exact hrestlen.trans hrest.length_le
    obtain ⟨ran, hran, hsub, hall⟩ := ih hs₂ hlen₂ hagain
    obtain ⟨-, hrely₃⟩ := ordered_of_run (Order.keeps_runReadyLoop remaining s₂ hs₂) hagain
    have htake : s₂.ready.toList.take remaining = rest.take remaining := by
      obtain ⟨more, hmore⟩ := hrest
      rw [← hmore, List.take_append_of_le_length hrestlen]
    rw [htake] at hsub hall
    rw [hlist, List.take_succ_cons]
    have hran₂ : s₂.ran = s₁.ran := ran_of_touches hR .release hrelease
    rcases ran_runTimed hR hpopped hone with hran₁ | ⟨hran₁, hc⟩
    · have hran₁ : s₁.ran = s.ran ++ [h] := hran₁
      refine ⟨h :: ran, ?_, hsub.cons_cons h, ?_⟩
      · rw [hran, hran₂, hran₁, List.append_assoc, List.singleton_append]
      · rw [List.filter_cons]
        split
        · exact hall.cons_cons h
        · exact hall.cons h
    · -- a cancelled handle stays cancelled
      have hran₁ : s₁.ran = s.ran := hran₁
      have hlt : h < (s.setReady q).fresh := hpopped.lt
      have hc' : (s'.handles h).cancelled = true :=
        ((hrely₁.trans hrely₂).trans hrely₃).cancelled h hlt hc
      refine ⟨ran, ?_, hsub.cons h, ?_⟩
      · rw [hran, hran₂, hran₁]
      · rwa [List.filter_cons_of_neg (by simp [hc'])]

/-- A batch runs every callback that was queued when it started and is not cancelled, whatever its
callbacks do: also after a `stop()`. -/
theorem Batch.ran {b : Batch T} (hs : Ordered b.before)
    (hb : b.IsRun (system t) (env False) (Meanwhile t n)) :
    RanAll b.before.ready.toList b.before b.after ∧ Ordered b.after ∧
      OrderRely b.before b.after := by
  refine ⟨?_, ordered_of_run (Order.keeps_runReady b.before hs) hb⟩
  obtain ⟨_, hloop, -⟩ := run_modify_bind_iff.mp (run_read_bind_iff.mp hb)
  obtain ⟨hcounted, -⟩ : Ordered b.before.countBatch ∧ OrderRely b.before b.before.countBatch :=
    hs.step rfl rfl rfl rfl rfl fun _ he => he
  have hlen : b.before.ready.len ≤ b.before.countBatch.ready.len := le_rfl
  obtain ⟨hran, -⟩ := ranAll_runReadyLoop hcounted hlen hloop
  have hall : b.before.countBatch.ready.toList.take b.before.ready.len =
      b.before.ready.toList := by
    change List.take b.before.ready.len b.before.ready.toList = _
    rw [← b.before.ready.length_toList, List.take_length]
  rwa [hall] at hran

end Batches

end Zuvloop.Loop
