import Zuvloop.ThreadSafeHandle.Model

/-!
# What the protocol of the thread-safe handle guarantees

`Inv` is the invariant of every interleaving. Its heart is that clearing is begun by whoever turns
the cancelled flag on outside the run, or by the end of the run if the flag was turned on inside it,
and that the list of waiters is non-empty only during the run.
-/

namespace Zuvloop.ThreadSafeHandle

open Loop (RunState Outcome)

/-! ## The invariant -/

/-- The runner is between the two writes of the state word. -/
def RunnerAt.isActive : RunnerAt → Bool
  | .materializing | .inCallback | .reporting => true
  | .notStarted | .clearing _ | .finished => false

/-- The runner has not come to the callback. -/
def RunnerAt.isEarly : RunnerAt → Bool
  | .notStarted | .materializing => true
  | .inCallback | .reporting | .clearing _ | .finished => false

/-- The state word and the runner agree. -/
structure WordOk (s : State) : Prop where
  /-- The word says so while the runner is between its two writes. -/
  running : s.runState = .running ↔ s.runner.isActive = true
  /-- A pending handle has neither been run nor cancelled. -/
  pending : s.runState = .pending → s.runner = .notStarted ∧ s.cancelled = false
  /-- The loop's thread knows what it is running. -/
  payload : s.runningPayload = true ↔ s.runState = .running

/-- The callback is invoked once at most, and not after a `cancel()` came first. -/
structure InvokedOk (s : State) : Prop where
  /-- At most once. -/
  once : s.invocations ≤ 1
  /-- Not before the runner gets there. -/
  early : s.runner.isEarly = true → s.invocations = 0
  /-- Not after a `cancel()` came first. -/
  preempted : s.preempted = true → s.invocations = 0 ∧ s.runState = .done

/-- The callback and the arguments are cleared once at most, after the run and after a
`cancel()`. -/
structure ClearsOk (s : State) : Prop where
  /-- At most once. -/
  once : s.clears ≤ 1
  /-- Only after a `cancel()`. -/
  cancelled : s.cancelled = false → s.clears = 0
  /-- Not during the run. -/
  running : s.runState = .running → s.clears = 0
  /-- Until then every reference is held. -/
  intact : s.clears = 0 → s.callback = true ∧ ∀ b ∈ s.args, b = true
  /-- The runner clears only once clearing was begun. -/
  runner : ∀ k, s.runner = .clearing k → s.clears ≠ 0
  /-- So does a call. -/
  caller : ∀ i k, s.caller i = .clearing k → s.clears ≠ 0

/-- The waiters that are linked and not released are those in the list, which is empty outside the
run. -/
structure WaitersOk (s : State) : Prop where
  /-- A waiter is linked until it is released. -/
  balance : ∀ i, s.linked i = s.released i + s.waiters.count i
  /-- A call links one waiter at most. -/
  once : ∀ i, s.linked i ≤ 1
  /-- Nobody waits outside the run. -/
  running : s.waiters ≠ [] → s.runState = .running
  /-- A call that has not been made has linked nothing. -/
  notStarted : ∀ i, s.caller i = .notStarted → s.linked i = 0
  /-- A call that is parked has linked its waiter. -/
  parked : ∀ i, s.caller i = .parked → s.linked i = 1
  /-- A call that has waited has seen the end of the run. -/
  reattaching : ∀ i, s.caller i = .reattaching → s.runState = .done
  /-- Waiters are released at the end of the run. -/
  released : ∀ i, s.released i ≠ 0 → s.runState = .done

/-- The invariant of the protocol. -/
structure Inv (s : State) : Prop where
  /-- The state word. -/
  word : WordOk s
  /-- The invocation. -/
  invoked : InvokedOk s
  /-- The clearing. -/
  clears : ClearsOk s
  /-- The waiters. -/
  waiters : WaitersOk s

/-- Clearing is not begun before the end of the run. -/
theorem Inv.done_of_clears {s : State} (h : Inv s) (hne : s.clears ≠ 0) : s.runState = .done := by
  cases hrun : s.runState with
  | pending => exact absurd (h.clears.cancelled (h.word.pending hrun).2) hne
  | running => exact absurd (h.clears.running hrun) hne
  | done => rfl

theorem Inv.init (nargs : ℕ) : Inv (.init nargs) where
  word := ⟨⟨nofun, nofun⟩, fun _ => ⟨rfl, rfl⟩, ⟨nofun, nofun⟩⟩
  invoked := ⟨Nat.zero_le 1, fun _ => rfl, nofun⟩
  clears := ⟨Nat.zero_le 1, fun _ => rfl, nofun,
    fun _ => ⟨rfl, fun _ hb => List.eq_of_mem_replicate hb⟩, nofun, nofun⟩
  waiters := ⟨fun _ => rfl, fun _ => Nat.zero_le 1, fun hne => absurd rfl hne, fun _ _ => rfl,
    nofun, nofun, fun _ hne => absurd rfl hne⟩

/-! ## Moving one call -/

section Callers

variable {s : State}

theorem caller_setCaller (s : State) (i j : ℕ) (place : CallerAt) :
    (s.setCaller i place).caller j = if j = i then place else s.caller j := by
  rcases eq_or_ne j i with rfl | hne
  · rw [if_pos rfl]
    exact Function.update_self _ _ _
  · rw [if_neg hne]
    exact Function.update_of_ne hne _ _

/-- A call may move to any place whose conditions hold. -/
theorem Inv.setCaller (h : Inv s) (i : ℕ) (place : CallerAt)
    (hclear : ∀ k, place = .clearing k → s.clears ≠ 0)
    (hstart : place = .notStarted → s.linked i = 0) (hpark : place = .parked → s.linked i = 1)
    (hback : place = .reattaching → s.runState = .done) : Inv (s.setCaller i place) := by
  refine ⟨⟨h.word.running, h.word.pending, h.word.payload⟩,
    ⟨h.invoked.once, h.invoked.early, h.invoked.preempted⟩,
    ⟨h.clears.once, h.clears.cancelled, h.clears.running, h.clears.intact, h.clears.runner,
      fun j k hj => ?_⟩,
    ⟨h.waiters.balance, h.waiters.once, h.waiters.running, fun j hj => ?_, fun j hj => ?_,
      fun j hj => ?_, h.waiters.released⟩⟩
  all_goals
    rw [caller_setCaller] at hj
    split at hj
  · exact hclear k hj
  · exact h.clears.caller j k hj
  · rename_i hji
    exact hji ▸ hstart hj
  · exact h.waiters.notStarted j hj
  · rename_i hji
    exact hji ▸ hpark hj
  · exact h.waiters.parked j hj
  · exact hback hj
  · exact h.waiters.reattaching j hj

theorem Inv.setReturned (h : Inv s) (i : ℕ) : Inv (s.setCaller i .returned) :=
  h.setCaller i .returned nofun nofun nofun nofun

/-- Clearing an argument, once clearing was begun. -/
theorem Inv.clearArg (h : Inv s) (hne : s.clears ≠ 0) (k : ℕ) : Inv (s.clearArg k) := by
  unfold State.clearArg
  split
  all_goals
    exact ⟨⟨h.word.running, h.word.pending, h.word.payload⟩,
      ⟨h.invoked.once, h.invoked.early, h.invoked.preempted⟩,
      ⟨h.clears.once, h.clears.cancelled, h.clears.running, fun hzero => absurd hzero hne,
        h.clears.runner, h.clears.caller⟩,
      ⟨h.waiters.balance, h.waiters.once, h.waiters.running, h.waiters.notStarted,
        h.waiters.parked, h.waiters.reattaching, h.waiters.released⟩⟩

theorem clears_clearArg (s : State) (k : ℕ) : (s.clearArg k).clears = s.clears := by
  unfold State.clearArg
  split <;> rfl

theorem runState_clearArg (s : State) (k : ℕ) : (s.clearArg k).runState = s.runState := by
  unfold State.clearArg
  split <;> rfl

theorem Inv.clearNext (h : Inv s) {i k : ℕ} (hi : s.caller i = .clearing k) :
    Inv (s.clearNext i k) := by
  have hne := h.clears.caller i k hi
  refine (h.clearArg hne k).setCaller i _ (fun _ _ => ?_) (fun hplace => ?_) (fun hplace => ?_)
    fun hplace => ?_
  · rw [clears_clearArg]
    exact hne
  all_goals
    split at hplace <;> cases hplace

/-! ## Cancelling -/

/-- Turning the flag on outside the run begins the clearing. -/
theorem Inv.cancelAndClear (h : Inv s) (hflag : s.cancelled = false) (hrun : s.runState ≠ .running)
    (hpend : s.runState ≠ .pending) : Inv ({ s with cancelled := true } : State).clear := by
  have hzero := h.clears.cancelled hflag
  refine ⟨⟨h.word.running, fun hp => absurd hp hpend, h.word.payload⟩,
    ⟨h.invoked.once, h.invoked.early, h.invoked.preempted⟩,
    ⟨?_, nofun, fun hr => absurd hr hrun, nofun, fun k hk => absurd hzero (h.clears.runner k hk),
      fun i k hi => absurd hzero (h.clears.caller i k hi)⟩,
    ⟨h.waiters.balance, h.waiters.once, h.waiters.running, h.waiters.notStarted,
      h.waiters.parked, h.waiters.reattaching, h.waiters.released⟩⟩
  change s.clears + 1 ≤ 1
  rw [hzero]

/-- Turning it on during the run leaves the clearing to the end of the run. -/
theorem Inv.cancelRunning (h : Inv s) (hrun : s.runState = .running) :
    Inv ({ s with cancelled := true } : State) :=
  ⟨⟨h.word.running, fun hp => absurd (hrun.symm.trans hp) nofun, h.word.payload⟩,
    ⟨h.invoked.once, h.invoked.early, h.invoked.preempted⟩,
    ⟨h.clears.once, nofun, h.clears.running, h.clears.intact, h.clears.runner,
      h.clears.caller⟩,
    ⟨h.waiters.balance, h.waiters.once, h.waiters.running, h.waiters.notStarted,
      h.waiters.parked, h.waiters.reattaching, h.waiters.released⟩⟩

theorem Inv.markCancelled (h : Inv s) (hpend : s.runState ≠ .pending) (i : ℕ) :
    Inv (s.markCancelled i) := by
  unfold State.markCancelled
  split
  · rename_i hflag
    have hflag : s.cancelled = false := by simpa using hflag
    dsimp only
    split
    · rename_i hrun
      refine (h.cancelAndClear hflag hrun hpend).setCaller i _ (fun _ _ => ?_) nofun nofun nofun
      exact Nat.succ_ne_zero _
    · rename_i hrun
      exact (h.cancelRunning (not_not.mp hrun)).setReturned i
  · exact h.setReturned i

/-- A `cancel()` that comes before the run keeps the handle from running. -/
theorem Inv.preempt (h : Inv s) (hpend : s.runState = .pending) :
    Inv ({ s with runState := .done, preempted := true } : State) := by
  obtain ⟨hrunner, hflag⟩ := h.word.pending hpend
  have hidle : s.waiters = [] := by
    by_contra hne
    exact absurd (hpend.symm.trans (h.waiters.running hne)) nofun
  refine ⟨⟨⟨nofun, fun hactive => ?_⟩, nofun, ⟨fun hpayload => ?_, nofun⟩⟩,
    ⟨h.invoked.once, h.invoked.early, fun _ => ⟨?_, rfl⟩⟩,
    ⟨h.clears.once, h.clears.cancelled, nofun, h.clears.intact, h.clears.runner,
      h.clears.caller⟩,
    ⟨h.waiters.balance, h.waiters.once, fun hne => absurd hidle hne, h.waiters.notStarted,
      h.waiters.parked, fun _ _ => rfl, fun _ _ => rfl⟩⟩
  · change s.runner.isActive = true at hactive
    rw [hrunner] at hactive
    cases hactive
  · exact absurd (hpend.symm.trans (h.word.payload.mp hpayload)) nofun
  · exact h.invoked.early (by rw [hrunner]; rfl)

/-! ## Waiting -/

/-- Linking the waiter of a call that has none yet. -/
theorem Inv.link (h : Inv s) (hrun : s.runState = .running) {i : ℕ} (hzero : s.linked i = 0)
    (hstart : s.caller i ≠ .notStarted) : Inv (s.link i) := by
  have hlinked : ∀ j, (s.link i).linked j = if j = i then 1 else s.linked j := by
    intro j
    change Function.update s.linked i (s.linked i + 1) j = _
    rw [Function.update_apply, hzero]
  refine ⟨⟨h.word.running, h.word.pending, h.word.payload⟩,
    ⟨h.invoked.once, h.invoked.early, h.invoked.preempted⟩,
    ⟨h.clears.once, h.clears.cancelled, h.clears.running, h.clears.intact, h.clears.runner,
      h.clears.caller⟩, ⟨fun j => ?_, fun j => ?_, fun _ => hrun, fun j hj => ?_,
    fun j hj => ?_, h.waiters.reattaching, h.waiters.released⟩⟩
  · -- the new waiter is linked once more than it was, and once more in the list
    have hbal := h.waiters.balance j
    change _ = s.released j + (i :: s.waiters).count j
    rw [hlinked, List.count_cons]
    rcases eq_or_ne j i with rfl | hne
    · rw [if_pos rfl, if_pos (by simp)]
      omega
    · rw [if_neg hne, if_neg (by simpa using hne.symm)]
      exact hbal
  · rw [hlinked]
    split
    · exact le_rfl
    · exact h.waiters.once j
  · rw [hlinked, if_neg]
    · exact h.waiters.notStarted j hj
    · rintro rfl
      exact hstart hj
  · rw [hlinked]
    split
    · rfl
    · exact h.waiters.parked j hj

/-- A call that finds the handle running may wait for the end of the run. -/
theorem Inv.awaitCompletion (h : Inv s) (hrun : s.runState = .running) {i : ℕ}
    (hi : s.caller i = .notStarted) (lock : Bool) : Inv (s.awaitCompletion i lock) := by
  have hyield : Inv (s.setCaller i .yielding) := h.setCaller i .yielding nofun nofun nofun nofun
  unfold State.awaitCompletion
  split
  · have hzero := h.waiters.notStarted i hi
    have hplace : (s.setCaller i .yielding).caller i = .yielding := Function.update_self _ _ _
    have hlink := hyield.link hrun hzero (i := i) (by rw [hplace]; exact nofun)
    have hpark := hlink.setCaller i .parked nofun nofun (fun _ => ?_) nofun
    · rwa [State.setCaller, State.link, State.setCaller, Function.update_idem] at hpark
    · change Function.update s.linked i (s.linked i + 1) i = 1
      rw [Function.update_self, hzero]
  · exact hyield

/-! ## Running -/

/-- The runner enters `run`. -/
theorem Inv.run (h : Inv s) (hstart : s.runner = .notStarted) : Inv s.run := by
  have hidle : s.runState ≠ .running := fun hrun => by
    have := h.word.running.mp hrun
    rw [hstart] at this
    cases this
  unfold State.run
  split
  · rename_i hpend
    refine ⟨⟨⟨fun hrun => absurd hrun hidle, nofun⟩, fun hp => absurd hp hpend, h.word.payload⟩,
      ⟨h.invoked.once, nofun, h.invoked.preempted⟩,
      ⟨h.clears.once, h.clears.cancelled, h.clears.running, h.clears.intact, nofun,
        h.clears.caller⟩,
      ⟨h.waiters.balance, h.waiters.once, h.waiters.running, h.waiters.notStarted,
        h.waiters.parked, h.waiters.reattaching, h.waiters.released⟩⟩
  · rename_i hpend
    have hpend : s.runState = .pending := not_not.mp hpend
    obtain ⟨-, hflag⟩ := h.word.pending hpend
    refine ⟨⟨⟨fun _ => rfl, fun _ => rfl⟩, nofun, ⟨fun _ => rfl, fun _ => rfl⟩⟩,
      ⟨h.invoked.once, fun _ => h.invoked.early (by rw [hstart]; rfl), fun hpre => ?_⟩,
      ⟨h.clears.once, h.clears.cancelled, fun _ => h.clears.cancelled hflag, h.clears.intact,
        nofun, h.clears.caller⟩,
      ⟨h.waiters.balance, h.waiters.once, fun _ => rfl, h.waiters.notStarted, h.waiters.parked,
        fun i hi => ?_, fun i hi => ?_⟩⟩
    · exact absurd (hpend.symm.trans (h.invoked.preempted hpre).2) nofun
    · exact absurd (hpend.symm.trans (h.waiters.reattaching i hi)) nofun
    · exact absurd (hpend.symm.trans (h.waiters.released i hi)) nofun

/-- The runner goes from one place between its two writes to another. -/
theorem Inv.setRunner (h : Inv s) (hrun : s.runState = .running) (place : RunnerAt)
    (hactive : place.isActive = true) (hlate : place.isEarly = false) :
    Inv (s.setRunner place) := by
  refine ⟨⟨⟨fun _ => hactive, fun _ => hrun⟩, fun hp => absurd (hrun.symm.trans hp) nofun,
      h.word.payload⟩,
    ⟨h.invoked.once, fun hearly => absurd (hlate.symm.trans hearly) nofun, h.invoked.preempted⟩,
    ⟨h.clears.once, h.clears.cancelled, h.clears.running, h.clears.intact, ?_, h.clears.caller⟩,
    ⟨h.waiters.balance, h.waiters.once, h.waiters.running, h.waiters.notStarted,
      h.waiters.parked, h.waiters.reattaching, h.waiters.released⟩⟩
  rintro k rfl
  cases hactive

theorem Inv.invoke (h : Inv s) (hplace : s.runner = .materializing) : Inv s.invoke := by
  have hrun : s.runState = .running := h.word.running.mpr (by rw [hplace]; rfl)
  have hzero := h.invoked.early (by rw [hplace]; rfl)
  obtain ⟨hword, -, hclears, hwaiters⟩ := h.setRunner hrun .inCallback rfl rfl
  refine ⟨⟨hword.running, hword.pending, hword.payload⟩, ⟨?_, nofun, fun hpre => ?_⟩,
    ⟨hclears.once, hclears.cancelled, hclears.running, hclears.intact, hclears.runner,
      hclears.caller⟩,
    ⟨hwaiters.balance, hwaiters.once, hwaiters.running, hwaiters.notStarted, hwaiters.parked,
      hwaiters.reattaching, hwaiters.released⟩⟩
  · change s.invocations + 1 ≤ 1
    rw [hzero]
  · exact absurd (hrun.symm.trans (h.invoked.preempted hpre).2) nofun

/-- The end of the run releases every waiter. -/
theorem Inv.waiters_publishDone (h : Inv s) : WaitersOk s.publishDone := by
  refine ⟨fun i => ?_, h.waiters.once, fun hne => absurd rfl hne, h.waiters.notStarted,
    h.waiters.parked, fun _ _ => rfl, fun _ _ => rfl⟩
  exact h.waiters.balance i

/-- The end of the run also clears what a `cancel()` during the run left. -/
theorem Inv.finishRun (h : Inv s) (hrun : s.runState = .running) : Inv s.finishRun := by
  have hzero := h.clears.running hrun
  have hpre : s.preempted ≠ true := fun hpre =>
    absurd (hrun.symm.trans (h.invoked.preempted hpre).2) nofun
  obtain ⟨hbal, honce, hrunning, hstart, hpark, hback, hrel⟩ := h.waiters_publishDone
  unfold State.finishRun
  split
  · rename_i hflag
    refine ⟨⟨⟨nofun, nofun⟩, nofun, ⟨nofun, nofun⟩⟩,
      ⟨h.invoked.once, nofun, fun hp => absurd hp hpre⟩,
      ⟨?_, fun hf => absurd (hflag.symm.trans hf) nofun, nofun, nofun,
        fun _ _ => Nat.succ_ne_zero _, fun _ _ _ => Nat.succ_ne_zero _⟩,
      ⟨hbal, honce, hrunning, hstart, hpark, hback, hrel⟩⟩
    change s.clears + 1 ≤ 1
    rw [hzero]
  · exact ⟨⟨⟨nofun, nofun⟩, nofun, ⟨nofun, nofun⟩⟩,
      ⟨h.invoked.once, nofun, fun hp => absurd hp hpre⟩,
      ⟨h.clears.once, h.clears.cancelled, nofun, h.clears.intact, nofun, h.clears.caller⟩,
      ⟨hbal, honce, hrunning, hstart, hpark, hback, hrel⟩⟩

theorem Inv.callbackFailed (h : Inv s) (hrun : s.runState = .running) (o : Outcome) :
    Inv (s.callbackFailed o) := by
  cases o with
  | exit => exact h.finishRun hrun
  | returned => exact h.setRunner hrun .reporting rfl rfl
  | raised => exact h.setRunner hrun .reporting rfl rfl

/-- The runner goes on clearing. -/
theorem Inv.runnerClearNext (h : Inv s) {k : ℕ} (hplace : s.runner = .clearing k) :
    Inv ((s.clearArg k).setRunner
      (if k < s.args.length then .clearing (k + 1) else .finished)) := by
  have hne := h.clears.runner k hplace
  have hdone := h.done_of_clears hne
  obtain ⟨hword, hinvoked, hclears, hwaiters⟩ := h.clearArg hne k
  have hidle : (if k < s.args.length then RunnerAt.clearing (k + 1) else .finished).isActive =
      false := by split <;> rfl
  have hlate : (if k < s.args.length then RunnerAt.clearing (k + 1) else .finished).isEarly =
      false := by split <;> rfl
  have hstate : (s.clearArg k).runState = .done := (runState_clearArg s k).trans hdone
  refine ⟨⟨⟨fun hrun => absurd (hstate.symm.trans hrun) nofun,
      fun hactive => absurd (hidle.symm.trans hactive) nofun⟩,
      fun hpend => absurd (hstate.symm.trans hpend) nofun, hword.payload⟩,
    ⟨hinvoked.once, fun hearly => absurd (hlate.symm.trans hearly) nofun, hinvoked.preempted⟩,
    ⟨hclears.once, hclears.cancelled, hclears.running, hclears.intact, fun _ _ => ?_,
      hclears.caller⟩,
    ⟨hwaiters.balance, hwaiters.once, hwaiters.running, hwaiters.notStarted, hwaiters.parked,
      hwaiters.reattaching, hwaiters.released⟩⟩
  exact (clears_clearArg s k).symm ▸ hne

theorem Inv.runNext (h : Inv s) {o : Outcome} {s' : State} (hstep : s.runNext o = some s') :
    Inv s' := by
  have hactive : ∀ {place : RunnerAt}, s.runner = place → place.isActive = true →
      s.runState = .running := fun hplace hact => h.word.running.mpr (hplace ▸ hact)
  unfold State.runNext at hstep
  cases hplace : s.runner with
  | notStarted => simp [hplace] at hstep
  | finished => simp [hplace] at hstep
  | materializing =>
    simp only [hplace, Option.some.injEq] at hstep
    subst hstep
    split
    · exact h.invoke hplace
    · exact h.callbackFailed (hactive hplace rfl) o
  | inCallback =>
    simp only [hplace, Option.some.injEq] at hstep
    subst hstep
    split
    · exact h.finishRun (hactive hplace rfl)
    · exact h.callbackFailed (hactive hplace rfl) o
  | reporting =>
    simp only [hplace, Option.some.injEq] at hstep
    exact hstep ▸ h.finishRun (hactive hplace rfl)
  | clearing k =>
    simp only [hplace, Option.some.injEq] at hstep
    exact hstep ▸ h.runnerClearNext hplace

/-! ## Every segment -/

/-- The first segment of a call. -/
theorem Inv.startCall (h : Inv s) (c : Call) {i : ℕ} (hi : s.caller i = .notStarted)
    (lock : Bool) : Inv (s.startCall c i lock) := by
  unfold State.startCall
  cases c.kind with
  | cancel =>
    cases hrun : s.runState with
    | pending => exact (h.preempt hrun).markCancelled nofun i
    | running =>
      dsimp only
      split
      · exact h.awaitCompletion hrun hi lock
      · exact h.markCancelled (by rw [hrun]; exact nofun) i
    | done => exact h.markCancelled (by rw [hrun]; exact nofun) i
  | cancelled =>
    dsimp only
    split
    · rename_i hwait
      exact h.awaitCompletion (of_decide_eq_true (Bool.and_eq_true_iff.mp hwait).1) hi lock
    · exact h.setReturned i

/-- What is left of a call that has waited. -/
theorem Inv.finishCall (h : Inv s) (c : Call) {i : ℕ} (hi : s.caller i = .reattaching) :
    Inv (s.finishCall c i) := by
  have hdone := h.waiters.reattaching i hi
  unfold State.finishCall
  cases c.kind with
  | cancel => exact h.markCancelled (by rw [hdone]; exact nofun) i
  | cancelled => exact h.setReturned i

theorem Inv.next {calls : ℕ → Call} {a : Action} {s' : State} (h : Inv s)
    (hstep : step calls s a = some s') : Inv s' := by
  cases a with
  | run =>
    obtain ⟨hplace, ⟨⟩⟩ := Option.ite_none_right_eq_some.mp hstep
    exact h.run hplace
  | runNext o => exact h.runNext hstep
  | call i lock =>
    obtain ⟨hi, ⟨⟩⟩ := Option.ite_none_right_eq_some.mp hstep
    exact h.startCall (calls i) hi lock
  | acquire i =>
    obtain ⟨⟨-, hfree⟩, ⟨⟩⟩ := Option.ite_none_right_eq_some.mp hstep
    exact h.setCaller i .reattaching nofun nofun nofun
      fun _ => h.waiters.released i (Nat.pos_iff_ne_zero.mp hfree)
  | observe i =>
    obtain ⟨⟨-, hdone⟩, ⟨⟩⟩ := Option.ite_none_right_eq_some.mp hstep
    exact h.setCaller i .reattaching nofun nofun nofun fun _ => hdone
  | restore i =>
    obtain ⟨hi, ⟨⟩⟩ := Option.ite_none_right_eq_some.mp hstep
    exact h.finishCall (calls i) hi
  | clearNext i =>
    cases hi : s.caller i with
    | clearing k =>
      simp only [step, hi, Option.some.injEq] at hstep
      exact hstep ▸ h.clearNext hi
    | _ => simp [step, hi] at hstep

end Callers

/-! ## Returning -/

section Returning

variable {s : State}

theorem runState_markCancelled (s : State) (i : ℕ) : (s.markCancelled i).runState = s.runState := by
  unfold State.markCancelled
  dsimp only
  split_ifs <;> rfl

theorem caller_markCancelled_of_ne (s : State) {i j : ℕ} (hne : j ≠ i) :
    (s.markCancelled i).caller j = s.caller j := by
  unfold State.markCancelled
  dsimp only
  split_ifs <;> exact Function.update_of_ne hne _ _

theorem caller_awaitCompletion_of_ne (s : State) {i j : ℕ} (hne : j ≠ i) (lock : Bool) :
    (s.awaitCompletion i lock).caller j = s.caller j := by
  unfold State.awaitCompletion
  split <;> exact Function.update_of_ne hne _ _

/-- A call that waits has not returned. -/
theorem caller_awaitCompletion_ne (s : State) (i : ℕ) (lock : Bool) :
    (s.awaitCompletion i lock).caller i ≠ .returned := by
  unfold State.awaitCompletion
  split
  · rw [caller_setCaller, if_pos rfl]
    exact nofun
  · rw [caller_setCaller, if_pos rfl]
    exact nofun

theorem caller_startCall_of_ne (s : State) (c : Call) {i j : ℕ} (hne : j ≠ i) (lock : Bool) :
    (s.startCall c i lock).caller j = s.caller j := by
  unfold State.startCall
  cases c.kind with
  | cancel =>
    cases s.runState with
    | pending => exact caller_markCancelled_of_ne _ hne
    | running =>
      dsimp only
      split
      · exact caller_awaitCompletion_of_ne s hne lock
      · exact caller_markCancelled_of_ne s hne
    | done => exact caller_markCancelled_of_ne s hne
  | cancelled =>
    dsimp only
    split
    · exact caller_awaitCompletion_of_ne s hne lock
    · exact Function.update_of_ne hne _ _

theorem caller_finishCall_of_ne (s : State) (c : Call) {i j : ℕ} (hne : j ≠ i) :
    (s.finishCall c i).caller j = s.caller j := by
  unfold State.finishCall
  cases c.kind with
  | cancel => exact caller_markCancelled_of_ne s hne
  | cancelled => exact Function.update_of_ne hne _ _

theorem caller_clearArg (s : State) (k : ℕ) : (s.clearArg k).caller = s.caller := by
  unfold State.clearArg
  split <;> rfl

theorem caller_finishRun (s : State) : s.finishRun.caller = s.caller := by
  unfold State.finishRun
  split <;> rfl

theorem caller_callbackFailed (s : State) (o : Outcome) :
    (s.callbackFailed o).caller = s.caller := by
  cases o with
  | exit => exact caller_finishRun s
  | returned => rfl
  | raised => rfl

/-- The runner moves no call. -/
theorem caller_runNext {o : Outcome} {s' : State} (hstep : s.runNext o = some s') :
    s'.caller = s.caller := by
  unfold State.runNext at hstep
  split at hstep
  · cases hstep
  · cases hstep
  · cases hstep
    split
    · rfl
    · exact caller_callbackFailed s o
  · cases hstep
    split
    · exact caller_finishRun s
    · exact caller_callbackFailed s o
  · cases hstep
    exact caller_finishRun s
  · cases hstep
    exact caller_clearArg s _

/-- A call from another thread that returns at once has not found the handle running. -/
theorem startCall_returned {c : Call} {i : ℕ} {lock : Bool} (hforeign : c.onLoop = false)
    (hafter : (s.startCall c i lock).caller i = .returned) :
    s.runState ≠ .running ∧ (s.startCall c i lock).runState ≠ .running := by
  have hother : s.isRunningPayload c = false := by rw [State.isRunningPayload, hforeign]; rfl
  unfold State.startCall at hafter ⊢
  cases hkind : c.kind with
  | cancel =>
    rw [hkind] at hafter
    cases hrun : s.runState with
    | pending =>
      refine ⟨nofun, ?_⟩
      change (State.markCancelled _ i).runState ≠ _
      rw [runState_markCancelled]
      exact nofun
    | running =>
      simp only [hrun, hother, Bool.not_false, ↓reduceIte] at hafter
      exact absurd hafter (caller_awaitCompletion_ne s i lock)
    | done =>
      refine ⟨nofun, ?_⟩
      change (State.markCancelled _ i).runState ≠ _
      rw [runState_markCancelled, hrun]
      exact nofun
  | cancelled =>
    rw [hkind] at hafter
    dsimp only at hafter ⊢
    split at hafter
    · exact absurd hafter (caller_awaitCompletion_ne s i lock)
    · rename_i hgo
      have hidle : s.runState ≠ .running := fun hrun =>
        hgo (by rw [State.mustWait, hother, hrun]; rfl)
      rw [if_neg hgo]
      exact ⟨hidle, hidle⟩

/-- A segment in which a call from another thread returns does not find the handle running, and does
not leave it running. -/
theorem Inv.not_running_of_return {calls : ℕ → Call} {a : Action} {s' : State} (h : Inv s)
    (hstep : step calls s a = some s') {i : ℕ} (hforeign : (calls i).onLoop = false)
    (hbefore : s.caller i ≠ .returned) (hafter : s'.caller i = .returned) :
    s.runState ≠ .running ∧ s'.runState ≠ .running := by
  -- the call that returns is the one whose segment this is
  have hmoved : s'.caller i ≠ s.caller i := fun heq => hbefore (heq ▸ hafter)
  have hidle : ∀ {s₁ : State}, s.runState = .done → s₁.runState = s.runState →
      s.runState ≠ .running ∧ s₁.runState ≠ .running := fun hdone heq =>
    ⟨by rw [hdone]; exact nofun, by rw [heq, hdone]; exact nofun⟩
  cases a with
  | run =>
    obtain ⟨-, ⟨⟩⟩ := Option.ite_none_right_eq_some.mp hstep
    refine absurd ?_ hmoved
    unfold State.run
    split <;> rfl
  | runNext o => exact absurd (congrFun (caller_runNext hstep) i) hmoved
  | call j lock =>
    obtain ⟨-, ⟨⟩⟩ := Option.ite_none_right_eq_some.mp hstep
    rcases eq_or_ne i j with rfl | hne
    · exact startCall_returned hforeign hafter
    · exact absurd (caller_startCall_of_ne s _ hne lock) hmoved
  | acquire j =>
    obtain ⟨-, ⟨⟩⟩ := Option.ite_none_right_eq_some.mp hstep
    rw [caller_setCaller] at hafter
    split at hafter
    · cases hafter
    · exact absurd hafter hbefore
  | observe j =>
    obtain ⟨-, ⟨⟩⟩ := Option.ite_none_right_eq_some.mp hstep
    rw [caller_setCaller] at hafter
    split at hafter
    · cases hafter
    · exact absurd hafter hbefore
  | restore j =>
    obtain ⟨hj, ⟨⟩⟩ := Option.ite_none_right_eq_some.mp hstep
    rcases eq_or_ne i j with rfl | hne
    · refine hidle (h.waiters.reattaching i hj) ?_
      unfold State.finishCall
      cases (calls i).kind with
      | cancel => exact runState_markCancelled s i
      | cancelled => rfl
    · exact absurd (caller_finishCall_of_ne s _ hne) hmoved
  | clearNext j =>
    cases hj : s.caller j with
    | clearing k =>
      simp only [step, hj, Option.some.injEq] at hstep
      subst hstep
      rcases eq_or_ne i j with rfl | hne
      · exact hidle (h.done_of_clears (h.clears.caller i k hj)) (runState_clearArg s k)
      · refine absurd ?_ hmoved
        rw [State.clearNext, caller_setCaller, if_neg hne, caller_clearArg]
    | _ => simp [step, hj] at hstep

end Returning

/-! ## Every interleaving -/

theorem Reachable.inv {calls : ℕ → Call} {nargs : ℕ} {s : State}
    (h : Reachable calls nargs s) : Inv s := by
  induction h with
  | init => exact .init nargs
  | step a _ hstep ih => exact ih.next hstep

/-- What holds in every interleaving of one run with any number of calls: the callback is invoked at
most once, and not if a `cancel()` came first; no call from another thread returns while it runs;
every waiter is linked and released at most once, has been released once the run is over, and can go
on then; the callback and the arguments are cleared at most once, and not during the run. -/
theorem handle_protocol (calls : ℕ → Call) (nargs : ℕ) {s : State}
    (h : Reachable calls nargs s) :
    s.invocations ≤ 1 ∧ (s.preempted = true → s.invocations = 0) ∧
      (s.runner = .inCallback → s.runState = .running) ∧
      (∀ a s', step calls s a = some s' → ∀ i, (calls i).onLoop = false →
        s.caller i ≠ .returned → s'.caller i = .returned →
          s.runState ≠ .running ∧ s'.runState ≠ .running) ∧
      s.waiters.Nodup ∧ (∀ i, s.linked i ≤ 1 ∧ s.linked i = s.released i + s.waiters.count i) ∧
      (s.runState = .done → s.waiters = [] ∧ ∀ i, s.released i = s.linked i) ∧
      (∀ i, s.caller i = .parked →
        i ∈ s.waiters ∧ s.runState = .running ∨ (step calls s (.acquire i)).isSome) ∧
      s.clears ≤ 1 ∧
      (s.runState = .running → s.clears = 0 ∧ s.callback = true ∧ ∀ b ∈ s.args, b = true) := by
  have hs := h.inv
  have hcount : ∀ i, s.waiters.count i ≤ 1 := fun i => by
    have hbal := hs.waiters.balance i
    have honce := hs.waiters.once i
    omega
  have hidle : s.runState = .done → s.waiters = [] := fun hdone => by
    by_contra hne
    exact absurd (hdone.symm.trans (hs.waiters.running hne)) nofun
  refine ⟨hs.invoked.once, fun hpre => (hs.invoked.preempted hpre).1, fun hplace => ?_,
    fun a s' hstep i => hs.not_running_of_return hstep, List.nodup_iff_count_le_one.mpr hcount,
    fun i => ⟨hs.waiters.once i, hs.waiters.balance i⟩, fun hdone => ⟨hidle hdone, fun i => ?_⟩,
    fun i hi => ?_, hs.clears.once, fun hrun => ?_⟩
  · exact hs.word.running.mpr (by rw [hplace]; rfl)
  · rw [hs.waiters.balance i, hidle hdone]
    rfl
  · -- a parked call is still in the list, or its lock has been released
    by_cases hmem : i ∈ s.waiters
    · exact Or.inl ⟨hmem, hs.waiters.running (List.ne_nil_of_mem hmem)⟩
    · have hbal := hs.waiters.balance i
      rw [hs.waiters.parked i hi, List.count_eq_zero.mpr hmem] at hbal
      refine Or.inr ?_
      rw [step, if_pos ⟨hi, by omega⟩]
      rfl
  · have hzero := hs.clears.running hrun
    exact ⟨hzero, hs.clears.intact hzero⟩

/-- A call from another thread waits for the callback while the callback cancels its own handle; the
end of the run releases the waiter and clears the callback. -/
theorem handle_protocol_waiter :
    ∃ s, Reachable (fun i => ⟨.cancel, decide (i = 1)⟩) 1 s ∧ s.released 0 = 1 ∧
      s.invocations = 1 ∧ s.clears = 1 ∧ s.waiters = [] := by
  have hplay : ∃ s, play (fun i => ⟨.cancel, decide (i = 1)⟩)
      [.run, .runNext .returned, .call 0 true, .call 1 true, .runNext .returned, .acquire 0]
      (.init 1) = some s ∧ s.released 0 = 1 ∧ s.invocations = 1 ∧ s.clears = 1 ∧
      s.runState = .done := ⟨_, rfl, rfl, rfl, rfl, rfl⟩
  obtain ⟨s, hrun, hreleased, hinvoked, hclears, hdone⟩ := hplay
  have hreach : Reachable (fun i => ⟨.cancel, decide (i = 1)⟩) 1 s := Reachable.init.play hrun
  obtain ⟨-, -, -, -, -, -, hidle, -⟩ := handle_protocol _ _ hreach
  exact ⟨s, hreach, hreleased, hinvoked, hclears, (hidle hdone).1⟩

end Zuvloop.ThreadSafeHandle
