import Mathlib.Data.List.Nodup
import Mathlib.Logic.Function.Basic
import Zuvloop.Loop.State
import Zuvloop.ThreadSafeHandle.Model
import Zuvloop.Transition

/-!
# Handles that run inside each other

A callback may call `_run()` of another thread-safe handle, whose callback may do the same. Each
`run` saves the thread-local `running_payload`, names its own handle there and puts the old value
back, and `cancel()` and `cancelled()` look there to tell whether they are called by the callback
itself. Here are any number of threads and handles, each thread with its stack of runs. Only what
decides about waiting is kept; `ThreadSafeHandle.State` has the rest of a single handle.

## Main definitions

* `Nesting.State`: the state words, and for each thread its `running_payload`, its runs and what
  it waits for.
* `Nesting.machine`: the threads, in any order.

## Main results

* `returns_iff_innermost`: a call on a handle that runs on the calling thread returns without
  waiting exactly if the handle is the innermost one.
* `waits_for_itself`: otherwise the thread waits for itself, forever.
-/

namespace Zuvloop.ThreadSafeHandle.Nesting

open Transition
open Loop (RunState)

variable {T H : Type*} [DecidableEq T] [DecidableEq H]

/-! ## State -/

/-- A `run` that has moved the state word and not yet come to its `defer` block. -/
structure Run (H : Type*) where
  /-- The handle. -/
  handle : H
  /-- `previous_running` -/
  previous : Option H
deriving DecidableEq

/-- Threads and handles. -/
structure State (T H : Type*) where
  /-- The state word of each handle. -/
  runState : H → RunState
  /-- The cancelled flag of each handle. -/
  cancelled : H → Bool
  /-- `running_payload`, of each thread. -/
  runningPayload : T → Option H
  /-- The runs on each thread, innermost first. -/
  runs : T → List (Run H)
  /-- The call that each thread waits in, and on which handle. -/
  waiting : T → Option (CallKind × H)

/-- The handles whose callbacks are running on a thread, innermost first. -/
def State.handles (s : State T H) (t : T) : List H := (s.runs t).map Run.handle

/-! ## Methods -/

/-- `run`, up to the callback: nothing if the handle has run or has been cancelled. -/
def State.run (s : State T H) (t : T) (h : H) : State T H :=
  if s.runState h ≠ .pending then s
  else
    { s with
      runState := Function.update s.runState h .running
      runningPayload := Function.update s.runningPayload t (some h)
      runs := Function.update s.runs t (⟨h, s.runningPayload t⟩ :: s.runs t) }

/-- The `defer` block of `run`. What it releases is Python code that runs after it, outside this
run. -/
def State.finish (s : State T H) (t : T) (r : Run H) (rs : List (Run H)) : State T H :=
  { s with
    runState := Function.update s.runState r.handle .done
    runningPayload := Function.update s.runningPayload t r.previous
    runs := Function.update s.runs t rs }

/-- `awaitCompletion`, up to the wait. -/
def State.awaitCompletion (s : State T H) (t : T) (k : CallKind) (h : H) : State T H :=
  { s with waiting := Function.update s.waiting t (some (k, h)) }

/-- `mustWait`, on a thread. -/
def State.mustWait (s : State T H) (t : T) (h : H) : Bool :=
  s.runState h = .running && s.runningPayload t ≠ some h

/-- The flag that `cancel()` sets once it does not have to wait. -/
def State.markCancelled (s : State T H) (h : H) : State T H :=
  { s with cancelled := Function.update s.cancelled h true }

/-- `cancel()` and `cancelled()`, until they return or wait. -/
def State.call (s : State T H) (t : T) (h : H) : CallKind → State T H
  | .cancel =>
    if s.runState h = .pending then
      State.markCancelled { s with runState := Function.update s.runState h .done } h
    else if s.runState h ≠ .done ∧ s.runningPayload t ≠ some h then s.awaitCompletion t .cancel h
    else s.markCancelled h
  | .cancelled => if s.mustWait t h then s.awaitCompletion t .cancelled h else s

/-- The rest of a call, after its wait. -/
def State.resume (s : State T H) (t : T) (k : CallKind) (h : H) : State T H :=
  let s := { s with waiting := Function.update s.waiting t none }
  match k with
  | .cancel => s.markCancelled h
  | .cancelled => s

/-! ## The machine -/

/-- What a thread can do next. -/
inductive Label (T H : Type*)
  /-- The loop, or a callback through `_run()`, runs a handle. -/
  | run (t : T) (h : H)
  /-- The innermost callback on a thread is over. -/
  | finish (t : T)
  /-- `cancel()` or `cancelled()` is called. -/
  | call (t : T) (k : CallKind) (h : H)
  /-- A wait is over: the state word says `DONE`, and the lock has been released. -/
  | resume (t : T)

/-- One step. A thread that waits does nothing else. -/
def step (s : State T H) : Label T H → Option (State T H)
  | .run t h => if s.waiting t = none then some (s.run t h) else none
  | .finish t =>
    if s.waiting t = none then
      match s.runs t with
      | [] => none
      | r :: rs => some (s.finish t r rs)
    else none
  | .call t k h => if s.waiting t = none then some (s.call t h k) else none
  | .resume t =>
    match s.waiting t with
    | some (k, h) => if s.runState h = .done then some (s.resume t k h) else none
    | none => none

/-- Handles that nobody has run, and everything that the threads can do. -/
def machine : Machine (State T H) (Label T H) where
  init := ⟨fun _ => .pending, fun _ => false, fun _ => none, fun _ => [], fun _ => none⟩
  step := step

/-! ## The runs on a thread -/

/-- Each run has saved the handle of the run around it. -/
def Saved : List (Run H) → Prop
  | [] => True
  | r :: rs => r.previous = rs.head?.map Run.handle ∧ Saved rs

/-- What holds of the runs of all threads. -/
structure Inv (s : State T H) : Prop where
  /-- `running_payload` names the innermost handle. -/
  innermost : ∀ t, s.runningPayload t = (s.handles t).head?
  saved : ∀ t, Saved (s.runs t)
  /-- The state word of a handle says so while its callback runs. -/
  running : ∀ t, ∀ h ∈ s.handles t, s.runState h = .running
  /-- A handle runs once on a thread, -/
  nodup : ∀ t, (s.handles t).Nodup
  /-- and on one thread only. -/
  alone : ∀ t u, ∀ h ∈ s.handles t, h ∈ s.handles u → t = u

variable {s s' : State T H} {t u : T} {h : H} {k : CallKind} {l : Label T H}

omit [DecidableEq T] [DecidableEq H] in
/-- A handle that has not been run is on no thread. -/
theorem Inv.not_mem (hi : Inv s) (hp : s.runState h ≠ .running) (t : T) : h ∉ s.handles t :=
  fun hh => hp (hi.running t h hh)

/-- A new run is the innermost one of its thread. -/
theorem Inv.run (hi : Inv s) (t : T) (h : H) : Inv (s.run t h) := by
  rw [State.run]
  split
  · exact hi
  rename_i hp
  have hnew := hi.not_mem (h := h) (by simp [not_not.mp hp])
  have hhandles : ∀ u, State.handles { s with
      runState := Function.update s.runState h .running
      runningPayload := Function.update s.runningPayload t (some h)
      runs := Function.update s.runs t (⟨h, s.runningPayload t⟩ :: s.runs t) } u =
      if u = t then h :: s.handles t else s.handles u := by
    intro u
    by_cases hu : u = t
    · subst hu
      simp [State.handles]
    · simp [State.handles, hu]
  refine ⟨fun u => ?_, fun u => ?_, fun u x hx => ?_, fun u => ?_, fun u v x hx hy => ?_⟩
  · rw [hhandles]
    by_cases hu : u = t <;> simp [hu, hi.innermost]
  · by_cases hu : u = t
    · subst hu
      simp [Saved, hi.innermost u, hi.saved u, State.handles]
    · simp [hu, hi.saved u]
  · rw [hhandles] at hx
    by_cases hxh : x = h
    · simp [hxh]
    · have hx' : ∃ v, x ∈ s.handles v := by
        split at hx
        · exact ⟨t, (List.mem_cons.mp hx).resolve_left hxh⟩
        · exact ⟨u, hx⟩
      obtain ⟨v, hv⟩ := hx'
      simp [hxh, hi.running v x hv]
  · rw [hhandles]
    split
    · exact List.nodup_cons.mpr ⟨hnew t, hi.nodup t⟩
    · exact hi.nodup u
  · rw [hhandles] at hx hy
    split at hx <;> split at hy
    · simp_all
    · rcases List.mem_cons.mp hx with rfl | hx
      · exact absurd hy (hnew v)
      · subst u
        exact hi.alone t v x hx hy
    · rcases List.mem_cons.mp hy with rfl | hy
      · exact absurd hx (hnew u)
      · subst v
        exact hi.alone u t x hx hy
    · exact hi.alone u v x hx hy

/-- The end of a run uncovers the run around it. -/
theorem Inv.finish (hi : Inv s) {r : Run H} {rs : List (Run H)} (hr : s.runs t = r :: rs) :
    Inv (s.finish t r rs) := by
  have hhandles : ∀ u, (s.finish t r rs).handles u =
      if u = t then rs.map Run.handle else s.handles u := by
    intro u
    by_cases hu : u = t
    · subst hu
      simp [State.handles, State.finish]
    · simp [State.handles, State.finish, hu]
  have ht : s.handles t = r.handle :: rs.map Run.handle := by simp [State.handles, hr]
  have hsaved : r.previous = rs.head?.map Run.handle ∧ Saved rs := by
    simpa [hr, Saved] using hi.saved t
  have hnodup := List.nodup_cons.mp (ht ▸ hi.nodup t)
  have hsub : ∀ u x, x ∈ (s.finish t r rs).handles u → x ∈ s.handles u := by
    intro u x hx
    rw [hhandles] at hx
    split at hx
    · subst u
      simp [ht, hx]
    · exact hx
  refine ⟨fun u => ?_, fun u => ?_, fun u x hx => ?_, fun u => ?_, fun u v x hx hy => ?_⟩
  · rw [hhandles]
    by_cases hu : u = t <;> simp [State.finish, hu, hsaved.1, hi.innermost]
  · by_cases hu : u = t
    · subst hu
      simp [State.finish, hsaved.2]
    · simp [State.finish, hu, hi.saved u]
  · -- the handle that is done is on no thread any more
    have hne : x ≠ r.handle := by
      rintro rfl
      have hxt : r.handle ∈ s.handles t := by simp [ht]
      obtain rfl := hi.alone u t _ (hsub u _ hx) hxt
      rw [hhandles, if_pos rfl] at hx
      exact hnodup.1 hx
    simp [State.finish, hne, hi.running u x (hsub u x hx)]
  · rw [hhandles]
    split
    · exact hnodup.2
    · exact hi.nodup u
  · exact hi.alone u v x (hsub u x hx) (hsub v x hy)

/-- A call runs nothing. It may keep a handle that has not been run from ever being run. -/
theorem Inv.call (hi : Inv s) : Inv (s.call t h k) := by
  cases k with
  | cancel =>
    simp only [State.call]
    split
    · rename_i hp
      refine ⟨hi.innermost, hi.saved, fun u x hx => ?_, hi.nodup, hi.alone⟩
      have hne : x ≠ h := by
        rintro rfl
        exact hi.not_mem (by simp [hp]) u hx
      simpa [State.markCancelled, hne] using hi.running u x hx
    · split <;> exact ⟨hi.innermost, hi.saved, hi.running, hi.nodup, hi.alone⟩
  | cancelled =>
    simp only [State.call]
    split
    · exact ⟨hi.innermost, hi.saved, hi.running, hi.nodup, hi.alone⟩
    · exact hi

theorem Inv.resume (hi : Inv s) : Inv (s.resume t k h) := by
  cases k <;> exact ⟨hi.innermost, hi.saved, hi.running, hi.nodup, hi.alone⟩

/-- The end of a run, taken apart. -/
theorem step_finish (hstep : machine.step s (.finish t) = some s') :
    s.waiting t = none ∧ ∃ r rs, s.runs t = r :: rs ∧ s' = s.finish t r rs := by
  obtain ⟨hw, hm⟩ := Option.ite_none_right_eq_some.mp hstep
  cases hr : s.runs t with
  | nil => simp [hr] at hm
  | cons r rs => exact ⟨hw, r, rs, rfl, by simpa [hr] using hm.symm⟩

/-- The end of a wait, taken apart. -/
theorem step_resume (hstep : machine.step s (.resume t) = some s') :
    ∃ k h, s.waiting t = some (k, h) ∧ s.runState h = .done ∧ s' = s.resume t k h := by
  simp only [machine, step] at hstep
  split at hstep
  · rename_i k h hw
    obtain ⟨hd, ⟨⟩⟩ := Option.ite_none_right_eq_some.mp hstep
    exact ⟨k, h, hw, hd, rfl⟩
  · cases hstep

/-- Every step keeps the invariant. -/
theorem Inv.step (hi : Inv s) (hstep : machine.step s l = some s') : Inv s' := by
  cases l with
  | run t h =>
    obtain ⟨-, ⟨⟩⟩ := Option.ite_none_right_eq_some.mp hstep
    exact hi.run t h
  | finish t =>
    obtain ⟨-, r, rs, hr, rfl⟩ := step_finish hstep
    exact hi.finish hr
  | call t k h =>
    obtain ⟨-, ⟨⟩⟩ := Option.ite_none_right_eq_some.mp hstep
    exact hi.call
  | resume t =>
    obtain ⟨k, h, -, -, rfl⟩ := step_resume hstep
    exact hi.resume

/-- The invariant holds whatever the threads do. -/
theorem inv_of_reachable {ok : State T H → Label T H → Prop} (hs : machine.Reachable ok s) :
    Inv s := by
  refine hs.invariant (I := Inv) ?_ fun _ _ _ _ hi _ hstep => hi.step hstep
  constructor <;> simp [machine, State.handles, Saved]

/-! ## Waiting for oneself -/

/-- A call on a handle whose callback is running waits unless `running_payload` names it. -/
theorem waiting_call (hr : s.runState h = .running) (hw : s.waiting t = none) :
    (s.call t h k).waiting t = none ↔ s.runningPayload t = some h := by
  cases k with
  | cancel =>
    by_cases hp : s.runningPayload t = some h <;>
      simp [State.call, hr, hp, hw, State.awaitCompletion, State.markCancelled]
  | cancelled =>
    by_cases hp : s.runningPayload t = some h <;>
      simp [State.call, State.mustWait, hr, hp, hw, State.awaitCompletion]

/-- On a thread where the callback of a handle is running, at whatever depth, `cancel()` and
`cancelled()` on that handle return without waiting exactly if no other handle runs inside it. -/
theorem returns_iff_innermost {ok : State T H → Label T H → Prop} (hs : machine.Reachable ok s)
    (hw : s.waiting t = none) (hh : h ∈ s.handles t) (k : CallKind) :
    (∃ s', machine.step s (.call t k h) = some s' ∧ s'.waiting t = none) ↔
      (s.handles t).head? = some h := by
  have hi := inv_of_reachable hs
  have hstep : machine.step s (.call t k h) = some (s.call t h k) := if_pos hw
  rw [← hi.innermost t, ← waiting_call (k := k) (hi.running t h hh) hw, hstep]
  simp

/-- A callback that runs another handle, whose callback is running now. -/
theorem exists_nested : ∃ s : State Unit ℕ, machine.Reachable (fun _ _ => True) s ∧
    s.waiting () = none ∧ s.handles () = [1, 0] := by
  obtain ⟨s, hs⟩ : ∃ s : State Unit ℕ, machine.play (fun _ _ => True)
      [.run () 0, .run () 1] machine.init = some s ∧ s.waiting () = none ∧
      s.handles () = [1, 0] := ⟨_, rfl, rfl, rfl⟩
  exact ⟨s, Machine.Reachable.init.play hs.1, hs.2⟩

theorem returns_iff_innermost_nested :
    ∃ s : State Unit ℕ, machine.Reachable (fun _ _ => True) s ∧
      ∃ s', machine.step s (.call () .cancel 1) = some s' ∧ s'.waiting () = none := by
  obtain ⟨s, hs, hw, hh⟩ := exists_nested
  exact ⟨s, hs, (returns_iff_innermost hs hw (by simp [hh]) .cancel).mpr (by simp [hh])⟩

/-- The inner callback cancels the outer handle, and waits. -/
theorem not_returns :
    ¬ ∀ s : State Unit ℕ, machine.Reachable (fun _ _ => True) s → ∀ t k, ∀ h ∈ s.handles t,
      s.waiting t = none → ∃ s', machine.step s (.call t k h) = some s' ∧ s'.waiting t = none := by
  intro h
  obtain ⟨s, hs, hw, hh⟩ := exists_nested
  obtain ⟨s', hstep, hw'⟩ := h s hs () .cancel 0 (by simp [hh]) hw
  have hi := inv_of_reachable hs
  obtain ⟨⟩ := (Option.ite_none_right_eq_some.mp hstep).2
  -- `running_payload` names the inner handle
  have hp := (waiting_call (hi.running () 0 (by simp [hh])) hw).mp hw'
  simp [hi.innermost, hh] at hp

/-- A thread waits for a handle whose callback is running on that thread. -/
structure Stuck (t : T) (k : CallKind) (h : H) (s : State T H) : Prop where
  inv : Inv s
  waiting : s.waiting t = some (k, h)
  mem : h ∈ s.handles t

/-- No step of any thread ends such a wait. -/
theorem Stuck.step (hs : Stuck t k h s) (hstep : machine.step s l = some s') :
    Stuck t k h s' := by
  have hi := hs.inv.step hstep
  have hne : ∀ u, s.waiting u = none → t ≠ u := by
    rintro u hu rfl
    simp [hs.waiting] at hu
  cases l with
  | run u x =>
    obtain ⟨hu, ⟨⟩⟩ := Option.ite_none_right_eq_some.mp hstep
    have hmem := hs.mem
    refine ⟨hi, ?_, ?_⟩ <;> rw [State.run] <;> split
    · exact hs.waiting
    · exact hs.waiting
    · exact hmem
    · simpa [State.handles, hne u hu] using hmem
  | finish u =>
    obtain ⟨hu, r, rs, -, rfl⟩ := step_finish hstep
    refine ⟨hi, hs.waiting, ?_⟩
    simpa [State.handles, State.finish, hne u hu] using hs.mem
  | call u k' x =>
    obtain ⟨hu, ⟨⟩⟩ := Option.ite_none_right_eq_some.mp hstep
    have hw : (s.call u x k').waiting t = s.waiting t := by
      cases k' with
      | cancel =>
        simp only [State.call]
        split
        · rfl
        split <;> simp [State.awaitCompletion, State.markCancelled, hne u hu]
      | cancelled =>
        simp only [State.call]
        split <;> simp [State.awaitCompletion, hne u hu]
    have hruns : (s.call u x k').runs = s.runs := by
      cases k' with
      | cancel =>
        simp only [State.call]
        split
        · rfl
        split <;> rfl
      | cancelled =>
        simp only [State.call]
        split <;> rfl
    exact ⟨hi, hw.trans hs.waiting, by simpa [State.handles, hruns] using hs.mem⟩
  | resume u =>
    obtain ⟨k', x, hwu, hdone, rfl⟩ := step_resume hstep
    -- the handle that the thread waits for is running
    have hut : t ≠ u := by
      rintro rfl
      obtain ⟨⟩ := hs.waiting.symm.trans hwu
      simp [hs.inv.running t h hs.mem] at hdone
    cases k' <;> exact ⟨hi, by simp [State.resume, State.markCancelled, hut, hs.waiting], hs.mem⟩

/-- A call that does not return at once, on a handle whose callback is running on the same thread,
never returns. -/
theorem waits_for_itself {ok : State T H → Label T H → Prop} (hs : machine.Reachable ok s)
    (hh : h ∈ s.handles t) (hstep : machine.step s (.call t k h) = some s')
    (hw : s'.waiting t ≠ none) {ls : List (Label T H)} {s'' : State T H}
    (hplay : machine.play (fun _ _ => True) ls s' = some s'') : s''.waiting t = some (k, h) := by
  have hi := inv_of_reachable hs
  obtain ⟨hwt, ⟨⟩⟩ := Option.ite_none_right_eq_some.mp hstep
  have hp := (not_congr (waiting_call (hi.running t h hh) hwt)).mp hw
  have hcall : s.call t h k = s.awaitCompletion t k h := by
    cases k <;> simp [State.call, State.mustWait, hi.running t h hh, hp]
  refine (Machine.play_invariant (I := Stuck t k h) (fun _ _ _ h hl => h.step hl) ?_ hplay).waiting
  exact ⟨hi.step hstep, by simp [hcall, State.awaitCompletion], by rw [hcall]; exact hh⟩

end Zuvloop.ThreadSafeHandle.Nesting
