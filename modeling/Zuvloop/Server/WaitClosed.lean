import Mathlib.Data.List.Nodup
import Zuvloop.Transition

/-!
# `wait_closed`

`Server` of `zuvloop/_server.py`, as far as closing goes: the listening sockets, the count of
connections that were accepted and not detached, the futures that `wait_closed` waits on, and
`serve_forever`, which closes the server when its task is cancelled. A step is what runs without an
`await`. How a task is cancelled is `asyncio`'s: the future it waits on is cancelled, and where
that is done already the task resumes with `CancelledError` all the same.

## Main definitions

* `Server.wakeup`, `Server.detach`, `Server.close`, `Server.waitClosed`: the methods.
* `machine`: what the tasks, the connections and the callers of `close` do, in any order.

## Main results

* `wait_closed_exact`: `wait_closed` waits until the server is closed and drained and no longer.
-/

namespace Zuvloop.WaitClosed

open Transition

/-! ## State -/

/-- The state of a future. -/
inductive Fut
  | pending
  | finished
  | cancelled
  deriving DecidableEq

/-- `Future.done` -/
def Fut.done : Fut → Bool
  | pending => false
  | finished | cancelled => true

/-- Where a call of `wait_closed` stands. -/
inductive Phase
  /-- It awaits its waiter. -/
  | waiting
  /-- It completed normally. -/
  | returned
  /-- It raised `CancelledError`. -/
  | cancelled
  /-- It raised `ValueError`, as its waiter was not in the list it was removed from. -/
  | raised
  deriving DecidableEq

/-- A call of `wait_closed`, with its task. -/
structure Call where
  /-- The waiter, none if the call returned at once. -/
  waiter : Option Fut
  /-- The task was cancelled when its waiter was done. -/
  mustCancel : Bool
  /-- Where the call stands. -/
  phase : Phase
  /-- How often `set_result` was called on the waiter. -/
  results : ℕ
  deriving DecidableEq

/-- A server. The waiter of call `i` is called `i` as well. -/
structure Server where
  /-- `_sockets` is not `None`. -/
  sockets : Bool
  /-- `_active` -/
  active : ℕ
  /-- `_waiters` -/
  waiters : Option (List ℕ)
  /-- `_serving_forever` is not `None`. -/
  servingForever : Bool
  /-- The future that the task in `serve_forever` awaits, none without such a task. -/
  serveTask : Option Fut
  /-- Every call of `wait_closed` so far. -/
  calls : List Call
  deriving DecidableEq

/-- The listening sockets are closed and no connection is left. -/
def Server.Drained (s : Server) : Prop := s.sockets = false ∧ s.active = 0

/-! ## Methods -/

/-- `if not waiter.done(): waiter.set_result(None)` -/
def Call.wake (c : Call) : Call :=
  if c.waiter = some .pending then
    { c with waiter := some .finished, results := c.results + 1 }
  else c

/-- `_wakeup` -/
def Server.wakeup (s : Server) : Server :=
  { s with
    waiters := none
    calls := (s.waiters.getD []).foldl (fun calls i => calls.modify i Call.wake) s.calls }

/-- `_detach` -/
def Server.detach (s : Server) : Server :=
  let s := { s with active := s.active - 1 }
  if s.active = 0 ∧ s.sockets = false then s.wakeup else s

/-- `close`. Whatever becomes of the path of the socket, the waiters are woken. -/
def Server.close (s : Server) : Server :=
  let s := if s.servingForever ∧ s.serveTask = some .pending then
    { s with servingForever := false, serveTask := some .cancelled } else s
  if s.sockets = false then s
  else
    let s := { s with sockets := false }
    if s.active = 0 then s.wakeup else s

/-- `wait_closed`, until it returns or awaits its waiter. -/
def Server.waitClosed (s : Server) : Server :=
  match s.waiters with
  | none => { s with calls := s.calls ++ [⟨none, false, .returned, 0⟩] }
  | some waiters =>
    if s.sockets = false ∧ s.active = 0 then
      { s with calls := s.calls ++ [⟨none, false, .returned, 0⟩] }
    else
      { s with
        waiters := some (waiters ++ [s.calls.length])
        calls := s.calls ++ [⟨some .pending, false, .waiting, 0⟩] }

/-- What `await waiter` ends with. -/
def Call.outcome (c : Call) : Phase :=
  if c.waiter = some .cancelled ∨ c.mustCancel then .cancelled else .returned

/-- `wait_closed`, from where its waiter is done: the `finally` clause, and what it ends with. -/
def Server.resume (s : Server) (i : ℕ) : Server :=
  match s.waiters with
  | none => { s with calls := s.calls.modify i fun c => { c with phase := c.outcome } }
  | some waiters =>
    if i ∈ waiters then
      { s with
        waiters := some (waiters.erase i)
        calls := s.calls.modify i fun c => { c with phase := c.outcome } }
    else { s with calls := s.calls.modify i fun c => { c with phase := .raised } }

/-- `Task.cancel`, of a task that awaits its waiter. -/
def Call.cancel (c : Call) : Call :=
  if c.waiter = some .pending then { c with waiter := some .cancelled }
  else { c with mustCancel := true }

/-! ## The machine -/

/-- What can happen next. -/
inductive Label
  /-- `_accept` takes a connection. -/
  | accept
  /-- A connection is over. -/
  | detach
  /-- `close()` -/
  | close
  /-- A task calls `wait_closed()`. -/
  | waitClosed
  /-- The task of a call is cancelled. -/
  | cancel (i : ℕ)
  /-- The task of a call runs after its waiter is done. -/
  | resume (i : ℕ)
  /-- A task calls `serve_forever()`. -/
  | serveForever
  /-- That task is cancelled. -/
  | cancelServe
  /-- That task runs after its future is cancelled. -/
  | resumeServe
  deriving DecidableEq

/-- Call `i` awaits its waiter. -/
def Server.Waiting (s : Server) (i : ℕ) : Prop := (s.calls[i]?).map Call.phase = some .waiting

instance (s : Server) (i : ℕ) : Decidable (s.Waiting i) := inferInstanceAs (Decidable (_ = _))

/-- The waiter of call `i` is done. -/
def Server.Woken (s : Server) (i : ℕ) : Prop :=
  ((s.calls[i]?).bind Call.waiter).map Fut.done = some true

instance (s : Server) (i : ℕ) : Decidable (s.Woken i) := inferInstanceAs (Decidable (_ = _))

/-- One step. A connection is accepted on an open socket, and over once. -/
def step (s : Server) : Label → Option Server
  | .accept => if s.sockets then some { s with active := s.active + 1 } else none
  | .detach => if 0 < s.active then some s.detach else none
  | .close => some s.close
  | .waitClosed => some s.waitClosed
  | .cancel i => if s.Waiting i then some { s with calls := s.calls.modify i Call.cancel } else none
  | .resume i => if s.Waiting i ∧ s.Woken i then some (s.resume i) else none
  | .serveForever =>
    -- a second task and a closed server make it raise `RuntimeError`
    if s.servingForever ∨ s.sockets = false then some s
    else some { s with servingForever := true, serveTask := some .pending }
  | .cancelServe =>
    if s.serveTask = some .pending then some { s with serveTask := some .cancelled } else none
  | .resumeServe =>
    -- `close()` and `wait_closed()`; nothing asks for `_serving_forever` in between
    if s.serveTask = some .cancelled then
      some { s.close.waitClosed with servingForever := false, serveTask := none }
    else none

/-- A server that was just created, and everything that can happen to it. -/
def machine : Machine Server Label where
  init := ⟨true, 0, some [], false, none, []⟩
  step := step

/-! ## The invariant -/

/-- What holds of call `i` of a server whose list of waiters is `waiters`. -/
structure Call.Ok (waiters : Option (List ℕ)) (i : ℕ) (c : Call) : Prop where
  /-- The removal never raises. -/
  quiet : c.phase ≠ .raised
  /-- A waiter is resolved by one call of `set_result`. -/
  results : c.results = if c.waiter = some .finished then 1 else 0
  /-- No call completes while there is a list. -/
  returned : c.phase = .returned → waiters = none
  /-- A pending waiter is waited for. -/
  pending : c.waiter = some .pending → c.phase = .waiting
  /-- While there is a list, the calls that wait are on it, and no other. -/
  listed : ∀ is, waiters = some is → (i ∈ is ↔ c.phase = .waiting)
  /-- While there is a list, no waiter is resolved. -/
  unresolved : ∀ is, waiters = some is → c.waiter ≠ some .finished
  /-- Once the list is gone, no waiter is pending. -/
  resolved : waiters = none → c.waiter ≠ some .pending

/-- The invariant of a server. -/
structure Inv (s : Server) : Prop where
  /-- The list is gone when the server is closed and drained, and only then. -/
  drained : s.waiters = none ↔ s.Drained
  /-- No waiter is on the list twice, and each belongs to a call. -/
  listed : ∀ is, s.waiters = some is → is.Nodup ∧ ∀ i ∈ is, i < s.calls.length
  /-- The calls are as they should be. -/
  calls : ∀ i (c : Call), s.calls[i]? = some c → c.Ok s.waiters i

variable {s s' : Server}

theorem Call.wake_of_ne {c : Call} (h : c.waiter ≠ some .pending) : c.wake = c := if_neg h

theorem Call.wake_wake (c : Call) : c.wake.wake = c.wake := by
  by_cases h : c.waiter = some .pending
  · rw [show c.wake = { c with waiter := some .finished, results := c.results + 1 } from if_pos h]
    exact wake_of_ne (by simp)
  · rw [wake_of_ne h, wake_of_ne h]

/-- Waking the waiters of a list wakes those and no other. -/
theorem getElem?_wake (is : List ℕ) (calls : List Call) (j : ℕ) :
    (is.foldl (fun calls i => calls.modify i Call.wake) calls)[j]? =
      (calls[j]?).map fun c => if j ∈ is then c.wake else c := by
  induction is generalizing calls with
  | nil => simp
  | cons i is ih =>
    rw [List.foldl_cons, ih, List.getElem?_modify]
    cases calls[j]? with
    | none => rfl
    | some c =>
      by_cases hij : i = j
      · subst hij
        by_cases hmem : i ∈ is <;> simp [hmem, Call.wake_wake]
      · simp [hij, Ne.symm hij]

/-- A call of a server that is closed and drained, after the wake-up. -/
theorem Call.Ok.wakeup {is : List ℕ} {i : ℕ} {c : Call} (h : c.Ok (some is) i) :
    (if i ∈ is then c.wake else c).Ok none i := by
  by_cases hpending : c.waiter = some .pending
  · -- the waiter is on the list
    rw [if_pos ((h.listed is rfl).mpr (h.pending hpending)), Call.wake, if_pos hpending]
    refine ⟨h.quiet, ?_, fun _ => rfl, by simp, by simp, by simp, by simp⟩
    rw [h.results, if_neg (h.unresolved is rfl)]
    rfl
  · have hwake : (if i ∈ is then c.wake else c) = c := by
      rw [Call.wake_of_ne hpending, ite_self]
    rw [hwake]
    exact ⟨h.quiet, h.results, fun _ => rfl, h.pending, by simp, by simp, fun _ => hpending⟩

/-- The wake-up of a server that has just become closed and drained. -/
theorem Inv.wakeup (hcalls : ∀ i (c : Call), s.calls[i]? = some c → c.Ok s.waiters i)
    (hdrained : s.Drained) : Inv s.wakeup := by
  refine ⟨iff_of_true rfl hdrained, by simp [Server.wakeup], fun i c hc => ?_⟩
  rw [Server.wakeup] at hc ⊢
  rw [getElem?_wake, Option.map_eq_some_iff] at hc
  obtain ⟨c', hc', rfl⟩ := hc
  have h := hcalls i c' hc'
  cases hw : s.waiters with
  | none =>
    rw [hw] at h
    simpa using h
  | some is =>
    rw [hw] at h
    exact h.wakeup

/-! ## What each step keeps -/

/-- Opening and closing sockets and counting connections leaves the calls alone. -/
theorem Inv.of_calls (h : Inv s) (hwaiters : s'.waiters = s.waiters) (hcalls : s'.calls = s.calls)
    (hdrained : s'.Drained ↔ s.Drained) : Inv s' where
  drained := by rw [hwaiters, hdrained, h.drained]
  listed := by
    rw [hwaiters, hcalls]
    exact h.listed
  calls := by
    rw [hwaiters, hcalls]
    exact h.calls

theorem Inv.detach (h : Inv s) (hactive : 0 < s.active) : Inv s.detach := by
  rw [Server.detach]
  dsimp only
  split
  · rename_i hlast
    exact Inv.wakeup h.calls ⟨hlast.2, hlast.1⟩
  · rename_i hlast
    refine h.of_calls rfl rfl (iff_of_false (fun hd => hlast ⟨hd.2, hd.1⟩) fun hd => ?_)
    exact absurd hd.2 (Nat.ne_of_gt hactive)

theorem Inv.close (h : Inv s) : Inv s.close := by
  rw [Server.close]
  -- cancelling `serve_forever` changes nothing of what is claimed
  generalize hs₁ : (if s.servingForever = true ∧ s.serveTask = some .pending then
    { s with servingForever := false, serveTask := some .cancelled } else s) = s₁
  have h₁ : Inv s₁ := by
    rw [← hs₁]
    split
    · exact h.of_calls rfl rfl Iff.rfl
    · exact h
  dsimp only
  split
  · exact h₁
  split
  · rename_i hactive
    exact Inv.wakeup h₁.calls ⟨rfl, hactive⟩
  · rename_i hopen hactive
    exact h₁.of_calls rfl rfl (iff_of_false (fun hd => hactive hd.2) fun hd => hopen hd.1)

/-- A call that returns at once. -/
theorem Inv.returned (h : Inv s) (hd : s.Drained) :
    Inv { s with calls := s.calls ++ [⟨none, false, .returned, 0⟩] } := by
  have hnone := h.drained.mpr hd
  refine ⟨h.drained, by simp [hnone], fun i c hc => ?_⟩
  rw [List.getElem?_append] at hc
  split at hc
  · exact h.calls i c hc
  · obtain rfl := List.mem_singleton.mp (List.mem_of_getElem? hc)
    exact ⟨by simp, rfl, fun _ => hnone, by simp, by simp [hnone], by simp, by simp⟩

theorem waitClosed_of_none (h : s.waiters = none) :
    s.waitClosed = { s with calls := s.calls ++ [⟨none, false, .returned, 0⟩] } := by
  rw [Server.waitClosed]
  split
  · rfl
  · rename_i hsome
    rw [h] at hsome
    cases hsome

theorem waitClosed_of_some {is : List ℕ} (h : s.waiters = some is) (hd : ¬s.Drained) :
    s.waitClosed = { s with
      waiters := some (is ++ [s.calls.length])
      calls := s.calls ++ [⟨some .pending, false, .waiting, 0⟩] } := by
  rw [Server.waitClosed]
  split
  · rename_i hnone
    rw [h] at hnone
    cases hnone
  · rename_i is' hsome
    obtain rfl := Option.some.inj (h.symm.trans hsome)
    exact if_neg hd

theorem Inv.waitClosed (h : Inv s) : Inv s.waitClosed := by
  cases hw : s.waiters with
  | none =>
    rw [waitClosed_of_none hw]
    exact h.returned (h.drained.mp hw)
  | some is =>
    have hd : ¬s.Drained := fun hd => by
      rw [h.drained.mpr hd] at hw
      cases hw
    obtain ⟨hnodup, hlt⟩ := h.listed is hw
    have hnew : s.calls.length ∉ is := fun hmem => Nat.lt_irrefl _ (hlt _ hmem)
    rw [waitClosed_of_some hw hd]
    refine ⟨iff_of_false (by simp) hd, fun is' his' => ?_, fun i c hc => ?_⟩
    · obtain rfl := Option.some.inj his'
      refine ⟨?_, fun i hi => ?_⟩
      · rw [List.nodup_append]
        refine ⟨hnodup, List.nodup_singleton _, fun i hi j hj => ?_⟩
        rw [List.mem_singleton.mp hj]
        exact ne_of_mem_of_not_mem hi hnew
      · rw [List.length_append]
        rcases List.mem_append.mp hi with hi | hi
        · exact Nat.lt_succ_of_lt (hlt i hi)
        · rw [List.mem_singleton.mp hi]
          exact Nat.lt_succ_self _
    · rw [List.getElem?_append] at hc
      split at hc
      · -- an earlier call keeps its place
        rename_i hi
        have hc' := h.calls i c hc
        rw [hw] at hc'
        refine ⟨hc'.quiet, hc'.results, fun hr => absurd (hc'.returned hr) (by simp), hc'.pending,
          fun is' his' => ?_, fun _ _ => hc'.unresolved is rfl, by simp⟩
        obtain rfl := Option.some.inj his'
        rw [← hc'.listed is rfl, List.mem_append, List.mem_singleton]
        exact or_iff_left (Nat.ne_of_lt hi)
      · rename_i hi
        obtain rfl := List.mem_singleton.mp (List.mem_of_getElem? hc)
        have hzero : i - s.calls.length = 0 := by
          have := (List.getElem?_eq_some_iff.mp hc).1
          simpa using this
        refine ⟨by simp, rfl, by simp, fun _ => rfl, fun is' his' => ?_, by simp, by simp⟩
        obtain rfl := Option.some.inj his'
        refine iff_of_true (List.mem_append_right _ (List.mem_singleton.mpr ?_)) rfl
        omega

/-- A change of one call, and of its place on the list. -/
theorem Inv.modify (h : Inv s) {i : ℕ} {f : Call → Call} {g : List ℕ → List ℕ}
    (hg : ∀ is, s.waiters = some is → (g is).Nodup ∧ ∀ j ∈ g is, j ∈ is)
    (hother : ∀ is j, s.waiters = some is → j ≠ i → (j ∈ g is ↔ j ∈ is))
    (hself : ∀ c, s.calls[i]? = some c → (f c).Ok (s.waiters.map g) i) :
    Inv { s with waiters := s.waiters.map g, calls := s.calls.modify i f } := by
  refine ⟨by rw [Option.map_eq_none_iff]; exact h.drained, fun is his => ?_, fun j c hc => ?_⟩
  · obtain ⟨is', his', rfl⟩ := Option.map_eq_some_iff.mp his
    obtain ⟨hnodup, hsub⟩ := hg is' his'
    refine ⟨hnodup, fun j hj => ?_⟩
    rw [List.length_modify]
    exact (h.listed is' his').2 j (hsub j hj)
  · rw [List.getElem?_modify] at hc
    obtain ⟨c', hc', heq⟩ := Option.map_eq_some_iff.mp hc
    by_cases hij : i = j
    · subst hij
      rw [if_pos rfl] at heq
      exact heq ▸ hself c' hc'
    · rw [if_neg hij] at heq
      subst heq
      have hok := h.calls j c' hc'
      refine ⟨hok.quiet, hok.results, fun hr => by rw [hok.returned hr]; rfl, hok.pending,
        fun is his => ?_, fun is his => ?_, fun hnone => ?_⟩
      · obtain ⟨is', his', rfl⟩ := Option.map_eq_some_iff.mp his
        rw [hother is' j his' (Ne.symm hij)]
        exact hok.listed is' his'
      · obtain ⟨is', his', -⟩ := Option.map_eq_some_iff.mp his
        exact hok.unresolved is' his'
      · exact hok.resolved (Option.map_eq_none_iff.mp hnone)

theorem Server.Woken.elim {i : ℕ} (h : s.Woken i) {c : Call} (hc : s.calls[i]? = some c) :
    c.waiter ≠ some .pending ∧ c.waiter ≠ none := by
  rw [Server.Woken, hc, Option.bind_some] at h
  constructor <;> intro hwaiter <;> rw [hwaiter] at h <;> cases h

theorem Inv.cancel {i : ℕ} (h : Inv s) :
    Inv { s with calls := s.calls.modify i Call.cancel } := by
  have hmap : s.waiters.map id = s.waiters := Option.map_id_apply
  have hmod := h.modify (i := i) (f := Call.cancel) (g := id)
    (fun is his => ⟨(h.listed is his).1, fun _ hj => hj⟩) (fun _ _ _ _ => Iff.rfl) fun c hc => ?_
  · rwa [hmap] at hmod
  have hok := h.calls i c hc
  rw [hmap, Call.cancel]
  split
  · rename_i hpending
    refine ⟨hok.quiet, ?_, hok.returned, by simp, hok.listed, by simp, by simp⟩
    rw [hok.results, hpending]
    rfl
  · exact ⟨hok.quiet, hok.results, hok.returned, hok.pending, hok.listed, hok.unresolved,
      hok.resolved⟩

theorem Call.outcome_ne (c : Call) : c.outcome ≠ .waiting ∧ c.outcome ≠ .raised := by
  unfold Call.outcome
  split <;> simp

/-- A call whose waiter is done leaves the list, if there is one. -/
theorem Call.Ok.resume {w : Option (List ℕ)} {i : ℕ} {c : Call} (h : c.Ok w i)
    (hdone : c.waiter ≠ some .pending ∧ c.waiter ≠ none)
    (hnodup : ∀ is, w = some is → is.Nodup) :
    ({ c with phase := c.outcome } : Call).Ok (w.map (·.erase i)) i where
  quiet := c.outcome_ne.2
  results := h.results
  returned hreturned := by
    cases w with
    | none => rfl
    | some is =>
      -- while there is a list, only a cancellation ends the wait
      have hcancelled : c.waiter = some .cancelled := by
        obtain ⟨fut, hfut⟩ := Option.ne_none_iff_exists'.mp hdone.2
        cases fut with
        | pending => exact absurd hfut hdone.1
        | finished => exact absurd hfut (h.unresolved is rfl)
        | cancelled => exact hfut
      rw [Call.outcome, if_pos (.inl hcancelled)] at hreturned
      cases hreturned
  pending hpending := absurd hpending hdone.1
  listed is his := by
    obtain ⟨is', his', rfl⟩ := Option.map_eq_some_iff.mp his
    exact iff_of_false (hnodup is' his').not_mem_erase c.outcome_ne.1
  unresolved is his := by
    obtain ⟨is', his', -⟩ := Option.map_eq_some_iff.mp his
    exact h.unresolved is' his'
  resolved hnone := h.resolved (Option.map_eq_none_iff.mp hnone)

/-- What `resume` does when the removal does not raise. -/
theorem resume_eq {i : ℕ} (h : ∀ is, s.waiters = some is → i ∈ is) :
    s.resume i = { s with
      waiters := s.waiters.map (·.erase i)
      calls := s.calls.modify i fun c => { c with phase := c.outcome } } := by
  rw [Server.resume]
  split
  · rename_i hnone
    rw [hnone, Option.map_none]
  · rename_i is his
    rw [if_pos (h is his), his, Option.map_some]

/-- The waiter of a call that waits is on the list, if there is one. -/
theorem Inv.mem_waiters {i : ℕ} (h : Inv s) (hwaiting : s.Waiting i) :
    ∀ is, s.waiters = some is → i ∈ is := by
  intro is his
  obtain ⟨c, hc, hphase⟩ := Option.map_eq_some_iff.mp hwaiting
  exact ((h.calls i c hc).listed is his).mpr hphase

theorem Inv.resume {i : ℕ} (h : Inv s) (hwaiting : s.Waiting i) (hwoken : s.Woken i) :
    Inv (s.resume i) := by
  rw [resume_eq (h.mem_waiters hwaiting)]
  refine h.modify (fun is his => ?_) (fun is j _ hj => List.mem_erase_of_ne hj) fun c hc => ?_
  · exact ⟨(h.listed is his).1.erase _, fun j hj => List.mem_of_mem_erase hj⟩
  · exact (h.calls i c hc).resume (hwoken.elim hc) fun is his => (h.listed is his).1

theorem Inv.step (h : Inv s) {l : Label} (hstep : step s l = some s') : Inv s' := by
  cases l with
  | accept =>
    obtain ⟨hopen, ⟨⟩⟩ := Option.ite_none_right_eq_some.mp hstep
    refine h.of_calls rfl rfl (iff_of_false (fun hd => ?_) fun hd => ?_) <;>
      exact absurd (hopen.symm.trans hd.1) (by simp)
  | detach =>
    obtain ⟨hactive, ⟨⟩⟩ := Option.ite_none_right_eq_some.mp hstep
    exact h.detach hactive
  | close =>
    obtain rfl := Option.some.inj hstep
    exact h.close
  | waitClosed =>
    obtain rfl := Option.some.inj hstep
    exact h.waitClosed
  | cancel i =>
    obtain ⟨-, ⟨⟩⟩ := Option.ite_none_right_eq_some.mp hstep
    exact h.cancel
  | resume i =>
    obtain ⟨⟨hwaiting, hwoken⟩, ⟨⟩⟩ := Option.ite_none_right_eq_some.mp hstep
    exact h.resume hwaiting hwoken
  | serveForever =>
    rw [WaitClosed.step] at hstep
    split at hstep <;> obtain rfl := Option.some.inj hstep
    · exact h
    · exact h.of_calls rfl rfl Iff.rfl
  | cancelServe =>
    obtain ⟨-, ⟨⟩⟩ := Option.ite_none_right_eq_some.mp hstep
    exact h.of_calls rfl rfl Iff.rfl
  | resumeServe =>
    obtain ⟨-, ⟨⟩⟩ := Option.ite_none_right_eq_some.mp hstep
    exact h.close.waitClosed.of_calls rfl rfl Iff.rfl

theorem inv_of_reachable (h : machine.Reachable (fun _ _ => True) s) : Inv s := by
  refine h.invariant ?_ fun _ _ _ _ hinv _ hstep => hinv.step hstep
  refine ⟨by simp [machine, Server.Drained], fun is his => ?_, by simp [machine]⟩
  obtain rfl := Option.some.inj his
  exact ⟨List.nodup_nil, by simp⟩

/-! ## Main result -/

theorem drained_waitClosed : s.waitClosed.Drained ↔ s.Drained := by
  unfold Server.waitClosed Server.Drained
  split
  · rfl
  · split <;> rfl

theorem drained_resume (i : ℕ) : (s.resume i).Drained ↔ s.Drained := by
  unfold Server.resume Server.Drained
  split
  · rfl
  · split <;> rfl

theorem Server.Drained.close (h : s.Drained) : s.close.Drained := by
  unfold Server.close
  dsimp only
  rw [if_pos]
  · split <;> exact h
  · split <;> exact h.1

/-- What is closed and drained stays so. -/
theorem Server.Drained.step (h : s.Drained) {l : Label} (hstep : step s l = some s') :
    s'.Drained := by
  cases l with
  | accept =>
    obtain ⟨hopen, -⟩ := Option.ite_none_right_eq_some.mp hstep
    exact absurd (hopen.symm.trans h.1) (by simp)
  | detach =>
    obtain ⟨hactive, -⟩ := Option.ite_none_right_eq_some.mp hstep
    exact absurd h.2 (Nat.ne_of_gt hactive)
  | close =>
    obtain rfl := Option.some.inj hstep
    exact h.close
  | waitClosed =>
    obtain rfl := Option.some.inj hstep
    exact drained_waitClosed.mpr h
  | cancel i =>
    obtain ⟨-, ⟨⟩⟩ := Option.ite_none_right_eq_some.mp hstep
    exact h
  | resume i =>
    obtain ⟨-, ⟨⟩⟩ := Option.ite_none_right_eq_some.mp hstep
    exact (drained_resume i).mpr h
  | serveForever =>
    rw [WaitClosed.step] at hstep
    split at hstep <;> obtain rfl := Option.some.inj hstep <;> exact h
  | cancelServe =>
    obtain ⟨-, ⟨⟩⟩ := Option.ite_none_right_eq_some.mp hstep
    exact h
  | resumeServe =>
    obtain ⟨-, ⟨⟩⟩ := Option.ite_none_right_eq_some.mp hstep
    exact drained_waitClosed.mpr h.close

/-- A waiter that is resolved lets its call complete, unless its task is cancelled in between. -/
theorem Inv.completes (h : Inv s) {i : ℕ} {c : Call} (hc : s.calls[i]? = some c)
    (hphase : c.phase = .waiting) (hwaiter : c.waiter = some .finished) :
    ∃ s', machine.step s (.resume i) = some s' ∧ s'.calls[i]? =
      some { c with phase := if c.mustCancel then .cancelled else .returned } := by
  have hwaiting : s.Waiting i := by rw [Server.Waiting, hc, Option.map_some, hphase]
  have hwoken : s.Woken i := by
    rw [Server.Woken, hc, Option.bind_some, hwaiter]
    rfl
  refine ⟨s.resume i, if_pos ⟨hwaiting, hwoken⟩, ?_⟩
  rw [resume_eq (h.mem_waiters hwaiting)]
  simp [hc, Call.outcome, hwaiter]

/-- `wait_closed` waits until the server is closed and drained and no longer: no call completes
before, every waiter that is not cancelled is then resolved, once, and a later call returns at
once. A call that is cancelled leaves the list, and no removal raises. -/
theorem wait_closed_exact (h : machine.Reachable (fun _ _ => True) s) :
    (∀ c ∈ s.calls, c.phase = .returned → s.Drained) ∧
    (s.Drained → (∀ l s', machine.step s l = some s' → s'.Drained) ∧
      (∀ c ∈ s.calls, c.waiter ≠ none → c.waiter ≠ some .cancelled →
        c.waiter = some .finished) ∧
      s.waitClosed = { s with calls := s.calls ++ [⟨none, false, .returned, 0⟩] }) ∧
    (∀ c ∈ s.calls, c.results = if c.waiter = some .finished then 1 else 0) ∧
    (∀ i c, s.calls[i]? = some c → c.phase = .waiting → c.waiter = some .finished →
      ∃ s', machine.step s (.resume i) = some s' ∧ s'.calls[i]? =
        some { c with phase := if c.mustCancel then .cancelled else .returned }) ∧
    (∀ i c, s.calls[i]? = some c → c.phase ≠ .raised ∧
      (c.phase = .cancelled → ∀ is, s.waiters = some is → i ∉ is)) := by
  have hinv := inv_of_reachable h
  have hcall : ∀ c ∈ s.calls, ∃ i, c.Ok s.waiters i := fun c hc => by
    obtain ⟨i, hi⟩ := List.getElem?_of_mem hc
    exact ⟨i, hinv.calls i c hi⟩
  refine ⟨fun c hc hreturned => ?_, fun hd => ⟨fun l s' hstep => hd.step hstep, ?_, ?_⟩,
    fun c hc => ?_, fun i c hc hphase hwaiter => hinv.completes hc hphase hwaiter,
    fun i c hc => ?_⟩
  · obtain ⟨i, hok⟩ := hcall c hc
    exact hinv.drained.mp (hok.returned hreturned)
  · intro c hc hcreated hkept
    obtain ⟨i, hok⟩ := hcall c hc
    obtain ⟨fut, hfut⟩ := Option.ne_none_iff_exists'.mp hcreated
    cases fut with
    | pending => exact absurd hfut (hok.resolved (hinv.drained.mpr hd))
    | finished => exact hfut
    | cancelled => exact absurd hfut hkept
  · exact waitClosed_of_none (hinv.drained.mpr hd)
  · obtain ⟨i, hok⟩ := hcall c hc
    exact hok.results
  · have hok := hinv.calls i c hc
    refine ⟨hok.quiet, fun hcancelled is his hmem => ?_⟩
    rw [hok.listed is his, hcancelled] at hmem
    cases hmem

/-- Two tasks wait, one of them is cancelled, and the last connection ends after `close()`. -/
def closing : List Label :=
  [.accept, .waitClosed, .waitClosed, .close, .cancel 0, .detach, .resume 0, .resume 1]

theorem wait_closed_exact_closing : ∃ s, machine.play (fun _ _ => True) closing machine.init =
    some s ∧ s.calls.map Call.phase = [.cancelled, .returned] ∧ s.Drained := by
  have hplay : ∃ s, machine.play (fun _ _ => True) closing machine.init = some s ∧
      s.calls = [⟨some .cancelled, false, .cancelled, 0⟩, ⟨some .finished, false, .returned, 1⟩] :=
    ⟨_, rfl, rfl⟩
  obtain ⟨s, hrun, hcalls⟩ := hplay
  have hexact := wait_closed_exact (Machine.Reachable.init.play hrun)
  refine ⟨s, hrun, by rw [hcalls]; rfl, hexact.1 ⟨some .finished, false, .returned, 1⟩ ?_ rfl⟩
  rw [hcalls]
  exact List.mem_cons_of_mem _ (List.mem_singleton_self _)

end Zuvloop.WaitClosed
