import Zuvloop.Loop.Scheduling

/-!
# The thread-safe handle

`zig/tshandle.zig`: the loop's thread runs the handle once, while other threads, the callback itself
and other code on the loop's thread call `cancel()` and `cancelled()`. The model is one transition
system for all of them. A transition is a segment of one thread's code, from one place where Python
code runs or the thread state is detached to the next one; in between no other thread can touch
the handle.

What is shared is the state word, the cancelled flag, the callback and its arguments, and the list
of waiters. Each call has a number, and its waiter is known by that number.

## Main definitions

* `State`: the handle, where its runner is and where each call is.
* `step`: the segments.
* `Reachable`: the states some interleaving of the segments leads to.
-/

namespace Zuvloop.ThreadSafeHandle

open Loop (RunState Outcome)

/-- What is called. -/
inductive CallKind where
  /-- `cancel()`. -/
  | cancel
  /-- `cancelled()`. -/
  | cancelled
deriving DecidableEq, Repr

/-- One call. -/
structure Call where
  /-- What is called. -/
  kind : CallKind
  /-- The call is made on the loop's thread, by the callback or by any other code there. -/
  onLoop : Bool
deriving DecidableEq, Repr

/-- Where the loop's thread is in `run`. -/
inductive RunnerAt where
  /-- The handle has not been taken off the ready queue. -/
  | notStarted
  /-- In `materialize`, which creates the context. -/
  | materializing
  /-- In the callback. -/
  | inCallback
  /-- In the exception handler. -/
  | reporting
  /-- In a finalizer, with the callback and this many arguments cleared. -/
  | clearing (i : ℕ)
  /-- `run` has returned. -/
  | finished
deriving DecidableEq, Repr

/-- Where a call is. -/
inductive CallerAt where
  /-- The call has not been made. -/
  | notStarted
  /-- Blocked on the lock of its waiter, with the thread state detached. -/
  | parked
  /-- Without a lock, yielding until the state word says that the run is over. -/
  | yielding
  /-- The wait is over; the thread state is about to be restored. -/
  | reattaching
  /-- In a finalizer, with the callback and this many arguments cleared. -/
  | clearing (i : ℕ)
  /-- The call has returned. -/
  | returned
deriving DecidableEq, Repr

/-- The handle and the threads that use it. -/
structure State where
  /-- The state word. -/
  runState : RunState
  /-- The cancelled flag. -/
  cancelled : Bool
  /-- The reference to the callback is held. -/
  callback : Bool
  /-- For each argument, whether its reference is held. -/
  args : List Bool
  /-- The waiters, last linked first. -/
  waiters : List ℕ
  /-- The `running_payload` of the loop's thread is this handle. -/
  runningPayload : Bool
  /-- Where the runner is. -/
  runner : RunnerAt
  /-- Where each call is. -/
  caller : ℕ → CallerAt
  /-- How often the callback was invoked. -/
  invocations : ℕ
  /-- A `cancel()` moved the state word from pending to done. -/
  preempted : Bool
  /-- How often clearing the callback and the arguments was begun. -/
  clears : ℕ
  /-- How often each call's waiter was linked. -/
  linked : ℕ → ℕ
  /-- How often each call's waiter was released. -/
  released : ℕ → ℕ

namespace State

/-- A new handle with `nargs` arguments. -/
def init (nargs : ℕ) : State :=
  { runState := .pending, cancelled := false, callback := true, args := List.replicate nargs true,
    waiters := [], runningPayload := false, runner := .notStarted,
    caller := fun _ => .notStarted, invocations := 0, preempted := false, clears := 0,
    linked := fun _ => 0, released := fun _ => 0 }

/-- Move a call. -/
def setCaller (s : State) (i : ℕ) (place : CallerAt) : State :=
  { s with caller := Function.update s.caller i place }

/-- Move the runner. -/
def setRunner (s : State) (place : RunnerAt) : State := { s with runner := place }

/-- Clear the callback; its finalizers run next, and then the arguments are cleared. -/
def clear (s : State) : State := { s with callback := false, clears := s.clears + 1 }

/-- `clearArgs` from argument `i` on: clear that argument, or end. -/
def clearArg (s : State) (i : ℕ) : State :=
  if i < s.args.length then { s with args := s.args.set i false } else { s with args := [] }

/-! ## The runner -/

/-- `run` up to the context of the callback. -/
def run (s : State) : State :=
  if s.runState ≠ .pending then s.setRunner .finished
  else { s with runState := .running, runningPayload := true, runner := .materializing }

/-- Publish the end of the run and release the waiters. -/
def publishDone (s : State) : State :=
  { s with
    runState := .done
    waiters := []
    runningPayload := false
    released := fun i => s.released i + s.waiters.count i }

/-- The `defer` block of `run`: publish the end of the run, and clear what a `cancel()` during the
run could not. -/
def finishRun (s : State) : State :=
  if s.cancelled then s.publishDone.clear.setRunner (.clearing 0)
  else s.publishDone.setRunner .finished

/-- The callback is invoked. -/
def invoke (s : State) : State :=
  { s with runner := .inCallback, invocations := s.invocations + 1 }

/-- `callbackFailed`: an exception goes to the exception handler, unless it is one that ends the
loop, which is captured without running Python code. -/
def callbackFailed (s : State) : Outcome → State
  | .exit => s.finishRun
  | _ => s.setRunner .reporting

/-- The runner goes on after Python code. In `materialize` a `returned` means that the context was
created and entered. -/
def runNext (s : State) (o : Outcome) : Option State :=
  match s.runner with
  | .notStarted | .finished => none
  | .materializing => some (if o = .returned then s.invoke else s.callbackFailed o)
  | .inCallback => some (if o = .returned then s.finishRun else s.callbackFailed o)
  | .reporting => some s.finishRun
  | .clearing i =>
    some ((s.clearArg i).setRunner (if i < s.args.length then .clearing (i + 1) else .finished))

/-! ## The calls -/

/-- The rest of `cancel()`, once it does not have to wait. -/
def markCancelled (s : State) (i : ℕ) : State :=
  if !s.cancelled then
    let s' := { s with cancelled := true }
    if s'.runState ≠ .running then s'.clear.setCaller i (.clearing 0)
    else s'.setCaller i .returned
  else s.setCaller i .returned

/-- Link a call's waiter. -/
def link (s : State) (i : ℕ) : State :=
  { s with waiters := i :: s.waiters, linked := Function.update s.linked i (s.linked i + 1) }

/-- `awaitCompletion` up to the wait: link a waiter, if there is a lock for it. -/
def awaitCompletion (s : State) (i : ℕ) (lock : Bool) : State :=
  if lock then (s.link i).setCaller i .parked else s.setCaller i .yielding

/-- The `running_payload` of the calling thread is this handle. -/
def isRunningPayload (s : State) (c : Call) : Bool := c.onLoop && s.runningPayload

/-- `mustWait`. -/
def mustWait (s : State) (c : Call) : Bool :=
  decide (s.runState = .running) && !s.isRunningPayload c

/-- The first segment of a call. -/
def startCall (s : State) (c : Call) (i : ℕ) (lock : Bool) : State :=
  match c.kind with
  | .cancel =>
    match s.runState with
    | .pending => State.markCancelled { s with runState := .done, preempted := true } i
    | .running => if !s.isRunningPayload c then s.awaitCompletion i lock else s.markCancelled i
    | .done => s.markCancelled i
  | .cancelled => if s.mustWait c then s.awaitCompletion i lock else s.setCaller i .returned

/-- The rest of a call that has waited. -/
def finishCall (s : State) (c : Call) (i : ℕ) : State :=
  match c.kind with
  | .cancel => s.markCancelled i
  | .cancelled => s.setCaller i .returned

/-- Clearing goes on after a finalizer. -/
def clearNext (s : State) (i k : ℕ) : State :=
  (s.clearArg k).setCaller i (if k < s.args.length then .clearing (k + 1) else .returned)

end State

/-- Which segment is next. -/
inductive Action where
  /-- The loop's thread enters `run`. -/
  | run
  /-- Python code on the loop's thread ends, and `run` goes on. -/
  | runNext (o : Outcome)
  /-- A call is made; `lock` tells whether a lock could be allocated, should it need one. -/
  | call (i : ℕ) (lock : Bool)
  /-- A waiter's lock is acquired. -/
  | acquire (i : ℕ)
  /-- A call that yields sees that the run is over. -/
  | observe (i : ℕ)
  /-- The thread state is restored and the call goes on. -/
  | restore (i : ℕ)
  /-- A finalizer ends and the call goes on clearing. -/
  | clearNext (i : ℕ)
deriving DecidableEq

/-- One segment; `none` if it is not its turn. -/
def step (calls : ℕ → Call) (s : State) : Action → Option State
  | .run => if s.runner = .notStarted then some s.run else none
  | .runNext o => s.runNext o
  | .call i lock => if s.caller i = .notStarted then some (s.startCall (calls i) i lock) else none
  | .acquire i =>
    if s.caller i = .parked ∧ 0 < s.released i then some (s.setCaller i .reattaching) else none
  | .observe i =>
    if s.caller i = .yielding ∧ s.runState = .done then some (s.setCaller i .reattaching) else none
  | .restore i => if s.caller i = .reattaching then some (s.finishCall (calls i) i) else none
  | .clearNext i =>
    match s.caller i with
    | .clearing k => some (s.clearNext i k)
    | _ => none

/-- The states that some interleaving of the segments leads to. -/
inductive Reachable (calls : ℕ → Call) (nargs : ℕ) : State → Prop where
  | init : Reachable calls nargs (.init nargs)
  | step {s s' : State} (a : Action) :
      Reachable calls nargs s → step calls s a = some s' → Reachable calls nargs s'

/-- A sequence of segments. -/
def play (calls : ℕ → Call) : List Action → State → Option State
  | [], s => some s
  | a :: as, s => (step calls s a).bind (play calls as)

theorem Reachable.play {calls : ℕ → Call} {nargs : ℕ} {as : List Action} {s s' : State}
    (h : Reachable calls nargs s) (hplay : play calls as s = some s') :
    Reachable calls nargs s' := by
  induction as generalizing s with
  | nil => exact Option.some.inj hplay ▸ h
  | cons a as ih =>
    obtain ⟨s₁, hstep, hrest⟩ := Option.bind_eq_some_iff.mp hplay
    exact ih (.step a h hstep) hrest

end Zuvloop.ThreadSafeHandle
