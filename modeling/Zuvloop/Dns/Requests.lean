import Mathlib.Data.Nat.Notation
import Zuvloop.Collections.Links
import Zuvloop.Transition

/-!
# Resolver requests

`zig/dns.zig` and the way `zig/loop.zig` closes a loop: the requests that libuv's threadpool works
on, linked through each other into the list `dns_requests`, from `allocRequest` to `freeRequest`.
Two threads take turns: the one that runs Python code, with its stack of functions that have called
out and not yet been returned to, and the reaper, which completes what a closed loop has left.

Requests and futures are called by numbers. Resolution itself, answers that need no request, and
what becomes of the results are left out; an allocation that fails links nothing.

## Main definitions

* `State`: the list, the memory of the requests, the stack, and a log of what was done.
* `State.link`, `State.unlink`, `State.release`: `allocRequest` and `freeRequest`, in the parts that
  Python code comes between.
* `State.onInfo`, `State.settle`: the completion callbacks.
* `machine`: everything that can happen, in any order.
-/

namespace Zuvloop.Dns.Requests

open Transition Linked

/-! ## State -/

/-- The kind of a request. -/
inductive Kind where
  | getaddrinfo
  | getnameinfo
deriving DecidableEq, Repr

/-- What has become of a future. -/
inductive Outcome where
  | pending
  | cancelled
  | finished
deriving DecidableEq, Repr

/-- `reap_state` -/
inductive Reap where
  /-- 0: the loop's thread drains everything itself. -/
  | synchronous
  /-- 1: the reaper runs, and there is a loop object. -/
  | running
  /-- 2: the reaper runs, and the loop object is gone. -/
  | orphaned
  /-- 3: the reaper has finished. -/
  | finished
deriving DecidableEq, Repr

/-- `onAddrInfo` or `onNameInfo`, when it calls into Python. -/
inductive Stage where
  /-- The result, or the exception, is built. -/
  | building
  /-- `settle` asks the future whether it is done. -/
  | asking (f : ℕ)
  /-- `settle` has called `set_result` or `set_exception`. -/
  | setting
deriving DecidableEq, Repr

/-- How far `closeLoop` has got. -/
inductive Closing where
  /-- The queues are released. -/
  | dropping
  /-- `cancelAll`, before it looks at a request. -/
  | cancelling (node : Option ℕ)
  /-- `closeAllHandles` runs libuv until every handle is closed. -/
  | draining
  /-- `releaseFutures`, before it looks at a request. -/
  | releasing (node : Option ℕ)
  /-- `releaseFutures`, while the last reference to a future may be going away. -/
  | clearing (r : ℕ)
  /-- There is no reaper: libuv is run until every request has completed. -/
  | drainingAll
deriving DecidableEq, Repr

/-- A function that has called out. -/
inductive Frame where
  /-- `allocRequest`, calling `create_future`. -/
  | alloc (k : Kind)
  /-- `runLoop`, in `uv_run`. -/
  | run
  /-- A completion callback. -/
  | complete (r : ℕ) (stage : Stage)
  /-- `raiseResolverError`, after libuv has refused a request. -/
  | fail (r : ℕ)
  /-- `freeRequest`, releasing the future of a request that is no longer on the list. -/
  | free (r : ℕ)
  /-- `closeLoop`. -/
  | close (c : Closing)
deriving DecidableEq, Repr

/-- Who calls `freeRequest`. -/
inductive Caller where
  /-- The completion callback. -/
  | completion
  /-- The submission, which has failed. -/
  | submission
deriving DecidableEq, Repr

/-- What is kept a record of. -/
inductive Event where
  /-- `allocRequest` has put a request on the list. -/
  | linked (r : ℕ)
  /-- `freeRequest` has been called. -/
  | freed (r : ℕ) (by' : Caller)
  /-- The future of a request has been settled; `closed` as it was then. -/
  | settled (r f : ℕ) (closed : Bool)
  /-- The future of a request has been called or released; `reaped` if the reaper had got the
  request by then. -/
  | touched (r f : ℕ) (reaped : Bool)
deriving DecidableEq, Repr

/-- The loop, as far as resolver requests go. -/
structure State where
  /-- `dns_requests`, and the fields `prev` and `next` of the requests. -/
  links : Links ℕ
  /-- The number of the next request. -/
  next : ℕ
  /-- The requests whose memory is allocated. -/
  live : ℕ → Bool
  /-- The field `future` of each request. -/
  future : ℕ → Option ℕ
  /-- The requests that libuv has accepted. -/
  submitted : ℕ → Bool
  /-- The requests that libuv has accepted and not completed. -/
  flight : List ℕ
  /-- What has become of each future. -/
  outcome : ℕ → Outcome
  /-- `running` -/
  running : Bool
  /-- `closed` -/
  closed : Bool
  /-- `reap_state` -/
  reap : Reap
  /-- The functions that have called out, the innermost first. -/
  stack : List Frame
  /-- Memory was used that is not allocated, or a null pointer was followed. -/
  fault : Bool
  /-- What was done, the latest last. -/
  log : List Event

/-- Libuv calls completion callbacks. -/
def Frame.runsCallbacks : Frame → Bool
  | .run | .close .draining | .close .drainingAll => true
  | _ => false

/-- Python code runs. -/
def Frame.runsPython : Frame → Bool
  | .close (.cancelling _) | .close (.releasing _) => false
  | _ => true

/-- The request that a function on the stack has yet to free. -/
def Frame.holds : Frame → Option ℕ
  | .complete r _ | .fail r => some r
  | _ => none

/-- The request that a function on the stack is about to give back to the allocator. -/
def Frame.frees : Frame → Option ℕ
  | .free r => some r
  | _ => none

namespace State

/-- Foreign code is running on the loop's thread. -/
def inPython (s : State) : Bool := s.stack.head?.all Frame.runsPython

/-- The requests that functions on the stack have yet to free. -/
def holding (s : State) : List ℕ := s.stack.filterMap Frame.holds

/-- The requests that functions on the stack are about to give back. -/
def freeing (s : State) : List ℕ := s.stack.filterMap Frame.frees

/-- `isReaping` -/
def isReaping (s : State) : Bool := s.reap ≠ .synchronous

/-! ## Functions -/

def record (s : State) (e : Event) : State := { s with log := s.log ++ [e] }

def push (s : State) (f : Frame) : State := { s with stack := f :: s.stack }

/-- Follow pointers to requests. -/
def access (s : State) (rs : List ℕ) : State :=
  { s with fault := s.fault || rs.any fun r => !s.live r }

/-- Call the future of a request, or release it, if there is one. -/
def touch (s : State) (r : ℕ) : State :=
  { s with
    log := s.log ++ (s.future r).toList.map fun f =>
      .touched r f (s.isReaping && s.submitted r) }

/-- `allocRequest`, once it has a future. -/
def link (s : State) (f : ℕ) : State :=
  let r := s.next
  { (s.access s.links.head.toList).record (.linked r) with
    links := s.links.push r
    next := r + 1
    live := Function.update s.live r true
    future := Function.update s.future r (some f)
    submitted := Function.update s.submitted r false }

/-- `freeRequest`, up to where the reference to the future is given up. -/
def unlink (s : State) (r : ℕ) (by' : Caller) : State :=
  let s := s.access (r :: ((s.links.prev r).toList ++ (s.links.next r).toList))
  ({ s with links := s.links.unlink r }.record (.freed r by')).touch r

/-- `freeRequest`, once the reference is given up. -/
def release (s : State) (r : ℕ) : State := { s with live := Function.update s.live r false }

/-- `freeRequest`, with Python attached. -/
def freeRequest (s : State) (r : ℕ) (by' : Caller) : State := (s.unlink r by').push (.free r)

/-- The rest of `getaddrinfo` and `getnameinfo`; `ok` is what libuv answers. -/
def submit (s : State) (k : Kind) (f : ℕ) (ok : Bool) : State :=
  let r := s.next
  let s := s.link f
  -- only `getaddrinfo` looks again whether the loop has been closed
  if k = .getaddrinfo ∧ s.closed then s.freeRequest r .submission
  else if ok then
    { s with submitted := Function.update s.submitted r true, flight := s.flight ++ [r] }
  else s.push (.fail r)

/-- `onAddrInfo` and `onNameInfo`, on either thread. -/
def onInfo (s : State) (r : ℕ) : State :=
  let s := { s with flight := s.flight.erase r }
  if s.isReaping then (s.unlink r .completion).release r
  else if s.closed then s.freeRequest r .completion
  else s.push (.complete r .building)

/-- `settle`, once the future has answered. -/
def settle (s : State) (r f : ℕ) (raised : Bool) : State :=
  if raised ∨ s.outcome f ≠ .pending then s.freeRequest r .completion
  else
    (({ s with outcome := Function.update s.outcome f .finished }.touch r).record
      (.settled r f s.closed)).push (.complete r .setting)

end State

/-! ## The machine -/

/-- What can happen next. -/
inductive Label where
  /-- `getaddrinfo` or `getnameinfo` needs a request. -/
  | request (k : Kind)
  /-- `create_future` returns, or it raises; `ok` is what libuv then answers. -/
  | created (f : Option ℕ) (ok : Bool)
  /-- Python code cancels a future. -/
  | cancel (f : ℕ)
  /-- Python code settles a future. -/
  | finish (f : ℕ)
  /-- `run_forever` -/
  | run
  /-- `uv_run` returns to `runLoop`. -/
  | stopped
  /-- Libuv, run by the loop's thread, completes a request. -/
  | complete (r : ℕ)
  /-- The result or the exception is built; if `ok` is not set there is neither. -/
  | built (ok : Bool)
  /-- `done()` returns, or it raises. -/
  | answered (raised : Bool)
  /-- Any other call into Python is over. -/
  | returned
  /-- `closeLoop` -/
  | close
  /-- `cancelAll` or `releaseFutures` looks at its request. -/
  | walk
  /-- Every handle is closed. `busy` is what `uv_loop_close` answers. -/
  | drained (busy : Bool)
  /-- The reaper is started, unless no thread can be had. -/
  | spawn (ok : Bool)
  /-- Libuv, run by the loop's thread, has nothing left. -/
  | drainedAll
  /-- Libuv, run by the reaper, completes a request. -/
  | reaped (r : ℕ)
  /-- The reaper has nothing left. -/
  | reaperDone
  /-- The loop object goes away. -/
  | dealloc
deriving DecidableEq, Repr

/-- The call into Python that is on top of the stack is over. -/
def State.returned (s : State) : Frame → Option State
  | .complete r .setting => some (s.freeRequest r .completion)
  | .fail r => some (s.freeRequest r .submission)
  | .free r => some (s.release r)
  | .close .dropping => some (s.push (.close (.cancelling s.links.head)))
  | .close (.clearing r) => some ((s.access [r]).push (.close (.releasing (s.links.next r))))
  | _ => none

/-- `cancelAll` and `releaseFutures`, at one request or at the end. -/
def State.walk (s : State) : Closing → Option State
  | .cancelling (some r) =>
    -- `uv_cancel` only has an effect on how the request completes
    some ((s.access [r]).push (.close (.cancelling (s.links.next r))))
  | .cancelling none => some (s.push (.close .draining))
  | .releasing (some r) =>
    let s := (s.access [r]).touch r
    some ({ s with future := Function.update s.future r none }.push (.close (.clearing r)))
  | _ => none

/-- One step. -/
def step (s : State) : Label → Option State
  | .request k =>
    if s.inPython ∧ s.closed = false then some (s.push (.alloc k)) else none
  | .created f ok =>
    match s.stack with
    | .alloc k :: rest =>
      match f with
      | none => some { s with stack := rest }
      | some f => some ({ s with stack := rest }.submit k f ok)
    | _ => none
  | .cancel f =>
    if s.outcome f = .pending then
      some { s with outcome := Function.update s.outcome f .cancelled }
    else none
  | .finish f =>
    if s.outcome f = .pending then
      some { s with outcome := Function.update s.outcome f .finished }
    else none
  | .run =>
    if s.inPython ∧ s.closed = false ∧ s.running = false then
      some { s.push .run with running := true }
    else none
  | .stopped =>
    match s.stack with
    | .run :: rest => some { s with stack := rest, running := false }
    | _ => none
  | .complete r =>
    if r ∈ s.flight ∧ s.stack.head?.any Frame.runsCallbacks then some (s.onInfo r) else none
  | .built ok =>
    match s.stack with
    | .complete r .building :: rest =>
      let s := { s with stack := rest }
      if ok then
        match s.future r with
        | some f => some ((s.touch r).push (.complete r (.asking f)))
        | none => some { s.push (.complete r .building) with fault := true }
      else some (s.freeRequest r .completion)
    | _ => none
  | .answered raised =>
    match s.stack with
    | .complete r (.asking f) :: rest => some ({ s with stack := rest }.settle r f raised)
    | _ => none
  | .returned =>
    match s.stack with
    | f :: rest => { s with stack := rest }.returned f
    | [] => none
  | .close =>
    if s.inPython ∧ s.closed = false ∧ s.running = false then
      some { s.push (.close .dropping) with closed := true }
    else none
  | .walk =>
    match s.stack with
    | .close c :: rest => { s with stack := rest }.walk c
    | _ => none
  | .drained busy =>
    match s.stack with
    | .close .draining :: rest =>
      let s := { s with stack := rest }
      if busy then
        if s.links.head ≠ none then some (s.push (.close (.releasing s.links.head)))
        else some (s.push (.close .drainingAll))
      else if s.flight = [] then some s else none
    | _ => none
  | .spawn ok =>
    match s.stack with
    | .close (.releasing none) :: rest =>
      let s := { s with stack := rest }
      if ok then some { s with reap := .running } else some (s.push (.close .drainingAll))
    | _ => none
  | .drainedAll =>
    match s.stack with
    | .close .drainingAll :: rest =>
      if s.flight = [] then some { s with stack := rest } else none
    | _ => none
  | .reaped r =>
    if r ∈ s.flight ∧ (s.reap = .running ∨ s.reap = .orphaned) then some (s.onInfo r) else none
  | .reaperDone =>
    if s.flight = [] ∧ (s.reap = .running ∨ s.reap = .orphaned) then
      some { s with reap := .finished }
    else none
  | .dealloc =>
    if s.stack = [] ∧ s.reap = .running then some { s with reap := .orphaned } else none

/-- A new loop, and everything that can happen to its requests. -/
def machine : Machine State Label where
  init :=
    { links := ⟨none, fun _ => none, fun _ => none⟩
      next := 0
      live := fun _ => false
      future := fun _ => none
      submitted := fun _ => false
      flight := []
      outcome := fun _ => .pending
      running := false
      closed := false
      reap := .synchronous
      stack := []
      fault := false
      log := [] }
  step := step

/-- A request reaches libuv on an open loop. `getaddrinfo` sees to this itself, by looking again
after `create_future`: if that has closed the loop, it takes the request off the list again. Such
a request is linked and taken off while the reaper may be at the same list; here, as everywhere in
the machine, a step of either thread is taken to be over before the other begins one. -/
def Open (s : State) : Label → Prop
  | .created (some _) _ => s.stack.head? = some (.alloc .getnameinfo) → s.closed = false
  | _ => True

instance : DecidableRel Open := fun s l => by
  unfold Open
  split <;> infer_instance

end Zuvloop.Dns.Requests
