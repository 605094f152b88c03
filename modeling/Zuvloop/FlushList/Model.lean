import Mathlib.Data.Nat.Notation
import Zuvloop.Collections.Links
import Zuvloop.Transition

/-!
# The list of transports that have something to flush

`zig/loop.zig`: `scheduleFlush` links a transport into the list, `drainFlushList` and
`dropFlushList` detach the whole list and walk it. A visit calls Python code, and so does giving up
the reference that the list held; that code may write again, flush, abort, run the loop or close it,
and start another pass while the first one still has transports before it.

Transports and buffer views are called by numbers. Of a transport, only its pending batch is kept:
what becomes of a flushed batch, and when a transport flushes or discards it of its own accord, is
left to the outside.

## Main definitions

* `Pass`, `State`: a pass over a detached list, and all that the functions read and write.
* `State.scheduleFlush`, `State.start`, `State.visit`, `State.finish`: the functions.
* `machine`: everything that can happen, in any order.
-/

namespace Zuvloop.FlushList

open Transition Linked

/-! ## State -/

/-- `drainFlushList` or `dropFlushList`. -/
inductive Kind where
  | drain
  | drop
deriving DecidableEq, Repr

/-- The function that makes a pass. -/
inductive Caller where
  | onFlush
  /-- `runLoop`, when libuv has returned. -/
  | runLoop
  | closeLoop
  | dealloc
deriving DecidableEq, Repr

/-- Where a pass is. -/
inductive Stage where
  /-- It looks at its next transport. -/
  | ready
  /-- The batch of a transport is being flushed. -/
  | visiting (t : ℕ)
  /-- The reference to a transport has been given up. -/
  | releasing (t : ℕ)
deriving DecidableEq, Repr

/-- A pass over a list that it has detached. -/
structure Pass where
  kind : Kind
  caller : Caller
  /-- Passes are numbered as they start. -/
  number : ℕ
  /-- The local variable `node`. -/
  node : Option ℕ
  stage : Stage
  /-- History: what was on the list when the pass started. -/
  listed : List ℕ
deriving DecidableEq, Repr

/-- A function that has called out. -/
inductive Frame where
  /-- `runLoop`, in `uv_run`. -/
  | run
  /-- `closeLoop`, releasing the queues before it comes to the list. -/
  | closing
  | pass (p : Pass)
deriving DecidableEq, Repr

/-- What is kept a record of. -/
inductive Event where
  /-- `scheduleFlush` has put a transport on the list. -/
  | queued (t : ℕ)
  /-- `appendPending` has stored a view. -/
  | stored (t v : ℕ)
  /-- A batch was flushed or discarded, by a pass or otherwise. -/
  | emptied (k : Kind) (pass : Option ℕ) (t : ℕ) (views : List ℕ)
  /-- A pass has given up the reference to a transport. -/
  | released (pass t : ℕ)
deriving DecidableEq, Repr

/-- The loop and its transports, as far as the list goes. -/
structure State where
  /-- `flush_head` -/
  head : Option ℕ
  /-- `flush_next`, of each transport. -/
  next : ℕ → Option ℕ
  /-- `FLUSH_QUEUED`, of each transport. -/
  queued : ℕ → Bool
  /-- The references to each transport that `scheduleFlush` took and nobody has given up. -/
  refs : ℕ → ℕ
  /-- `pending_views`, of each transport, as far as they are in use. -/
  pending : ℕ → List ℕ
  /-- The number of the next view. -/
  nextView : ℕ
  /-- `running` -/
  running : Bool
  /-- `closed` -/
  closed : Bool
  /-- `flusher_active` -/
  flusherActive : Bool
  /-- The functions that have called out, the innermost first. -/
  stack : List Frame
  /-- The number of the next pass. -/
  passes : ℕ
  /-- History: the transports that `scheduleFlush` has put on the list since it was last detached,
  the latest first. -/
  queue : List ℕ
  log : List Event

/-- The capacity of a batch. -/
def pendingMax : ℕ := 4

/-- The transport that a pass is flushing. -/
def Pass.visiting (p : Pass) : Option ℕ :=
  match p.stage with
  | .visiting t => some t
  | .ready | .releasing _ => none

/-- Python code can run. -/
def Frame.runsPython : Frame → Bool
  | .run | .closing => true
  | .pass p => p.stage ≠ .ready

def Frame.pass? : Frame → Option Pass
  | .pass p => some p
  | .run | .closing => none

namespace State

/-- The passes under way, the innermost first. -/
def underWay (s : State) : List Pass := s.stack.filterMap Frame.pass?

/-- Python code can run. -/
def inPython (s : State) : Bool := s.stack.head?.all Frame.runsPython

/-! ## Functions -/

def record (s : State) (e : Event) : State := { s with log := s.log ++ [e] }

/-- `flushPending` and `discardPending`, as far as the batch goes. -/
def empty (s : State) (k : Kind) (pass : Option ℕ) (t : ℕ) : State :=
  { s with pending := Function.update s.pending t [] }.record (.emptied k pass t (s.pending t))

/-- One round of the loop in `appendPending`. -/
def store (s : State) (t : ℕ) : State :=
  { s with
    pending := Function.update s.pending t (s.pending t ++ [s.nextView])
    nextView := s.nextView + 1 }.record (.stored t s.nextView)

/-- `scheduleFlush` -/
def scheduleFlush (s : State) (t : ℕ) : State :=
  if s.closed then s.empty .drop none t
  else if s.queued t then s
  else
    { s with
      queued := Function.update s.queued t true
      refs := Function.update s.refs t (s.refs t + 1)
      next := Function.update s.next t s.head
      head := some t
      flusherActive := true
      queue := t :: s.queue }.record (.queued t)

/-- `drainFlushList` and `dropFlushList` detach the list. -/
def start (s : State) (k : Kind) (caller : Caller) : State :=
  { s with
    head := none
    stack := .pass ⟨k, caller, s.passes, s.head, .ready, s.queue⟩ :: s.stack
    passes := s.passes + 1
    queue := [] }

/-- `py.decref`, of a transport that a pass has visited. -/
def decref (s : State) (pass t : ℕ) : State :=
  { s with refs := Function.update s.refs t (s.refs t - 1) }.record (.released pass t)

/-- A pass comes to a transport; `rest` is what lies below the pass. -/
def visit (s : State) (p : Pass) (t : ℕ) (rest : List Frame) : State :=
  let node := s.next t
  let s := { s with
    next := Function.update s.next t none
    queued := Function.update s.queued t false }
  match p.kind with
  | .drain =>
    { s with stack := .pass { p with node, stage := .visiting t } :: rest }.empty
      .drain (some p.number) t
  | .drop =>
    ({ s with stack := .pass { p with node, stage := .releasing t } :: rest }.empty
      .drop (some p.number) t).decref p.number t

/-- A pass is over. -/
def finish (s : State) (p : Pass) (rest : List Frame) : State :=
  let s := { s with stack := rest }
  match p.caller with
  | .onFlush => if s.head = none then { s with flusherActive := false } else s
  | .closeLoop => { s with flusherActive := false }
  | .runLoop | .dealloc => s

end State

/-! ## The machine -/

/-- What can happen next. -/
inductive Label where
  /-- A write stores a view in the batch of its transport. -/
  | store (t : ℕ)
  /-- A write calls `scheduleFlush`. -/
  | schedule (t : ℕ)
  /-- A transport flushes its batch, or discards it. -/
  | empty (k : Kind) (t : ℕ)
  /-- `_run()` -/
  | run
  /-- Libuv calls the prepare handle. -/
  | onFlush
  /-- `uv_run` returns. -/
  | stopped
  /-- `closeLoop` -/
  | close
  /-- The loop object goes away. -/
  | dealloc
  /-- A pass looks at its next transport. -/
  | next
  /-- Python code returns to a pass, or to `closeLoop`. -/
  | returned
deriving DecidableEq, Repr

/-- One step. -/
def step (s : State) : Label → Option State
  | .store t =>
    if s.inPython ∧ (s.pending t).length < pendingMax then some (s.store t) else none
  | .schedule t => if s.inPython then some (s.scheduleFlush t) else none
  | .empty k t => if s.inPython then some (s.empty k none t) else none
  | .run =>
    if s.inPython ∧ s.closed = false ∧ s.running = false then
      some { s with stack := .run :: s.stack, running := true }
    else none
  | .onFlush =>
    if s.stack.head? = some .run ∧ s.flusherActive then some (s.start .drain .onFlush) else none
  | .stopped =>
    match s.stack with
    | .run :: rest => some ({ s with stack := rest, running := false }.start .drain .runLoop)
    | _ => none
  | .close =>
    if s.inPython ∧ s.closed = false ∧ s.running = false then
      some { s with stack := .closing :: s.stack, closed := true }
    else none
  | .dealloc => if s.stack = [] then some ({ s with closed := true }.start .drop .dealloc) else none
  | .next =>
    match s.stack with
    | .pass p :: rest =>
      if p.stage = .ready then
        match p.node with
        | some t => some (s.visit p t rest)
        | none => some (s.finish p rest)
      else none
    | _ => none
  | .returned =>
    match s.stack with
    | .closing :: rest => some ({ s with stack := rest }.start .drop .closeLoop)
    | .pass p :: rest =>
      match p.stage with
      | .ready => none
      | .visiting t =>
        some ({ s with stack := .pass { p with stage := .releasing t } :: rest }.decref p.number t)
      | .releasing _ => some { s with stack := .pass { p with stage := .ready } :: rest }
    | _ => none

/-- A new loop, and everything that can happen to its list. -/
def machine : Machine State Label where
  init :=
    { head := none
      next := fun _ => none
      queued := fun _ => false
      refs := fun _ => 0
      pending := fun _ => []
      nextView := 0
      running := false
      closed := false
      flusherActive := false
      stack := []
      passes := 0
      queue := []
      log := [] }
  step := step

/-- Every step. -/
def Any (_ : State) (_ : Label) : Prop := True

instance : DecidableRel Any := fun _ _ => inferInstanceAs (Decidable True)

end Zuvloop.FlushList
