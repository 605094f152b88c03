import Zuvloop.Handles.State

/-!
# The functions that open, close and count handles

The functions of `zig/transport.zig`, `zig/datagram.zig`, `zig/poller.zig`, `zig/process.zig`,
`zig/dns.zig` and `zig/loop.zig` that make a handle or a request, close a handle or run as its close
callback, as programs over the state of the loop. A program yields wherever the source runs Python
code, or may do so by allocating or releasing an object; what is released as a call ends may as well
be released after it. The number of arguments is taken to be right. What else these functions do
with a transport or a process is left out; `Zuvloop.Stream` and `Zuvloop.Process` are about that.

`exposed` is a call into Python code that is not followed by a check of `closed`, in an entry point
that goes on to make something.

## Main definitions

* `makeTransport`, `makeDatagram`, `add`, `spawnProcess`, `getaddrinfo`, `getnameinfo`,
  `startMetrics`: the entry points that make something.
* `remove`, `onPoll`, `rearm`, `destroy`: the pollers.
* `shutdownAndClose`, `closeHandle`, `onClosed`: the end of a handle.
* `closeLoop`, `walkClose`, `closeAllHandles`: the end of the loop.
* `entry`, `system`, `env`: the entry points, and when they may be started.
-/

namespace Zuvloop.Handles

open Reentrant

/-! ## The signature -/

/-- Questions that are answered at once, with a status that is negative for an error. -/
inductive Request where
  /-- Is there memory for an allocation? -/
  | alloc
  /-- `uv_tcp_init_ex`, `uv_pipe_init`, `uv_udp_init_ex` or `uv_poll_init`. -/
  | init
  /-- `uv_tcp_open`, `uv_pipe_open` or `uv_udp_open_ex`. -/
  | opened
  /-- `uv_spawn`. -/
  | spawn
  /-- `uv_poll_start`. -/
  | pollStart
  /-- `uv_timer_start` of the sampler. -/
  | timerStart
  /-- What can be resolved without a request: positive if it can. -/
  | literal
  /-- `uv_getaddrinfo` or `uv_getnameinfo`. -/
  | submit
  /-- `uv_loop_close`. -/
  | loopClose
  /-- Start a thread. -/
  | thread
  deriving DecidableEq

/-- Calls that run foreign code. -/
inductive Callback where
  /-- Convert an argument. -/
  | convert
  /-- Look up an attribute. -/
  | lookup
  /-- Allocate an object, which may collect garbage. -/
  | allocate
  /-- `create_future` of the loop. -/
  | createFuture
  /-- Call a Python callable. -/
  | call
  /-- Release an object, which may run its finalizer. -/
  | release
  /-- `uv_run`, which runs the callbacks of libuv. -/
  | uvRun
  deriving DecidableEq

/-- Unbounded loops. -/
inductive Proc where
  /-- The loop of `closeAllHandles`. -/
  | drain

/-- The entry points. -/
inductive Op where
  | makeTransport
  | makeDatagram
  | add (writer : Bool)
  | remove (writer : Bool)
  | getaddrinfo
  | getnameinfo
  | spawnProcess
  | startMetrics
  | shutdownAndClose (i : ℕ)
  | closeLoop
  | runLoop
  /-- The loop object is deallocated. -/
  | dealloc
  /-- The close callback of a handle. -/
  | onClosed (i : ℕ)
  | onPoll (i : ℕ) (status : ℤ)
  | onExit (i : ℕ)
  /-- A resolver request completes. -/
  | onResolved
  /-- A callback of libuv that only runs Python code. -/
  | callback
  deriving DecidableEq

/-- The signature; `none` is an exception, and an object or a number is given by a number. -/
abbrev sig : Signature where
  State := State
  Request := Request
  Answer := ℤ
  Callback := Callback
  Result := Option ℤ
  Proc := Proc
  Op := Op

/-- Programs over the state of the loop. -/
abbrev P := Prog sig

/-- The state. -/
def getState : P State := Prog.read

/-- Change the state. -/
def act (f : State → State) : P Unit := Prog.modify f

/-- Ask a question. -/
def request (q : Request) : P ℤ := Prog.request (S := sig) q

/-- Run foreign code. -/
def foreign (c : Callback) : P (Option ℤ) := Prog.foreign (S := sig) c

/-- Run Python code that is not followed by a check of `closed`. -/
def exposed (c : Callback) : P (Option ℤ) := do
  act fun s => { s with unchecked := s.unchecked + 1 }
  let r ← foreign c
  act fun s => { s with unchecked := s.unchecked - 1 }
  return r

/-- What `checkClosed` raises. -/
def closedError : Outcome := .raised (.runtimeError "Event loop is closed")

/-- What a call that raises nothing answers. It is read off when nothing that the loop could still
be asked for is left; references may still be given back after that. -/
def finished : P Outcome := do
  let s ← getState
  return .returned s.closed

/-! ## Transports -/

/-- The value of `KIND_TCP`. -/
def kindTcp : ℤ := 0

/-- The attribute lookups and allocations of `makeTransport` and `makeDatagram`, in turn: the first
exception ends them, unless it is to be ignored. -/
def prepare (run : Callback → P (Option ℤ)) : List (Callback × Bool) → P Bool
  | [] => return true
  | (c, ignored) :: rest => do
    let r ← run c
    if r.isNone && !ignored then return false
    prepare run rest

/-- What `makeTransport` prepares before the adoption of the descriptor: the object, its context,
`bindProtocol`, two lookups and three handles. -/
def transportSteps : List (Callback × Bool) :=
  [(.allocate, false), (.allocate, false),
    (.release, true), (.lookup, true), (.lookup, true), (.lookup, true), (.lookup, true),
    (.lookup, true), (.lookup, true), (.lookup, true),
    (.lookup, false), (.lookup, false),
    (.allocate, false), (.allocate, false), (.allocate, false)]

/-- `_make_transport`. -/
def makeTransport : P Outcome := do
  let s ← getState
  if s.closed then return closedError
  let some _ ← exposed .convert | return .raised .python
  let some kind ← exposed .convert | return .raised .python
  let prepared ← prepare exposed transportSteps
  if !prepared then return .raised .python
  let capacity ← request .alloc
  if capacity < 0 then return .raised .memoryError
  let initStatus ← request .init
  if initStatus < 0 then return .raised (.osError initStatus)
  let s ← getState
  let i := s.handles.length
  act (.handleInit (if kind = kindTcp then .tcp else .pipe))
  act (.made .makeTransport .init)
  act .count
  act (.setOpen i true)
  let openStatus ← request .opened
  if openStatus < 0 then
    act (.closeExternalHandle i .onOpenFailed)
    act (.setOpen i false)
    return .raised (.osError openStatus)
  finished

/-- What `makeDatagram` prepares: the object, its context and `bindProtocol`. -/
def datagramSteps : List (Callback × Bool) :=
  [(.allocate, false), (.allocate, false),
    (.release, true), (.lookup, true), (.lookup, true), (.lookup, true), (.lookup, true),
    (.lookup, true)]

/-- `_make_datagram_transport`. -/
def makeDatagram : P Outcome := do
  let s ← getState
  if s.closed then return closedError
  let some _ ← foreign .convert | return .raised .python
  let some _ ← foreign .convert | return .raised .python
  let _ ← foreign .convert
  let prepared ← prepare foreign datagramSteps
  if !prepared then return .raised .python
  let capacity ← request .alloc
  if capacity < 0 then return .raised .memoryError
  let s ← getState
  if s.closed then return closedError
  let initStatus ← request .init
  if initStatus < 0 then return .raised (.osError initStatus)
  let i := s.handles.length
  act (.handleInit .udp)
  act (.made .makeDatagram .init)
  act .count
  act (.setOpen i true)
  let openStatus ← request .opened
  if openStatus < 0 then
    act (.setOpen i false)
    act (.closeExternalHandle i .onOpenFailed)
    return .raised (.osError openStatus)
  finished

/-- `releaseSocketView`, which disarms the socket object if there is one. -/
def releaseSocketView : P Unit := do
  let _ ← foreign .call
  let _ ← foreign .release

/-- `shutdownAndClose`, of a stream or a datagram transport. -/
def shutdownAndClose (i : ℕ) : P Unit := do
  let s ← getState
  if !(s.handle i).isOpen then return
  act (.setOpen i false)
  releaseSocketView
  act (.closeExternalHandle i .onClosed)

/-- `closeFromLoop`, of a stream or a datagram transport. -/
def closeTransportFromLoop (i : ℕ) : P Unit := do
  act (.setOpen i false)
  releaseSocketView
  act (.closeExternalHandle i .onClosed)

/-! ## Processes -/

/-- `closeHandle` of a process. -/
def closeHandle (i : ℕ) (s : State) : State :=
  if (s.handle i).isOpen then (s.setOpen i false).closeExternalHandle i .onClosed else s

/-- `closeFromLoop` of a process. -/
def closeProcessFromLoop (i : ℕ) (s : State) : State :=
  (s.setOpen i false).closeExternalHandle i .onClosed

/-- `onExit`: whether or not the callback can be queued, the handle is closed. -/
def onExit (i : ℕ) : P Unit := do
  let some _ ← foreign .allocate | act (closeHandle i)
  act (closeHandle i)

/-- `_spawn_process`. -/
def spawnProcess : P Outcome := do
  let s ← getState
  if s.closed then return closedError
  -- the strings, then `stdio`
  let some _ ← foreign .convert | return .raised .python
  let memory ← request .alloc
  if memory < 0 then return .raised .memoryError
  let some _ ← foreign .convert | return .raised .python
  let some _ ← foreign .allocate | return .raised .python
  let capacity ← request .alloc
  if capacity < 0 then return .raised .memoryError
  -- `flags`, `uid` and `gid`
  let some _ ← foreign .convert | return .raised .python
  let some _ ← foreign .convert | return .raised .python
  let some _ ← foreign .convert | return .raised .python
  let s ← getState
  if s.closed then return closedError
  let status ← request .spawn
  let i := s.handles.length
  act (.handleInit .process)
  act (.made .spawnProcess .init)
  act .count
  if status < 0 then
    act (.closeExternalHandle i .onClosed)
    return .raised (.osError status)
  act (.setOpen i true)
  finished

/-! ## Pollers -/

/-- Release the callback that was taken out of a slot, if there was one. -/
def release (slot : Option ℤ) : P Unit := do
  if slot.isSome then
    let _ ← foreign .release

/-- Take the callbacks out of the slots of a poller. -/
def State.takeCallbacks (i : ℕ) (s : State) : State :=
  s.update i fun h => { h with reader := none, writer := none }

/-- `destroy`: detaches the handles and closes the descriptor before releasing anything. -/
def destroy (i : ℕ) : P Unit := do
  let s ← getState
  act (.takeCallbacks i)
  act (.closeExternalHandle i .onClosed)
  release (s.handle i).reader
  release (s.handle i).writer

/-- `get`: the poller of a descriptor, which is made if there is none. -/
def get (fd : ℤ) : P (Except Exc ℕ) := do
  let s ← getState
  match s.poller fd with
  | some i => return .ok i
  | none =>
    let memory ← request .alloc
    if memory < 0 then return .error .memoryError
    let status ← request .init
    if status < 0 then return .error (.osError status)
    let i := s.handles.length
    act (.handleInit (.poll fd))
    act (.made .add .init)
    act .count
    let room ← request .alloc
    if room < 0 then
      act (.closeExternalHandle i .onClosed)
      return .error .memoryError
    act (.putPoller fd i)
    return .ok i

/-- What a poller is interested in. -/
def interest (h : Handle) : Events := ⟨h.reader.isSome, h.writer.isSome⟩

/-- The descriptor of a poller. -/
def Handle.fd (h : Handle) : ℤ :=
  match h.kind with
  | .poll fd => fd
  | _ => -1

/-- `rearm`: poll for what is registered, or for nothing. -/
def rearm (e : EntryPoint) (i : ℕ) : P (Except Exc Unit) := do
  let s ← getState
  if interest (s.handle i) = (s.handle i).events then return .ok ()
  act fun t => t.update i fun h => { h with events := interest (s.handle i) }
  if interest (s.handle i) = {} then
    act (.removePoller (s.handle i).fd)
    destroy i
    return .ok ()
  let status ← request .pollStart
  if status < 0 then return .error (.osError status)
  act (.made e .start)
  return .ok ()

/-- The slot of a poller for one direction. -/
def Handle.slot (writer : Bool) (h : Handle) : Option ℤ := if writer then h.writer else h.reader

/-- Change the slot of a poller for one direction. -/
def Handle.setSlot (writer : Bool) (callback : Option ℤ) (h : Handle) : Handle :=
  if writer then { h with writer := callback } else { h with reader := callback }

/-- `add_reader` and `add_writer`. -/
def add (writer : Bool) : P Outcome := do
  let s ← getState
  if s.closed then return closedError
  let some fd ← foreign .convert | return .raised .python
  let some h ← foreign .allocate | return .raised .python
  let s ← getState
  if s.closed then
    let _ ← foreign .release
    return closedError
  match ← get fd with
  | .error exc =>
    let _ ← foreign .release
    return .raised exc
  | .ok i =>
    let s ← getState
    act fun s => s.update i (Handle.setSlot writer (some h))
    let armed ← rearm .add i
    let outcome ← finished
    -- the superseded callback
    release ((s.handle i).slot writer)
    match armed with
    | .error exc => return .raised exc
    | .ok () => return outcome

/-- `remove_reader` and `remove_writer`. -/
def remove (writer : Bool) : P Outcome := do
  let some fd ← foreign .convert | return .raised .python
  let s ← getState
  match s.poller fd with
  | none => finished
  | some i =>
    if ((s.handle i).slot writer).isNone then finished
    else
      act fun s => s.update i (Handle.setSlot writer none)
      let armed ← rearm .remove i
      let outcome ← finished
      let _ ← foreign .release
      match armed with
      | .error exc => return .raised exc
      | .ok () => return outcome

/-- `onPoll`: an error stops the handle, and what stays registered is polled for again. Queueing the
callbacks runs no Python code. -/
def onPoll (i : ℕ) (status : ℤ) : P Unit := do
  if status < 0 then
    act fun s => s.update i fun h => { h with events := {} }
    match ← rearm .onPoll i with
    | .ok () => return
    | .error _ =>
      -- `writeUnraisable`
      let _ ← foreign .call

/-! ## Resolver requests -/

/-- Link a request into the list of the loop. -/
def linkRequest (e : EntryPoint) : P Unit := do
  act fun s => { s with requests := s.requests + 1 }
  act (.made e .link)

/-- `freeRequest`. -/
def freeRequest : P Unit := do
  act fun s => { s with requests := s.requests - 1 }
  let _ ← foreign .release

/-- `allocRequest`. -/
def allocRequest (e : EntryPoint) : P (Except Exc Unit) := do
  let memory ← request .alloc
  if memory < 0 then return .error .memoryError
  let some _ ← exposed .createFuture | return .error .python
  linkRequest e
  return .ok ()

/-- Submit a linked request. -/
def submitRequest (e : EntryPoint) : P Outcome := do
  let status ← request .submit
  if status < 0 then
    let _ ← foreign .call
    freeRequest
    return .raised (.gaierror status)
  act (.made e .submit)
  finished

/-- `_getaddrinfo`. -/
def getaddrinfo : P Outcome := do
  let s ← getState
  if s.closed then return closedError
  -- host, port, family, type, protocol and flags
  let prepared ← prepare foreign (List.replicate 6 (.convert, false))
  if !prepared then return .raised .python
  let s ← getState
  if s.closed then return closedError
  let literal ← request .literal
  if literal < 0 then return .raised (.gaierror literal)
  if 0 < literal then
    -- nothing is requested, and the future is made without a look at the loop
    let outcome ← finished
    let some _ ← foreign .createFuture | return .raised .python
    let _ ← foreign .call
    return outcome
  match ← allocRequest .getaddrinfo with
  | .error exc => return .raised exc
  | .ok () =>
    let s ← getState
    if s.closed then
      freeRequest
      return closedError
    submitRequest .getaddrinfo

/-- `_getnameinfo`. -/
def getnameinfo : P Outcome := do
  let s ← getState
  if s.closed then return closedError
  -- the address and the flags
  let some _ ← exposed .convert | return .raised .python
  let some _ ← exposed .convert | return .raised .python
  match ← allocRequest .getnameinfo with
  | .error exc => return .raised exc
  | .ok () => submitRequest .getnameinfo

/-- `onAddrInfo` and `onNameInfo`: settle the future and free the request. -/
def onResolved : P Unit := do
  let _ ← foreign .call
  freeRequest

/-! ## The sampler -/

/-- `_start_metrics`. -/
def startMetrics : P Outcome := do
  let s ← getState
  if s.closed then return closedError
  let some interval ← foreign .convert | return .raised .python
  if interval ≤ 0 then
    return .raised (.valueError "the sampling interval must be positive")
  let _ ← foreign .release
  let status ← request .timerStart
  if status < 0 then return .raised (.osError status)
  act (.made .startMetrics .start)
  finished

/-! ## Close callbacks -/

/-- The callback a handle was closed with: `onClosed`, `onOpenFailed` or `onCloseFreeState`. -/
def onClosed (i : ℕ) : P Unit := do
  let s ← getState
  act (.retire i)
  if (s.handle i).closing ≠ some .onCloseFreeState then
    act .externalHandleClosed
    -- a stream tells its server; every one of them gives up its storage
    let _ ← foreign .call
    let _ ← foreign .release

/-! ## The end of the loop -/

/-- Do something for each element of a list. -/
def forEach {α : Type} : List α → (α → P Unit) → P Unit
  | [], _ => return
  | a :: as, f => do
    f a
    forEach as f

/-- `walkClose`. -/
def walkClose (i : ℕ) : P Unit := do
  let s ← getState
  if s.isClosing i then return
  match (s.handle i).kind with
  | .tcp | .pipe | .udp => closeTransportFromLoop i
  | .process => act (closeProcessFromLoop i)
  | _ => act (.uvClose i .onCloseFreeState)

/-- The handles `uv_walk` visits: those that are linked into the loop. -/
def State.linked (s : State) : List ℕ :=
  (List.range s.handles.length).filter fun i => !(s.handle i).closed

/-- `closeAll`: destroy every poller that is still in the map when the iterator gets to it. -/
def closeAll : P Unit := do
  let s ← getState
  forEach s.pollers fun entry => do
    let s ← getState
    if entry ∈ s.pollers then destroy entry.2
  act fun s => { s with pollers := [] }

/-- `while (hasHandles(st)) _ = uv.uv_run(st.uvloop, .once)`. -/
def drain : P Unit := do
  let s ← getState
  if s.linked ≠ [] then
    let _ ← foreign .uvRun
    Prog.invoke (S := sig) .drain

/-- `closeAllHandles`. -/
def closeAllHandles : P Unit := do
  let s ← getState
  forEach s.linked walkClose
  Prog.invoke (S := sig) .drain
  act fun s => { s with asserts := s.asserts ++ [s.external == 0 && s.closing == 0] }
  let status ← request .loopClose
  if status = 0 then return
  let s ← getState
  if s.requests ≠ 0 then
    -- `startDnsReaper`
    let _ ← foreign .release
    let thread ← request .thread
    if 0 ≤ thread then return
  let _ ← foreign .uvRun

/-- What `closeLoop` and `dealloc` do once the loop is marked closed: release what is queued, then
close every handle. Stopping the handles of the loop runs no Python code. -/
def teardown : P Unit := do
  let _ ← foreign .release
  closeAll
  closeAllHandles

/-- `_close`. -/
def closeLoop : P Outcome := do
  let s ← getState
  if s.running then return .raised (.runtimeError "Cannot close a running event loop")
  if s.closed then finished
  else
    act .markClosed
    teardown
    finished

/-- `dealloc` of the loop object. -/
def dealloc : P Unit := do
  let s ← getState
  act .markClosed
  if s.closed then
    let _ ← foreign .release
  else teardown

/-- `_run`. -/
def runLoop : P Outcome := do
  let s ← getState
  if s.closed then return closedError
  if s.running then return .raised (.runtimeError "This event loop is already running")
  act fun s => { s with running := true }
  let _ ← foreign .uvRun
  act fun s => { s with running := false }
  -- `drainFlushList`
  let _ ← foreign .call
  finished

/-! ## The system -/

/-- Record how a call ended. -/
def call (e : EntryPoint) (p : P Outcome) : P Unit := do
  let outcome ← p
  act fun s => { s with calls := s.calls ++ [(e, outcome)] }

/-- The program of an entry point. -/
def entry : Op → P Unit
  | .makeTransport => call .makeTransport makeTransport
  | .makeDatagram => call .makeDatagram makeDatagram
  | .add writer => call .add (add writer)
  | .remove writer => call .remove (remove writer)
  | .getaddrinfo => call .getaddrinfo getaddrinfo
  | .getnameinfo => call .getnameinfo getnameinfo
  | .spawnProcess => call .spawnProcess spawnProcess
  | .startMetrics => call .startMetrics startMetrics
  | .shutdownAndClose i => shutdownAndClose i
  | .closeLoop => call .closeLoop closeLoop
  | .runLoop => call .runLoop runLoop
  | .dealloc => dealloc
  | .onClosed i => onClosed i
  | .onPoll i status => onPoll i status
  | .onExit i => onExit i
  | .onResolved => onResolved
  | .callback => do
    let _ ← foreign .call

/-- The loop and everything that makes or closes its handles. -/
def system : System sig where
  body := fun .drain => drain
  entry := entry
  init := init

/-- The kinds of handles that `shutdownAndClose` is for. -/
def Kind.transport : Kind → Bool
  | .tcp | .pipe | .udp => true
  | _ => false

/-- The kind of handle that watches a descriptor. -/
def Kind.isPoll : Kind → Bool
  | .poll _ => true
  | _ => false

/-- When an entry point may be started. The callbacks of libuv run in `uv_run`, everything else
outside of it; a transport closes its handle in both. libuv runs one close callback for each
`uv_close`, and no other callback of a handle that is closing. The loop object is deallocated when
nothing uses it. -/
def Startable (stack : List Callback) (s : State) : Op → Prop
  | .onClosed i => stack.head? = some .uvRun ∧ s.isClosing i = true ∧ (s.handle i).closed = false
  | .onPoll i _ => stack.head? = some .uvRun ∧ (s.handle i).kind.isPoll = true ∧
      s.isClosing i = false
  | .onExit i => stack.head? = some .uvRun ∧ (s.handle i).kind = .process ∧ s.isClosing i = false
  | .onResolved => stack.head? = some .uvRun ∧ s.requests ≠ 0
  | .callback => stack.head? = some .uvRun
  | .shutdownAndClose i => (s.handle i).kind.transport = true
  | .dealloc => stack = []
  | .makeTransport | .makeDatagram | .add _ | .remove _ | .getaddrinfo | .getnameinfo
  | .spawnProcess | .startMetrics | .closeLoop | .runLoop => stack.head? ≠ some .uvRun

/-- What libuv may answer: it refuses to start a timer that is closing. -/
def Answers (s : State) (q : Request) (status : ℤ) : Prop :=
  q = .timerStart → s.isClosing sampler = true → status < 0

/-- What the outside may do. -/
def env : Env sig where
  answers := Answers
  returns := fun _ _ _ => True
  starts := Startable

instance (stack : List Callback) (s : State) (op : Op) : Decidable (Startable stack s op) := by
  cases op <;> unfold Startable <;> infer_instance

instance (s : State) (q : Request) (a : ℤ) : Decidable (Answers s q a) := by
  unfold Answers
  infer_instance

instance (c : Config sig) (l : Label sig) : Decidable (env.Allows c l) :=
  match l with
  | .tau => .isTrue trivial
  | .answer a =>
    match h : c.running with
    | some (.ask q _) => decidable_of_iff (Answers c.state q a) (by simp [Env.Allows, env, h])
    | none | some (.ret _) | some (.get _) | some (.set _ _) | some (.yield _ _)
    | some (.call _ _) => .isFalse (by simp [Env.Allows, h])
  | .start op => inferInstanceAs (Decidable (Startable (c.stack.map Prod.fst) c.state op))
  | .resume _ =>
    match h : c.stack with
    | _ :: _ => .isTrue (by simp [Env.Allows, env, h])
    | [] => .isFalse (by simp [Env.Allows, h])

end Zuvloop.Handles
