import Zuvloop.Reentrant.Machine
import Zuvloop.Stream.State

/-!
# The functions of the stream transport

The functions of `zig/transport.zig`, and those of `zig/loop.zig` that flush the transports, as
programs over the state of the loop. A program yields wherever the source runs Python code: in a
method of the protocol, in the exception handler, while a written object is iterated over or
exports its buffer, and while the socket object or the server is told of the close. Releasing the
view of a write runs no Python code, since every view is one of an exact `bytes` object.

Attribute lookups on the protocol object and instance checks are taken to run no Python code that
calls back, and `PyContext_Exit` to succeed. A read is one entry point, which runs `onAlloc` and
`onRead` the way `uv__read` does. The loop around the transports is reduced to what they meet:
`onIdle` runs one batch, and the other handles of the loop are callbacks that run Python code.

## Main definitions

* `forceClose`, `closeTransport`, `shutdownAndClose`, `onClosed`: teardown.
* `flushPending`, `writeBufs`, `queueWrite`, `appendPending`, `submitWrite`, `onWritten`: writing.
* `onAlloc`, `onRead`, `startReading`: reading.
* `entry`, `system`, `env`: the entry points, and when they may be started.
-/

namespace Zuvloop.Stream

open Reentrant

/-! ## The signature -/

/-- Questions the transport asks. -/
inductive Request where
  /-- Is there memory for an allocation? -/
  | alloc
  /-- Can the context of the transport be entered? -/
  | enterContext
  /-- `uv_try_write` of this many bytes, in this many buffers. -/
  | tryWrite (size count : ℕ)
  /-- `uv_write` of this many bytes, in this many buffers. -/
  | uvWrite (t size count : ℕ)
  /-- `uv_shutdown`. -/
  | uvShutdown
  /-- `uv_read_start`. -/
  | readStart
  /-- The buffer that `get_buffer` returned. -/
  | exportBuffer
  /-- `read`, by libuv. -/
  | read
  /-- `uv_tcp_init_ex` or `uv_pipe_init`. -/
  | init
  /-- `uv_tcp_open` or `uv_pipe_open`. -/
  | opened
deriving DecidableEq

/-- Their answers; each question reads what it needs. -/
structure Answer where
  /-- The answer to `alloc`, `enterContext` and `exportBuffer`. -/
  ok : Bool
  /-- A libuv status, or the number of bytes. -/
  status : Int
  /-- The size of libuv's write queue, or of the exported buffer. -/
  size : ℕ

/-- Python code the transport runs. -/
inductive Callback where
  /-- A method of the protocol. -/
  | protocol (t : ℕ) (m : Method)
  /-- `call_exception_handler`. -/
  | exceptionHandler
  /-- `PySequence_Fast` of the argument of `writelines`. -/
  | iterate
  /-- `acquireWriteView` of a written object. -/
  | acquire
  /-- The conversion of a water mark. -/
  | index
  /-- `detach()` of the socket object, or `close()` of the pipe. -/
  | disarm (t : ℕ)
  /-- `_detach` of the server. -/
  | detach (t : ℕ)
  /-- A callback of the ready queue that is no transport's, or of another libuv handle. -/
  | other
  /-- Finalizers of what a reference was the last one to. -/
  | finalizer
deriving DecidableEq

/-- How Python code ended; each caller reads what it needs. -/
structure Result where
  /-- The exception it raised. -/
  raised : Option Exc
  /-- The bytes of the exported buffer. -/
  data : Bytes
  /-- The truth value it returned. -/
  truth : Bool
  /-- The integer, or the number of items. -/
  value : Int

/-- The unbounded loops. -/
inductive Proc where
  /-- The `while` loop of `appendPending`. -/
  | makeRoom (t : ℕ)

/-- The entry points. -/
inductive Op where
  /-- `write`. -/
  | write (t : ℕ)
  /-- `writelines`. -/
  | writelines (t : ℕ)
  /-- `write_eof`. -/
  | writeEof (t : ℕ)
  /-- `close`. -/
  | close (t : ℕ)
  /-- `abort`. -/
  | abort (t : ℕ)
  /-- `_force_close`. -/
  | forceClose (t : ℕ) (exc : Option Exc)
  /-- `pause_reading`. -/
  | pauseReading (t : ℕ)
  /-- `resume_reading`. -/
  | resumeReading (t : ℕ)
  /-- `set_write_buffer_limits`; whether a mark is given and not `None`. -/
  | setWriteBufferLimits (t : ℕ) (high low : Bool)
  /-- `set_protocol`. -/
  | setProtocol (t : ℕ) (p : Protocol)
  /-- `_adopt_socket_view`. -/
  | adoptSocketView (t : ℕ)
  /-- `_adopt_pipe`. -/
  | adoptPipe (t : ℕ)
  /-- `_make_transport`; `reads` unless it is a write pipe on something that is no socket. -/
  | makeTransport (writePipe : Bool) (p : Protocol) (server reads waiter : Bool)
  /-- `call_soon`. -/
  | callSoon
  /-- `stop`. -/
  | stop
  /-- `_run`, up to `uv_run`. -/
  | runBegin
  /-- `_run`, from the return of `uv_run` on. -/
  | runEnd
  /-- The idle handle's callback. -/
  | onIdle
  /-- libuv runs the prepare handles. -/
  | prepare
  /-- libuv polls. -/
  | poll
  /-- A readable stream. -/
  | readable (t : ℕ)
  /-- libuv sends some of its queue. -/
  | drain (t queueSize : ℕ)
  /-- A write request completes. -/
  | onWritten (t : ℕ) (status : Int) (queueSize : ℕ)
  /-- The close callback of a stream. -/
  | onClosed (t : ℕ)
  /-- The close callback of a stream that could not be opened. -/
  | onOpenFailed
  /-- A callback of another handle. -/
  | onOther

/-- The signature of the transport's programs. -/
abbrev sig : Signature where
  State := State
  Request := Request
  Answer := Answer
  Callback := Callback
  Result := Result
  Proc := Proc
  Op := Op

/-- A program of the transport. -/
abbrev P (α : Type) : Type := Prog sig α

/-! ## Primitives -/

/-- The state. -/
def getState : P State := Prog.read

/-- A transport. -/
def self (t : ℕ) : P Transport := (fun s : State => s.tr t) <$> getState

/-- Change the state. -/
def update (f : State → State) : P Unit := Prog.modify f

/-- Perform an act on a transport. -/
def act (t : ℕ) (a : Act) : P Unit := update fun s => s.act t a

/-- Ask the outside. -/
def request (q : Request) : P Answer := Prog.request (S := sig) q

/-- Whether an allocation succeeds. -/
def alloc : P Bool := Answer.ok <$> request .alloc

/-- Run Python code. -/
def foreign (c : Callback) : P Result := Prog.foreign (S := sig) c

/-- Run Python code whose outcome does not matter. -/
def python (c : Callback) : P Unit := (fun _ => ()) <$> foreign c

/-! ## Constants of libuv -/

/-- `UV_EAGAIN`. -/
def uvEAGAIN : Int := -11

/-- `UV_EPIPE`. -/
def uvEPIPE : Int := -32

/-- `UV_ENOBUFS`. -/
def uvENOBUFS : Int := -105

/-- `UV_EOF`. -/
def uvEOF : Int := -4095

/-! ## Teardown -/

/-- Disarm the socket object or pipe. -/
def releaseSocketView (t : ℕ) : P Unit := do
  let tr ← self t
  if tr.socketView then
    act t .takeSocketView
    python (.disarm t)

/-- `closeExternalHandle`. -/
def closeExternalHandle (t : ℕ) : P Unit := do
  let tr ← self t
  if !tr.stream.closing then update fun s => s.uvClose t

/-- Close the libuv handle. -/
def shutdownAndClose (t : ℕ) : P Unit := do
  let tr ← self t
  if tr.opened then
    act t .clearOpen
    if tr.reading then act t .readStop
    releaseSocketView t
    closeExternalHandle t

/-- Close without sending what is left. -/
def forceClose (t : ℕ) (cause : Cause) (exc : Option Exc) : P Unit := do
  act t .setCloseRequested
  act t .discardPending
  act t (.force cause exc)
  act t .setClosing
  act t .clearWriteBufferSize
  let tr ← self t
  if tr.allocatingReadBuffer then act t .setReadStatePending
  else shutdownAndClose t

/-! ## Calling the protocol -/

/-- Call a method of the protocol that was recorded before, and report what it raises. -/
def callProtocol (t : ℕ) (m : Method) : P Unit := do
  let tr ← self t
  if tr.protocol.bound m then
    let r ← foreign (.protocol t m)
    if r.raised.isSome then python .exceptionHandler

/-- Call a method of the protocol from the read path. What it raises is fatal. -/
def callInContext (t : ℕ) (m : Method) : P Unit := do
  let tr ← self t
  if tr.protocol.bound m then
    let entered ← request .enterContext
    if entered.ok then
      act t (.call m)
      let r ← foreign (.protocol t m)
      match r.raised with
      | none => return
      | some .exit =>
        update fun s => s.setCore Loop.Core.captureFatal
        forceClose t .callback none
      | some exc =>
        python .exceptionHandler
        forceClose t .callback (some exc)
    else python .exceptionHandler

/-- Queue a call on the loop; `queued` is what is recorded with it. -/
def scheduleCall (t : ℕ) (m : Method) (call : Transport → Call) (queued : Act) : P Unit := do
  let s ← getState
  if (s.tr t).protocol.bound m && !s.closed then
    let ok ← alloc
    if ok then
      let ok ← alloc
      match s.ready.push ok (call (s.tr t)) with
      | none => update fun s => s.setCore Loop.Core.captureFatal
      | some ready =>
        update fun s => ((s.setReady ready).act t queued).setCore Loop.Core.startIdle
    else update fun s => s.setCore Loop.Core.captureFatal

/-! ## Flow control -/

/-- Tell the protocol to stop writing, once there is too much. -/
def maybePauseProtocol (t : ℕ) : P Unit := do
  let tr ← self t
  if tr.bufferedBytes ≤ tr.highWater then return
  if tr.protocolPaused then return
  act t .pauseWriting
  callProtocol t .pauseWriting

/-- Tell the protocol to go on, once there is little left. -/
def maybeResumeProtocol (t : ℕ) : P Unit := do
  let tr ← self t
  if tr.isClosing then return
  if !tr.protocolPaused then return
  if tr.lowWater < tr.bufferedBytes then return
  act t .resumeWriting
  callProtocol t .resumeWriting

/-! ## Writing -/

/-- Where the vector of a `writeBufs` comes from. -/
inductive Origin where
  /-- The pending batch, whose buffers have been accepted. -/
  | batch
  /-- A write call, which is accepted once libuv takes something of it. -/
  | direct
deriving DecidableEq

/-- The bytes that are accepted when libuv takes something of a vector. -/
def Origin.fresh : Origin → List Bytes → Bytes
  | batch, _ => []
  | direct, bufs => bufs.flatten

/-- Queue a vector with libuv. `fresh` are the bytes accepted with it. -/
def queueWrite (t : ℕ) (fresh : Bytes) (bufs : List Bytes) (views : List ℕ) :
    P (Except Exc Unit) := do
  if total bufs = 0 then
    act t (.releaseViews views)
    return .ok ()
  let ok ← alloc
  if !ok then
    act t (.releaseViews views)
    return .error .memoryError
  let a ← request (.uvWrite t (total bufs) bufs.length)
  if a.status < 0 then
    act t (.releaseViews views)
    return .error (.osError a.status)
  act t (.submit fresh bufs views a.size)
  maybePauseProtocol t
  return .ok ()

/-- What `acceptsWrite` raises. -/
def writeAfterEof : Exc := .runtimeError "Cannot write after write_eof()"

/-- Whether a write may proceed, releasing its views if it may not. -/
def acceptsWrite (t : ℕ) (views : List ℕ) : P (Except Exc Bool) := do
  let tr ← self t
  if tr.eofWritten then
    act t (.releaseViews views)
    return .error writeAfterEof
  if tr.connLost || tr.closing then
    act t (.releaseViews views)
    return .ok false
  return .ok true

/-- Queue what `uv_try_write` left of a vector. -/
def queueRest (t : ℕ) (origin : Origin) (rest : List Bytes) (views : List ℕ) :
    P (Except Exc Unit) := do
  match ← queueWrite t [] rest views with
  | .ok () => return .ok ()
  | .error exc =>
    if origin = .direct then act t .tear
    return .error exc

/-- Write what the socket accepts immediately and queue the rest. -/
def writeBufs (t : ℕ) (origin : Origin) (bufs : List Bytes) (views : List ℕ) :
    P (Except Exc Unit) := do
  match ← acceptsWrite t views with
  | .error exc => return .error exc
  | .ok false => return .ok ()
  | .ok true =>
    let tr ← self t
    if tr.writeBufferSize = 0 then
      let a ← request (.tryWrite (total bufs) bufs.length)
      if 0 < a.status then
        let taken := a.status.toNat
        act t (.took (origin.fresh bufs) (bufs.flatten.take taken))
        if advance taken bufs = [] then
          act t (.releaseViews views)
          return .ok ()
        else queueRest t origin (advance taken bufs) views
      else if a.status < 0 ∧ a.status ≠ uvEAGAIN then
        act t (.releaseViews views)
        forceClose t .peer (some (.osError a.status))
        return .ok ()
      else queueWrite t (origin.fresh bufs) bufs views
    else queueWrite t (origin.fresh bufs) bufs views

/-- Hand everything accepted this iteration to libuv. -/
def flushPending (t : ℕ) : P Unit := do
  let tr ← self t
  if tr.pending = [] then return
  act t .takePending
  match ← writeBufs t .batch (tr.pending.map Buf.data) (tr.pending.map Buf.view) with
  | .error exc => forceClose t .flush (some exc)
  | .ok () => maybeResumeProtocol t

/-- Put a transport on the flush list. -/
def scheduleFlush (t : ℕ) : P Unit := do
  let s ← getState
  if s.closed then act t .discardPending
  else if !(s.tr t).flushQueued then update fun s => s.queueFlush t

/-- The `while` loop of `appendPending`, from the first flush on. -/
def makeRoomBody (t : ℕ) : P Unit := do
  flushPending t
  let tr ← self t
  if tr.givesUp then return
  if tr.full then Prog.invoke (S := sig) (.makeRoom t)

/-- Store buffers in the batch, flushing it whenever it is full. -/
def appendPending (t : ℕ) : List Buf → P Unit
  | [] => scheduleFlush t
  | b :: rest => do
    let tr ← self t
    if tr.full then
      Prog.invoke (S := sig) (.makeRoom t)
      let tr ← self t
      if tr.givesUp then act t (.releaseViews ((b :: rest).map Buf.view))
      else
        act t (.store b)
        appendPending t rest
    else
      act t (.store b)
      appendPending t rest

/-- Accept a write, deferring it unless the complete vector exceeds the batch. -/
def submitWrite (t : ℕ) (bufs : List Buf) : P (Except Exc Unit) := do
  let tr ← self t
  if tr.pending = [] ∧ pendingMax < bufs.length then
    match ← writeBufs t .direct (bufs.map Buf.data) (bufs.map Buf.view) with
    | .error exc => return .error exc
    | .ok () =>
      maybeResumeProtocol t
      return .ok ()
  else
    match ← acceptsWrite t (bufs.map Buf.view) with
    | .error exc => return .error exc
    | .ok false => return .ok ()
    | .ok true =>
      appendPending t bufs
      let s ← getState
      if !s.running then flushPending t
      return .ok ()

/-- Half-close the stream. -/
def shutdownWrite (t : ℕ) : P Unit := do
  let ok ← alloc
  if ok then
    let _ ← request .uvShutdown
    act t .uvShutdown
  else forceClose t .memory none

/-- Close once everything accepted has been sent. -/
def closeTransport (t : ℕ) : P Unit := do
  act t .setCloseRequested
  let tr ← self t
  if tr.closing then return
  flushPending t
  act t .setClosing
  let tr ← self t
  if tr.allocatingReadBuffer then
    act t .setReadStatePending
    return
  if tr.reading then act t .readStop
  if tr.writeBufferSize = 0 then shutdownAndClose t

/-- A write request completed. -/
def onWritten (t : ℕ) (status : Int) (queueSize : ℕ) : P Unit := do
  let tr ← self t
  match tr.stream.requests with
  | [] => return
  | r :: rest =>
    act t (.completed (decide (0 ≤ status)) r rest queueSize)
    if status < 0 then
      if tr.opened then forceClose t .peer (some (.osError status))
    else
      maybeResumeProtocol t
      let tr ← self t
      if tr.writeBufferSize = 0 then
        if tr.closing then shutdownAndClose t
        else if tr.eofWritten then shutdownWrite t

/-- Drop the reference the libuv handle holds to the transport. -/
def dropHandleRef (t : ℕ) : P Unit := do
  act t .clearHandleRef
  python .finalizer

/-- The end of `onClosed`: tell the server, and drop the reference. -/
def detachServer (t : ℕ) : P Unit := do
  let tr ← self t
  if tr.server then
    act t .detach
    python (.detach t)
  dropHandleRef t

/-- The stream is closed. -/
def onClosed (t : ℕ) : P Unit := do
  update State.externalHandleClosed
  act t .lost
  scheduleCall t .connectionLost (fun tr => .connectionLost t tr.connLostExc) .lostQueued
  detachServer t

/-! ## Reading -/

/-- Provide a receive buffer; whether there is one, and it is not empty. -/
def onAlloc (t : ℕ) : P Bool := do
  let tr ← self t
  if tr.protocol.buffered then
    act t (.setAllocating true)
    let ok ← alloc
    if ok && tr.protocol.bound .getBuffer then
      act t (.call .getBuffer)
      let r ← foreign (.protocol t .getBuffer)
      if r.raised.isSome then
        python .exceptionHandler
        return false
      let a ← request .exportBuffer
      if a.ok then
        let tr ← self t
        return !tr.readStatePending && a.size != 0
      else
        python .exceptionHandler
        return false
    else return false
  else alloc

/-- End of file. -/
def handleEof (t : ℕ) : P Unit := do
  act t .readStop
  let tr ← self t
  if tr.protocol.bound .eofReceived then
    act t (.call .eofReceived)
    let r ← foreign (.protocol t .eofReceived)
    if r.raised.isSome then
      python .exceptionHandler
      closeTransport t
    else if !r.truth then closeTransport t
  else closeTransport t

/-- Finish a read during whose `get_buffer` the transport was paused or closed. -/
def finishDeferred (t : ℕ) : P Unit := do
  act t .clearReadStatePending
  let tr ← self t
  if tr.reading then act t .readStop
  if tr.closing && tr.writeBufferSize == 0 then shutdownAndClose t

/-- Deliver what was read. -/
def deliver (t : ℕ) (buffered : Bool) : P Unit := do
  let ok ← alloc
  if !ok then forceClose t .memory (some .memoryError)
  else if buffered then callInContext t .bufferUpdated
  else callInContext t .dataReceived

/-- A read ended with `nread`. -/
def onRead (t : ℕ) (nread : Int) : P Unit := do
  let tr ← self t
  act t (.setAllocating false)
  if tr.allocatingReadBuffer && tr.readStatePending then finishDeferred t
  else if tr.writePipe then
    if nread ≠ 0 then
      if tr.bufferedBytes ≠ 0 then forceClose t .peer (some (.osError uvEPIPE))
      else closeTransport t
  else if 0 < nread then deliver t tr.protocol.buffered
  else if nread ≠ 0 then
    if nread = uvEOF then handleEof t
    else forceClose t .peer (some (.osError nread))

/-- One turn of `uv__read`: a buffer without room is `UV_ENOBUFS`, end-of-file stops reading
before the callback and an error after it. -/
def readable (t : ℕ) : P Unit := do
  let room ← onAlloc t
  if room then
    let a ← request .read
    if a.status = uvEOF then
      act t .uvReadEnd
      onRead t a.status
    else
      onRead t a.status
      if a.status < 0 then act t .uvReadEnd
  else onRead t uvENOBUFS

/-- Start reading, unless it is started or there is nothing to read from. -/
def startReading (t : ℕ) : P (Except Exc Unit) := do
  let tr ← self t
  if tr.reading || tr.closing || tr.connLost then return .ok ()
  let a ← request .readStart
  if a.status < 0 then return .error (.osError a.status)
  act t .readStart
  return .ok ()

/-! ## Python methods -/

/-- `acquireWriteView`: a new view on the bytes of a written object. -/
def acquireWriteView (t : ℕ) : P (Except Exc Buf) := do
  let r ← foreign .acquire
  match r.raised with
  | some exc => return .error exc
  | none =>
    let tr ← self t
    act t .acquireView
    return .ok ⟨r.data, tr.acquired⟩

/-- `write`. -/
def write (t : ℕ) : P (Except Exc Unit) := do
  match ← acquireWriteView t with
  | .error exc => return .error exc
  | .ok b =>
    let tr ← self t
    if tr.eofWritten then
      act t (.releaseViews [b.view])
      return .error (.runtimeError "Cannot call write() after write_eof()")
    if b.data = [] then
      act t (.releaseViews [b.view])
      return .ok ()
    submitWrite t [b]

/-- The loop of `writelines`: acquire a view on each of the `n` items left. -/
def acquireAll (t : ℕ) : ℕ → List Buf → P (Except Exc (List Buf))
  | 0, bufs => return .ok bufs
  | n + 1, bufs => do
    match ← acquireWriteView t with
    | .error exc =>
      act t (.releaseViews (bufs.map Buf.view))
      return .error exc
    | .ok b => acquireAll t n (bufs ++ [b])

/-- `writelines`. -/
def writelines (t : ℕ) : P (Except Exc Unit) := do
  let tr ← self t
  if tr.eofWritten then
    return .error (.runtimeError "Cannot call writelines() after write_eof()")
  let r ← foreign .iterate
  match r.raised with
  | some exc => return .error exc
  | none =>
    let n := r.value.toNat
    if n = 0 then return .ok ()
    -- the arrays of a long vector are allocated first
    let ok ← alloc
    if 16 < n ∧ !ok then return .error .memoryError
    match ← acquireAll t n [] with
    | .error exc => return .error exc
    | .ok bufs => submitWrite t bufs

/-- `write_eof`. -/
def writeEof (t : ℕ) : P Unit := do
  let tr ← self t
  if tr.connLost || tr.eofWritten || tr.closing then return
  act t .writeEofCalled
  flushPending t
  act t .setEofWritten
  let tr ← self t
  if tr.writeBufferSize = 0 then shutdownWrite t

/-- `close`. Only the first call has an effect, and is recorded. -/
def close (t : ℕ) : P Unit := do
  let tr ← self t
  if !tr.closing then act t .closeCalled
  closeTransport t

/-- `pause_reading`. -/
def pauseReading (t : ℕ) : P Unit := do
  let s ← getState
  let tr ← self t
  if tr.reading then
    if tr.allocatingReadBuffer then act t .setReadStatePending
    else act t .readStop
  if !tr.allocatingReadBuffer then
    act t (.readingPaused (decide (.startReading t ∈ s.ready.toList)))

/-- `resume_reading`. -/
def resumeReading (t : ℕ) : P (Except Exc Unit) := do
  act t .resumeReading
  startReading t

/-- `_start_reading`, queued by `makeTransport`. -/
def startReadingMethod (t : ℕ) : P Unit := do
  act t .startReading
  match ← startReading t with
  | .ok () => return
  | .error exc => forceClose t .peer (some exc)

/-- Convert a water mark, if it is given. -/
def waterMark (given : Bool) (message : String) : P (Except Exc (Option ℕ)) := do
  if !given then return .ok none
  let r ← foreign .index
  match r.raised with
  | some exc => return .error exc
  | none =>
    if r.value < 0 then return .error (.valueError message)
    return .ok (some r.value.toNat)

/-- The largest `Py_ssize_t`. -/
def maxSsize : ℕ := 2 ^ 63 - 1

/-- The water marks, from those that are given: high first, then low. -/
def waterMarks (high low : Option ℕ) : Except Exc (ℕ × ℕ) :=
  let highWater := high.getD defaultHighWater
  let lowWater := low.getD (highWater / 4)
  if high.isNone && low.isSome && decide (maxSsize / 4 < lowWater) then
    .error (.overflowError "high water mark is too large")
  else
    let highWater := if high.isNone && low.isSome then lowWater * 4 else highWater
    if highWater < lowWater then
      .error (.valueError "high water mark must be >= low water mark")
    else .ok (highWater, lowWater)

/-- Convert and check the water marks. -/
def parseLimits (high low : Bool) : P (Except Exc (ℕ × ℕ)) := do
  match ← waterMark high "high water mark must be non-negative" with
  | .error exc => return .error exc
  | .ok high =>
    match ← waterMark low "low water mark must be non-negative" with
    | .error exc => return .error exc
    | .ok low => return waterMarks high low

/-- `set_write_buffer_limits`. -/
def setWriteBufferLimits (t : ℕ) (high low : Bool) : P (Except Exc Unit) := do
  match ← parseLimits high low with
  | .error exc =>
    act t .limitsRaised
    return .error exc
  | .ok marks =>
    act t (.setLimits marks.1 marks.2)
    maybePauseProtocol t
    return .ok ()

/-- `_adopt_socket_view`. -/
def adoptSocketView (t : ℕ) : P Unit := do
  releaseSocketView t
  act t (.adopt false)

/-- The calls `makeTransport` queues. -/
def initialCalls (t : ℕ) (reads waiter : Bool) : List Call :=
  [.connectionMade t] ++ (if reads then [.startReading t] else []) ++
    (if waiter then [.setResult] else [])

/-- Append calls to a queue with room for them; `none` is the assertion of the source failing. -/
def pushAll : Queue Call → List Call → Option (Queue Call)
  | q, [] => some q
  | q, c :: calls => (q.pushAssumeCapacity c).bind fun q => pushAll q calls

/-- `_make_transport`. Everything that can fail comes before the descriptor is adopted. -/
def makeTransport (writePipe : Bool) (p : Protocol) (server reads waiter : Bool) :
    P (Except Exc ℕ) := do
  let s ← getState
  if s.closed then return .error (.runtimeError "Event loop is closed")
  if !p.has .connectionMade then return .error .attributeError
  let ok ← alloc
  if !ok then return .error .memoryError
  let calls := initialCalls s.fresh reads waiter
  let ok ← alloc
  match s.ready.ensureUnusedCapacity ok calls.length with
  | none => return .error .memoryError
  | some ready =>
    let a ← request .init
    if a.status < 0 then return .error (.osError a.status)
    let a ← request .opened
    if a.status < 0 then
      update State.failOpen
      return .error (.osError a.status)
    match pushAll ready calls with
    | none =>
      update fun s => s.setCore Loop.Core.panic
      return .error .memoryError
    | some ready =>
      update fun s => ((s.addTransport (.create writePipe p server)).setReady ready).setCore
        Loop.Core.startIdle
      return .ok s.fresh

/-! ## The loop -/

/-- Flush the transports of a detached list, one after the other. -/
def drain : List ℕ → P Unit
  | [] => return
  | t :: rest => do
    update fun s => s.visit t rest
    flushPending t
    python .finalizer
    drain rest

/-- Flush every transport that holds unsent writes. -/
def drainFlushList : P Unit := do
  let s ← getState
  update State.detachFlushList
  drain s.flushHead

/-- The prepare handle's callback. -/
def onFlush : P Unit := do
  update State.beginFlush
  drainFlushList
  update State.endFlush

/-- Run one callback of the ready queue. -/
def runOne : Call → P Unit
  | .connectionMade t => do
    act t (.call .connectionMade)
    python (.protocol t .connectionMade)
  | .startReading t => startReadingMethod t
  | .connectionLost t _ => do
    act t (.call .connectionLost)
    python (.protocol t .connectionLost)
  | .setResult | .other => python .other

/-- The loop of `runReady`. -/
def runReadyLoop : ℕ → P Unit
  | 0 => return
  | remaining + 1 => do
    let s ← getState
    match s.ready.pop with
    | (none, _) => return
    | (some call, ready) =>
      update fun s => s.setReady ready
      runOne call
      python .finalizer
      runReadyLoop remaining

/-- Run the callbacks queued on entry, and stop the idle handle once there are none. -/
def onIdle : P Unit := do
  let s ← getState
  runReadyLoop s.ready.len
  update fun s => s.setCore Loop.Core.stopIdle

/-- `call_soon`. -/
def callSoon : P (Except Exc Unit) := do
  let s ← getState
  if s.closed then return .error (.runtimeError "Event loop is closed")
  let ok ← alloc
  match s.ready.push ok .other with
  | none => return .error .memoryError
  | some ready =>
    update fun s => (s.setReady ready).setCore Loop.Core.startIdle
    return .ok ()

/-- `stop`. -/
def stop : P Unit :=
  update fun s => s.setCore fun c =>
    { c with stopping := true, uvStop := c.uvStop || !c.closed }

/-- `_run` up to `uv_run`. -/
def runBegin : P (Except Exc Unit) := do
  let s ← getState
  if s.closed then return .error (.runtimeError "Event loop is closed")
  if s.running then return .error (.runtimeError "This event loop is already running")
  update fun s => s.setCore fun c =>
    Loop.Core.startIdle { c with running := true, stopping := false }
  return .ok ()

/-- `_run` from the return of `uv_run` on. -/
def runEnd : P Unit := do
  update fun s => s.setCore fun c =>
    { c with running := false, stopping := false, uvStop := false }
  drainFlushList
  update fun s => s.setCore fun c => { c with fatal := false }

/-! ## The system -/

/-- The procedures. -/
def body : Proc → P Unit
  | .makeRoom t => makeRoomBody t

/-- What an entry point does. -/
def run : Op → P Unit
  | .write t => (fun _ => ()) <$> write t
  | .writelines t => (fun _ => ()) <$> writelines t
  | .writeEof t => writeEof t
  | .close t => close t
  | .abort t => forceClose t .abort none
  | .forceClose t exc => forceClose t .abort exc
  | .pauseReading t => pauseReading t
  | .resumeReading t => (fun _ => ()) <$> resumeReading t
  | .setWriteBufferLimits t high low => (fun _ => ()) <$> setWriteBufferLimits t high low
  | .setProtocol t p => act t (.bindProtocol p)
  | .adoptSocketView t => adoptSocketView t
  | .adoptPipe t => act t (.adopt true)
  | .makeTransport writePipe p server reads waiter =>
    (fun _ => ()) <$> makeTransport writePipe p server reads waiter
  | .callSoon => (fun _ => ()) <$> callSoon
  | .stop => stop
  | .runBegin => (fun _ => ()) <$> runBegin
  | .runEnd => runEnd
  | .onIdle => onIdle
  | .prepare => do
    let s ← getState
    if s.uvPrepare then onFlush
  | .poll => update fun s => { s with prepared := false }
  | .readable t => readable t
  | .drain t queueSize => act t (.drained queueSize)
  | .onWritten t status queueSize => onWritten t status queueSize
  | .onClosed t => onClosed t
  | .onOpenFailed => do
    update fun s => { s.externalHandleClosed with failedOpens := s.failedOpens - 1 }
    python .finalizer
  | .onOther => python .other

/-- The end of an entry point; after `prepare`, libuv is about to compute the poll timeout. -/
def finish : Op → P Unit
  | .prepare => update fun s => { s.leave with prepared := true }
  | _ => update State.leave

/-- The entry points. -/
def entry (op : Op) : P Unit := do
  update State.enter
  run op
  finish op

/-- The loop and its transports. -/
def system : System sig where
  body := body
  entry := entry
  init := State.init

/-! ## The environment -/

/-- The transport an entry point is about. -/
def Op.transport? : Op → Option ℕ
  | .write t | .writelines t | .writeEof t | .close t | .abort t | .forceClose t _
  | .pauseReading t | .resumeReading t | .setWriteBufferLimits t _ _ | .setProtocol t _
  | .adoptSocketView t | .adoptPipe t | .readable t | .drain t _ | .onWritten t _ _
  | .onClosed t => some t
  | _ => none

/-- An entry point is called by libuv, not by Python code. -/
def Op.fromUv : Op → Bool
  | .runEnd | .onIdle | .prepare | .poll | .readable _ | .drain _ _ | .onWritten _ _ _
  | .onClosed _ | .onOpenFailed | .onOther => true
  | _ => false

/-- `poll`. -/
def Op.isPoll : Op → Bool
  | .poll => true
  | _ => false

/-- `runBegin`. -/
def Op.isRunBegin : Op → Bool
  | .runBegin => true
  | _ => false

/-- What libuv has to have noticed before it calls an entry point. -/
def Ready (s : State) : Op → Prop
  | .onIdle => s.uvIdle
  | .readable t => (s.tr t).stream.reading ∧ (s.tr t).stream.closing = false
  | .drain t queueSize => queueSize ≤ (s.tr t).stream.queueSize
  | .onWritten t _ queueSize =>
    (s.tr t).stream.requests ≠ [] ∧ queueSize ≤ (s.tr t).stream.queueSize
  | .onClosed t => (s.tr t).stream.closing ∧ (s.tr t).stream.closed = false ∧
      (s.tr t).stream.requests = []
  | .onOpenFailed => 0 < s.failedOpens
  | _ => True

/-- When an entry point may be started. While `uv_run` is in progress libuv calls back only when
nothing native is, and Python code runs only inside such a callback; between the prepare handles
and the poll nothing runs at all. A run is started from outside every native call. -/
def Startable (s : State) (op : Op) : Prop :=
  (op.transport?.all fun t => (s.tr t).made) ∧ Ready s op ∧
    if op.fromUv then s.depth = 0 ∧ s.running ∧ s.prepared = op.isPoll
    else (s.running → 0 < s.depth) ∧ (op.isRunBegin → s.depth = 0)

/-- libuv takes at most what it is given, and its queue grows by at most what is queued. Unless
`starving`, allocations succeed. -/
def Answers (starving : Prop) (s : State) : Request → Answer → Prop
  | .alloc, a => a.ok = false → starving
  | .tryWrite size _, a => a.status ≤ size
  | .uvWrite t size _, a => a.size ≤ (s.tr t).stream.queueSize + size
  | _, _ => True

/-- Everything outside the transports. -/
def env (starving : Prop) : Env sig where
  answers := Answers starving
  returns := fun _ _ _ => True
  starts := fun _ s op => Startable s op

/-- No Python code is kept from calling the transports. -/
theorem not_quiet (starving : Prop) (cb : Callback) : ¬ (env starving).Quiet cb :=
  fun hquiet => hquiet [] .init .callSoon ⟨rfl, trivial, nofun, nofun⟩

instance (s : State) (op : Op) : Decidable (Ready s op) :=
  match op with
  | .onIdle => inferInstanceAs (Decidable (s.uvIdle = true))
  | .readable t => inferInstanceAs (Decidable
      ((s.tr t).stream.reading = true ∧ (s.tr t).stream.closing = false))
  | .drain t queueSize => inferInstanceAs (Decidable (queueSize ≤ (s.tr t).stream.queueSize))
  | .onWritten t _ queueSize => inferInstanceAs (Decidable
      ((s.tr t).stream.requests ≠ [] ∧ queueSize ≤ (s.tr t).stream.queueSize))
  | .onClosed t => inferInstanceAs (Decidable ((s.tr t).stream.closing = true ∧
      (s.tr t).stream.closed = false ∧ (s.tr t).stream.requests = []))
  | .onOpenFailed => inferInstanceAs (Decidable (0 < s.failedOpens))
  | .write _ | .writelines _ | .writeEof _ | .close _ | .abort _ | .forceClose _ _
  | .pauseReading _ | .resumeReading _ | .setWriteBufferLimits _ _ _ | .setProtocol _ _
  | .adoptSocketView _ | .adoptPipe _ | .makeTransport _ _ _ _ _ | .callSoon | .stop | .runBegin
  | .runEnd | .prepare | .poll | .onOther => .isTrue trivial

instance (s : State) (op : Op) : Decidable (Startable s op) :=
  inferInstanceAs (Decidable ((op.transport?.all fun t => (s.tr t).made) = true ∧ Ready s op ∧
    if op.fromUv = true then s.depth = 0 ∧ s.running = true ∧ s.prepared = op.isPoll
    else (s.running = true → 0 < s.depth) ∧ (op.isRunBegin = true → s.depth = 0)))

instance (starving : Prop) [Decidable starving] (s : State) (q : Request) (a : Answer) :
    Decidable (Answers starving s q a) :=
  match q with
  | .alloc => inferInstanceAs (Decidable (a.ok = false → starving))
  | .tryWrite size _ => inferInstanceAs (Decidable (a.status ≤ size))
  | .uvWrite t size _ => inferInstanceAs (Decidable (a.size ≤ (s.tr t).stream.queueSize + size))
  | .enterContext | .uvShutdown | .readStart | .exportBuffer | .read | .init | .opened =>
    .isTrue trivial

instance (starving : Prop) [Decidable starving] (s : State) (q : Request) (a : Answer) :
    Decidable ((env starving).answers s q a) := inferInstanceAs (Decidable (Answers starving s q a))

instance (starving : Prop) (s : State) (c : Callback) (r : Result) :
    Decidable ((env starving).returns s c r) := inferInstanceAs (Decidable True)

instance (starving : Prop) (stack : List Callback) (s : State) (op : Op) :
    Decidable ((env starving).starts stack s op) := inferInstanceAs (Decidable (Startable s op))

instance (starving : Prop) [Decidable starving] (c : Config sig) (l : Label sig) :
    Decidable ((env starving).Allows c l) :=
  match l with
  | .tau => .isTrue trivial
  | .answer a =>
    match h : c.running with
    | some (.ask q _) =>
      decidable_of_iff (Answers starving c.state q a) (by simp [Env.Allows, env, h])
    | some (.ret _) | some (.get _) | some (.set _ _) | some (.yield _ _) | some (.call _ _)
    | none => .isFalse (by simp [Env.Allows, h])
  | .start op => inferInstanceAs (Decidable (Startable c.state op))
  | .resume _ =>
    match h : c.stack with
    | _ :: _ => .isTrue (by simp [Env.Allows, env, h])
    | [] => .isFalse (by simp [Env.Allows, h])

/-! ## Concrete runs -/

/-- An instance of `asyncio.Protocol`. -/
def Protocol.plain : Protocol := { has := fun _ => true, buffered := false }

/-- A question is answered with yes, or with the status `0`. -/
def yes : Label sig := .answer ⟨true, 0, 0⟩

/-- libuv answers with a number of bytes, or a status. -/
def status (n : Int) : Label sig := .answer ⟨true, n, 0⟩

/-- Python code returns nothing of interest. -/
def returned : Label sig := .resume ⟨none, [], true, 0⟩

/-- Python code returns the bytes of an object. -/
def exported (data : Bytes) : Label sig := .resume ⟨none, data, true, 0⟩

/-- Python code returns an integer, or a number of items. -/
def counted (n : Int) : Label sig := .resume ⟨none, [], true, n⟩

/-- Python code raises. -/
def raised (exc : Exc) : Label sig := .resume ⟨some exc, [], true, 0⟩

/-- A transport is made, which starts to read. -/
def opening (p : Protocol) : List (Label sig) :=
  [.start (.makeTransport false p false true false), yes, yes, yes, yes]

end Zuvloop.Stream
