import Mathlib.Data.Multiset.Range
import Zuvloop.Loop.State

/-!
# The state of the stream transports

`Transport` of `zig/transport.zig`, with the flag word spread over Boolean fields, and the part of
libuv's stream it drives. Transports are numbered in the order they are created; a number that has
not been given out yet stands for a blank record.

A write is a list of buffers with a view for each. The views of one transport are numbered in the
order they are acquired, so that a view can be followed from the write that acquires it to its
release.

The sizes and targets of reads (`read_size`, `read_bytes`, the scratch buffer of the loop) are left
out: they decide how many bytes one `data_received` gets, not which callbacks are made. A receive
buffer is taken to be a built-in one, whose release runs no Python code.

## Main definitions

* `UvStream`: what libuv knows of the stream.
* `Transport`: the transport, with what it was asked to write and what it handed over.
* `Event`: what the history of a transport records. No function of the transport reads it.
* `Act`: every assignment the functions of `zig/transport.zig` make to a transport, and what
  libuv does to its stream. `Act.run` says what it changes.
* `State`: the loop with its transports.
-/

namespace Zuvloop.Stream

/-! ## Exceptions and protocols -/

/-- A Python exception. -/
inductive Exc where
  /-- `OSError`, from a libuv status. -/
  | osError (status : Int)
  /-- `MemoryError`. -/
  | memoryError
  /-- `RuntimeError`. -/
  | runtimeError (message : String)
  /-- `ValueError`. -/
  | valueError (message : String)
  /-- `OverflowError`. -/
  | overflowError (message : String)
  /-- `AttributeError`, for a method the protocol lacks. -/
  | attributeError
  /-- `SystemExit` or `KeyboardInterrupt`. -/
  | exit
  /-- Any other exception, raised by Python code. -/
  | other (n : ℕ)
deriving DecidableEq, Repr

/-- The methods of a protocol. -/
inductive Method where
  /-- `connection_made`. -/
  | connectionMade
  /-- `connection_lost`. -/
  | connectionLost
  /-- `data_received`. -/
  | dataReceived
  /-- `eof_received`. -/
  | eofReceived
  /-- `get_buffer`. -/
  | getBuffer
  /-- `buffer_updated`. -/
  | bufferUpdated
  /-- `pause_writing`. -/
  | pauseWriting
  /-- `resume_writing`. -/
  | resumeWriting
deriving DecidableEq, Repr

/-- A protocol object: the methods it has, and whether it is a buffered one. -/
structure Protocol where
  /-- The object has the method. -/
  has : Method → Bool
  /-- The object is an instance of `asyncio.BufferedProtocol`. -/
  buffered : Bool

/-- The methods `bindProtocol` caches: a buffered protocol gets no `data_received`, a plain one no
`get_buffer` and no `buffer_updated`. -/
def Protocol.bound (p : Protocol) : Method → Bool
  | .dataReceived => p.has .dataReceived && !p.buffered
  | .getBuffer => p.has .getBuffer && p.buffered
  | .bufferUpdated => p.has .bufferUpdated && p.buffered
  | m => p.has m

/-- The object has the methods of `asyncio.BaseProtocol`. -/
def Protocol.complete (p : Protocol) : Bool :=
  p.has .connectionLost && p.has .pauseWriting && p.has .resumeWriting

/-! ## Buffers -/

/-- A string of bytes. -/
abbrev Bytes := List UInt8

/-- A buffer of a write, with the view that keeps its bytes alive. -/
structure Buf where
  /-- The bytes to send. -/
  data : Bytes
  /-- The number of the view. -/
  view : ℕ
deriving DecidableEq, Repr

/-- The number of bytes in a vector. -/
def total (bufs : List Bytes) : ℕ := bufs.flatten.length

/-- What is left of a vector after its first `n` bytes: whole buffers go first, empty ones among
them, and the one the count ends in is cut. -/
def advance : ℕ → List Bytes → List Bytes
  | _, [] => []
  | n, b :: bufs => if b.length ≤ n then advance (n - b.length) bufs else b.drop n :: bufs

/-- A write request libuv has not completed. -/
structure WriteReq where
  /-- The number of bytes it was submitted with. -/
  size : ℕ
  /-- The views to release on completion. -/
  views : List ℕ
deriving DecidableEq, Repr

/-! ## Transports -/

/-- What libuv knows of a stream. -/
structure UvStream where
  /-- `uv_read_start` is in force. -/
  reading : Bool
  /-- `uv_close` has been called. -/
  closing : Bool
  /-- The close callback has been called. -/
  closed : Bool
  /-- The requests that have not been completed, in submission order. -/
  requests : List WriteReq
  /-- `uv_stream_get_write_queue_size`. -/
  queueSize : ℕ

/-- Why a transport is closed by force. -/
inductive Cause where
  /-- `abort()` or `_force_close()`. -/
  | abort
  /-- The peer, or the socket: a failed read, write or start of reading. -/
  | peer
  /-- A callback of the protocol raised. -/
  | callback
  /-- There was no memory. -/
  | memory
  /-- A flush failed. -/
  | flush
deriving DecidableEq, Repr

/-- What the history of a transport records. -/
inductive Event where
  /-- `connection_made` was queued. -/
  | connectionMadeQueued
  /-- `connection_lost` was queued, with this argument. -/
  | connectionLostQueued (exc : Option Exc)
  /-- A method of the protocol was called. -/
  | called (m : Method)
  /-- `CLOSING` was set. -/
  | closingBegan
  /-- `forceClose` was called, with this reason. -/
  | forced (cause : Cause) (exc : Option Exc)
  /-- `close()` was called on a transport that was not closing, when this many bytes had been
  accepted. -/
  | closeCalled (accepted : ℕ)
  /-- `write_eof()` was called and not ignored, when this many bytes had been accepted. -/
  | writeEofCalled (accepted : ℕ)
  /-- `EOF_WRITTEN` was set, while the batch held this many buffers. -/
  | eofWritten (leftover : ℕ)
  /-- `uv_shutdown` was called, when libuv had written this many bytes. -/
  | uvShutdown (written : ℕ)
  /-- `uv_close` was called, when libuv had written this many bytes. -/
  | uvClose (written : ℕ)
  /-- A write request failed. -/
  | writeFailed
  /-- `_detach` of the server was called. -/
  | detach
  /-- `set_write_buffer_limits` set the water marks. -/
  | limits (high low : ℕ)
  /-- `set_write_buffer_limits` raised. -/
  | limitsRaised
  /-- `pause_reading()` returned, outside `get_buffer`. `early` tells whether the `_start_reading`
  that `makeTransport` queued had still to run. -/
  | readingPaused (early : Bool)
  /-- `resume_reading()` was called. -/
  | resumeReading
  /-- `_start_reading()` was called after `eof_received`. -/
  | lateStart
deriving DecidableEq, Repr

/-- `eof_received` was called. -/
def Event.isEof : Event → Bool
  | .called .eofReceived => true
  | _ => false

/-- A stream transport. -/
structure Transport where
  /-- `makeTransport` has returned it. -/
  made : Bool
  /-- `READING`. -/
  reading : Bool
  /-- `CLOSING`. -/
  closing : Bool
  /-- `CONN_LOST`. -/
  connLost : Bool
  /-- `EOF_WRITTEN`. -/
  eofWritten : Bool
  /-- `PROTOCOL_PAUSED`. -/
  protocolPaused : Bool
  /-- `OPEN`. -/
  opened : Bool
  /-- `FLUSH_QUEUED`. -/
  flushQueued : Bool
  /-- `HANDLE_REF`. -/
  handleRef : Bool
  /-- `PIPE_OWNED`. -/
  pipeOwned : Bool
  /-- `CLOSE_REQUESTED`. -/
  closeRequested : Bool
  /-- `ALLOCATING_READ_BUFFER`. -/
  allocatingReadBuffer : Bool
  /-- `READ_STATE_PENDING`. -/
  readStatePending : Bool
  /-- The kind is `KIND_PIPE_WRITE`. -/
  writePipe : Bool
  /-- The protocol. `BUFFERED` is its `buffered`, the cached callbacks are its `bound` methods. -/
  protocol : Protocol
  /-- There is an owning server. -/
  server : Bool
  /-- There is a socket object or pipe to disarm. -/
  socketView : Bool
  /-- The reason for `connection_lost`. -/
  connLostExc : Option Exc
  /-- `write_buffer_size`. -/
  writeBufferSize : ℕ
  /-- `high_water`. -/
  highWater : ℕ
  /-- `low_water`. -/
  lowWater : ℕ
  /-- `pending_bufs` and `pending_views`, up to `pending_count`. -/
  pending : List Buf
  /-- `pending_size`. -/
  pendingSize : ℕ
  /-- The libuv handle. -/
  stream : UvStream
  /-- `OPEN` has been cleared and `uv_close` is about to be called. -/
  disarming : Bool
  /-- Every protocol bound so far was complete. -/
  complete : Bool
  /-- What happened so far, oldest first. -/
  history : List Event
  /-- The bytes of the accepted buffers, in the order they were accepted. -/
  accepted : Bytes
  /-- The bytes handed to libuv, in the order they were handed over. -/
  handedOver : Bytes
  /-- The number of bytes libuv has written. -/
  written : ℕ
  /-- A vector that went straight to the socket was taken in part, and its remainder could not be
  queued. -/
  torn : Bool
  /-- The number of views acquired for writes. -/
  acquired : ℕ
  /-- The views a write in progress owns. -/
  held : Multiset ℕ
  /-- The views released, as often as they were released. -/
  released : Multiset ℕ

/-- The default high-water mark. -/
def defaultHighWater : ℕ := 64 * 1024

/-- The capacity of the pending batch. -/
def pendingMax : ℕ := 4

namespace Transport

/-- No transport yet. -/
def blank : Transport :=
  { made := false, reading := false, closing := false, connLost := false, eofWritten := false
    protocolPaused := false, opened := false, flushQueued := false, handleRef := false
    pipeOwned := false, closeRequested := false, allocatingReadBuffer := false
    readStatePending := false, writePipe := false
    protocol := { has := fun _ => false, buffered := false }
    server := false, socketView := false, connLostExc := none
    writeBufferSize := 0, highWater := defaultHighWater, lowWater := defaultHighWater / 4
    pending := [], pendingSize := 0
    stream :=
      { reading := false, closing := false, closed := false, requests := [], queueSize := 0 }
    disarming := false, complete := false, history := []
    accepted := [], handedOver := [], written := 0, torn := false
    acquired := 0, held := 0, released := 0 }

/-- What `makeTransport` returns. -/
def create (writePipe : Bool) (p : Protocol) (server : Bool) : Transport :=
  { blank with
    made := true, opened := true, handleRef := true, writePipe, protocol := p, server
    complete := p.complete, history := [.connectionMadeQueued] }

variable (tr : Transport)

/-- Record an event. -/
def record (e : Event) : Transport := { tr with history := tr.history ++ [e] }

/-- The bytes of the pending batch. -/
def pendingBytes : Bytes := (tr.pending.map Buf.data).flatten

/-- The views of the pending batch. -/
def pendingViews : Multiset ℕ := (tr.pending.map Buf.view : List ℕ)

/-- The views libuv's requests hold. -/
def requestViews : Multiset ℕ := ((tr.stream.requests.map WriteReq.views).flatten : List ℕ)

/-- The sizes of libuv's requests, added up. -/
def requestSize : ℕ := (tr.stream.requests.map WriteReq.size).sum

/-- `is_closing()`. -/
def isClosing : Bool := tr.closing || tr.connLost

/-- What `write()` has accepted and the socket has not taken. -/
def bufferedBytes : ℕ :=
  (if tr.writeBufferSize = 0 then 0 else tr.stream.queueSize) + tr.pendingSize

/-- The pending batch is full. -/
def full : Bool := tr.pending.length == pendingMax

/-- `CONN_LOST`, `CLOSING` or `EOF_WRITTEN` is set. -/
def givesUp : Bool := tr.connLost || tr.closing || tr.eofWritten

/-- Put the transport on a flush list, or take it off. -/
def setFlushQueued (b : Bool) : Transport := { tr with flushQueued := b }

/-- Record the call of a method, if the protocol has it. -/
def recordCall (m : Method) : Transport :=
  if tr.protocol.bound m then tr.record (.called m) else tr

end Transport

/-! ## Acts -/

/-- An assignment to a transport, or what libuv does to its stream. -/
inductive Act where
  /-- Acquire a view for a write in progress. -/
  | acquireView
  /-- Release views a write in progress owns. -/
  | releaseViews (views : List ℕ)
  /-- Accept a buffer into the pending batch, which takes over its view. -/
  | store (b : Buf)
  /-- Take the pending batch out, for a flush that then owns its views. -/
  | takePending
  /-- Drop the pending batch. -/
  | discardPending
  /-- `uv_try_write` took `bytes`; `fresh` are those accepted with them. -/
  | took (fresh bytes : Bytes)
  /-- `uv_write` took a request, which now holds the views. -/
  | submit (fresh : Bytes) (bufs : List Bytes) (views : List ℕ) (queueSize : ℕ)
  /-- The remainder of a vector that went straight to the socket could not be queued. -/
  | tear
  /-- Set `PROTOCOL_PAUSED` and call `pause_writing`. -/
  | pauseWriting
  /-- Clear `PROTOCOL_PAUSED` and call `resume_writing`. -/
  | resumeWriting
  /-- Set the water marks. -/
  | setLimits (high low : ℕ)
  /-- `set_write_buffer_limits` raises. -/
  | limitsRaised
  /-- `write_eof()` is called and not ignored. -/
  | writeEofCalled
  /-- Set `EOF_WRITTEN`. -/
  | setEofWritten
  /-- Call `uv_shutdown`. -/
  | uvShutdown
  /-- `close()` is called. -/
  | closeCalled
  /-- Set `CLOSE_REQUESTED`. -/
  | setCloseRequested
  /-- `forceClose` is called; a reason replaces `conn_lost_exc`. -/
  | force (cause : Cause) (exc : Option Exc)
  /-- Set `CLOSING`. -/
  | setClosing
  /-- `write_buffer_size = 0`. -/
  | clearWriteBufferSize
  /-- Set `READ_STATE_PENDING`. -/
  | setReadStatePending
  /-- Clear `READ_STATE_PENDING`. -/
  | clearReadStatePending
  /-- Set or clear `ALLOCATING_READ_BUFFER`. -/
  | setAllocating (b : Bool)
  /-- Clear `OPEN`. -/
  | clearOpen
  /-- Take the socket object or pipe out, to disarm it. -/
  | takeSocketView
  /-- Keep a socket object or a pipe. -/
  | adopt (pipe : Bool)
  /-- Call `uv_close`. -/
  | uvClose
  /-- Call `uv_read_stop` and clear `READING`. -/
  | readStop
  /-- Call `uv_read_start` and set `READING`. -/
  | readStart
  /-- libuv stops reading of its own accord, after end-of-file or an error. -/
  | uvReadEnd
  /-- `pause_reading()` returns, outside `get_buffer`. -/
  | readingPaused (early : Bool)
  /-- `resume_reading()` is called. -/
  | resumeReading
  /-- `_start_reading()` is called. -/
  | startReading
  /-- Bind a protocol. -/
  | bindProtocol (p : Protocol)
  /-- Call a method of the protocol. -/
  | call (m : Method)
  /-- libuv completed the first request, with success or not. -/
  | completed (ok : Bool) (r : WriteReq) (rest : List WriteReq) (queueSize : ℕ)
  /-- libuv sent some of its queue. -/
  | drained (queueSize : ℕ)
  /-- The close callback is called and sets `CONN_LOST`. -/
  | lost
  /-- `connection_lost` is queued. -/
  | lostQueued
  /-- Call `_detach` of the server. -/
  | detach
  /-- Clear `HANDLE_REF`. -/
  | clearHandleRef

/-- What an act changes. -/
def Act.run : Act → Transport → Transport
  | acquireView, tr =>
    { tr with acquired := tr.acquired + 1, held := tr.acquired ::ₘ tr.held }
  | releaseViews views, tr =>
    { tr with held := tr.held - views, released := tr.released + views }
  | store b, tr =>
    { tr with
      pending := tr.pending ++ [b], pendingSize := tr.pendingSize + b.data.length
      held := tr.held - {b.view}, accepted := tr.accepted ++ b.data }
  | takePending, tr =>
    { tr with pending := [], pendingSize := 0, held := tr.held + tr.pendingViews }
  | discardPending, tr =>
    { tr with pending := [], pendingSize := 0, released := tr.released + tr.pendingViews }
  | took fresh bytes, tr =>
    { tr with
      accepted := tr.accepted ++ fresh, handedOver := tr.handedOver ++ bytes
      written := tr.written + bytes.length }
  | submit fresh bufs views queueSize, tr =>
    { tr with
      accepted := tr.accepted ++ fresh, handedOver := tr.handedOver ++ bufs.flatten
      writeBufferSize := tr.writeBufferSize + total bufs, held := tr.held - views
      stream := { tr.stream with
        requests := tr.stream.requests ++ [⟨total bufs, views⟩], queueSize } }
  | tear, tr => { tr with torn := true }
  | pauseWriting, tr => { tr with protocolPaused := true }.recordCall .pauseWriting
  | resumeWriting, tr => { tr with protocolPaused := false }.recordCall .resumeWriting
  | setLimits high low, tr =>
    { tr with highWater := high, lowWater := low }.record (.limits high low)
  | limitsRaised, tr => tr.record .limitsRaised
  | writeEofCalled, tr => tr.record (.writeEofCalled tr.accepted.length)
  | setEofWritten, tr => { tr with eofWritten := true }.record (.eofWritten tr.pending.length)
  | uvShutdown, tr => tr.record (.uvShutdown tr.written)
  | closeCalled, tr => tr.record (.closeCalled tr.accepted.length)
  | setCloseRequested, tr => { tr with closeRequested := true }
  | force cause exc, tr =>
    { tr with connLostExc := exc.or tr.connLostExc }.record (.forced cause exc)
  | setClosing, tr =>
    if tr.closing then tr else { tr with closing := true }.record .closingBegan
  | clearWriteBufferSize, tr => { tr with writeBufferSize := 0 }
  | setReadStatePending, tr => { tr with readStatePending := true }
  | clearReadStatePending, tr => { tr with readStatePending := false }
  | setAllocating b, tr => { tr with allocatingReadBuffer := b }
  | clearOpen, tr => { tr with opened := false, disarming := true }
  | takeSocketView, tr => { tr with socketView := false }
  | adopt pipe, tr => { tr with socketView := true, pipeOwned := tr.pipeOwned || pipe }
  | uvClose, tr =>
    { tr with disarming := false, stream := { tr.stream with closing := true } }.record
      (.uvClose tr.written)
  | readStop, tr => { tr with reading := false, stream := { tr.stream with reading := false } }
  | readStart, tr => { tr with reading := true, stream := { tr.stream with reading := true } }
  | uvReadEnd, tr => { tr with stream := { tr.stream with reading := false } }
  | readingPaused early, tr => tr.record (.readingPaused early)
  | resumeReading, tr => tr.record .resumeReading
  | startReading, tr =>
    { tr with
      history := if tr.history.any Event.isEof then tr.history ++ [.lateStart] else tr.history }
  | bindProtocol p, tr => { tr with protocol := p, complete := tr.complete && p.complete }
  | call m, tr => tr.record (.called m)
  | completed ok r rest queueSize, tr =>
    { tr with
      writeBufferSize := tr.writeBufferSize - min r.size tr.writeBufferSize
      released := tr.released + r.views
      written := if ok then tr.written + r.size else tr.written
      history := if ok then tr.history else tr.history ++ [.writeFailed]
      stream := { tr.stream with requests := rest, queueSize } }
  | drained queueSize, tr => { tr with stream := { tr.stream with queueSize } }
  | lost, tr => { tr with connLost := true, stream := { tr.stream with closed := true } }
  | lostQueued, tr => tr.record (.connectionLostQueued tr.connLostExc)
  | detach, tr => tr.record .detach
  | clearHandleRef, tr => { tr with handleRef := false }

/-! ## The loop -/

/-- A callback of the ready queue. -/
inductive Call where
  /-- `protocol.connection_made(transport)`. -/
  | connectionMade (t : ℕ)
  /-- `transport._start_reading()`. -/
  | startReading (t : ℕ)
  /-- `_set_result_unless_cancelled(waiter, None)`. -/
  | setResult
  /-- `protocol.connection_lost(exc)`. -/
  | connectionLost (t : ℕ) (exc : Option Exc)
  /-- A callback of the program. -/
  | other
deriving DecidableEq, Repr

/-- The transport a callback of the ready queue belongs to. -/
def Call.transport? : Call → Option ℕ
  | connectionMade t | startReading t | connectionLost t _ => some t
  | setResult | other => none

/-- The loop and its transports. -/
structure State extends Loop.Core Call where
  /-- The transports. -/
  tr : ℕ → Transport
  /-- The number of the next transport. -/
  fresh : ℕ
  /-- The handles of failed opens that await their close callback. -/
  failedOpens : ℕ
  /-- The transports a flush has detached and not yet visited. -/
  draining : List ℕ
  /-- `onFlush` is draining. -/
  flushing : Bool
  /-- During the last `onFlush` a transport was put on the flush list while nothing kept the loop
  from blocking. -/
  late : Bool
  /-- The prepare callbacks have run and libuv is about to compute the poll timeout. -/
  prepared : Bool
  /-- The number of native calls in progress. -/
  depth : ℕ

namespace State

/-- A new loop without transports. -/
def init : State :=
  { toCore := .init, tr := fun _ => .blank, fresh := 0, failedOpens := 0, draining := []
    flushing := false, late := false, prepared := false, depth := 0 }

variable (s : State)

/-- Change one transport. -/
def setTr (t : ℕ) (f : Transport → Transport) : State :=
  { s with tr := Function.update s.tr t (f (s.tr t)) }

/-- Perform an act on a transport. -/
def act (t : ℕ) (a : Act) : State := s.setTr t a.run

/-- Change the core. -/
def setCore (f : Loop.Core Call → Loop.Core Call) : State := { s with toCore := f s.toCore }

/-- A native call begins. -/
def enter : State := { s with depth := s.depth + 1 }

/-- A native call ends. -/
def leave : State := { s with depth := s.depth - 1 }

/-- Nothing the loop knows of keeps libuv from blocking in its next poll. -/
def mayBlock : Bool := !s.uvIdle && s.closingHandles == 0

/-- `scheduleFlush` on an open loop, for a transport that is not on a list. -/
def queueFlush (t : ℕ) : State :=
  { s.setTr t (Transport.setFlushQueued · true) with
    flushHead := t :: s.flushHead
    late := s.late || (s.flushing && s.mayBlock)
    flusherActive := true
    uvPrepare := s.uvPrepare || !s.flusherActive }

/-- Detach the flush list. -/
def detachFlushList : State := { s with flushHead := [], draining := s.flushHead }

/-- Take the next transport off the detached list. -/
def visit (t : ℕ) (rest : List ℕ) : State :=
  { s.setTr t (Transport.setFlushQueued · false) with draining := rest }

/-- `onFlush` begins. -/
def beginFlush : State := { s with flushing := true, late := false }

/-- `onFlush` ends: the prepare handle stops unless the list was refilled. -/
def endFlush : State :=
  if s.flushHead.isEmpty then
    { s with flushing := false, uvPrepare := false, flusherActive := false }
  else { s with flushing := false }

/-- `closeExternalHandle` of a stream that is not closing. -/
def uvClose (t : ℕ) : State :=
  { s.act t .uvClose with closingHandles := s.closingHandles + 1 }

/-- `externalHandleClosed`. -/
def externalHandleClosed : State :=
  { s with externalHandles := s.externalHandles - 1, closingHandles := s.closingHandles - 1 }

/-- Add a transport; its number is the old value of `fresh`. -/
def addTransport (tr : Transport) : State :=
  { s with
    tr := Function.update s.tr s.fresh tr, fresh := s.fresh + 1
    externalHandles := s.externalHandles + 1 }

/-- The handle of a failed open is closed. -/
def failOpen : State :=
  { s with
    failedOpens := s.failedOpens + 1, externalHandles := s.externalHandles + 1
    closingHandles := s.closingHandles + 1 }

/-- Replace the ready queue. -/
def setReady (ready : Queue Call) : State := { s with ready }

@[simp]
theorem tr_setTr_self (t : ℕ) (f : Transport → Transport) : (s.setTr t f).tr t = f (s.tr t) :=
  Function.update_self ..

theorem tr_setTr_ne {t u : ℕ} (h : u ≠ t) (f : Transport → Transport) :
    (s.setTr t f).tr u = s.tr u := Function.update_of_ne h ..

@[simp]
theorem tr_act_self (t : ℕ) (a : Act) : (s.act t a).tr t = a.run (s.tr t) := s.tr_setTr_self t _

theorem tr_queueFlush (t u : ℕ) :
    (s.queueFlush t).tr u = if u = t then (s.tr u).setFlushQueued true else s.tr u := by
  unfold queueFlush setTr
  dsimp only
  rw [Function.update_apply]
  split
  · rename_i hu
    rw [hu]
  · rfl

theorem tr_visit (t : ℕ) (rest : List ℕ) (u : ℕ) :
    (s.visit t rest).tr u = if u = t then (s.tr u).setFlushQueued false else s.tr u := by
  unfold visit setTr
  dsimp only
  rw [Function.update_apply]
  split
  · rename_i hu
    rw [hu]
  · rfl

theorem tr_act_ne {t u : ℕ} (h : u ≠ t) (a : Act) : (s.act t a).tr u = s.tr u :=
  s.tr_setTr_ne h _

end State

end Zuvloop.Stream
