import Zuvloop.Reentrant.Machine
import Zuvloop.Stream.Transport

/-!
# The datagram endpoint

`Datagram` of `zig/datagram.zig`, one endpoint with the part of libuv's handle it drives, and the
callbacks `create_datagram_endpoint` queues for it in `zuvloop/_connect.py`. A program yields
wherever the source runs Python code.

A datagram is its length and a destination that plays no part after the checks of `sendto`. The
loop is open and otherwise left out: the entry points may be started in any order, the queued
callbacks in the order they were queued.

## Main definitions

* `Endpoint`: the endpoint, with what happened to it.
* `sendto`, `onSent`, `onRecv`, `close`, `abort`, `pauseReading`, `resumeReading`.
* `system`, `env`: the entry points, and when they may be started.
-/

namespace Zuvloop.Datagram

open Reentrant
open Zuvloop.Stream (Exc defaultHighWater waterMarks uvEAGAIN)

/-! ## State -/

/-- The methods of the protocol that the endpoint calls. -/
inductive Method where
  /-- `connection_made`, called by the loop. -/
  | connectionMade
  /-- `connection_lost`, called by the loop. -/
  | connectionLost
  /-- `datagram_received`. -/
  | datagramReceived
  /-- `error_received`. -/
  | errorReceived
  /-- `pause_writing`. -/
  | pauseWriting
  /-- `resume_writing`. -/
  | resumeWriting
deriving DecidableEq, Repr

/-- What the history of an endpoint records. -/
inductive Event where
  /-- A method of the protocol was called. -/
  | called (m : Method)
  /-- `pause_reading()` returned. `early` tells whether the `_start_receiving` that
  `create_datagram_endpoint` queued had still to run. -/
  | readingPaused (early : Bool)
  /-- `resume_reading()` was called. -/
  | resumeReading
  /-- `sendto()` queued a datagram of this length with libuv. -/
  | queued (size : ℕ)
  /-- libuv completed a queued datagram of this length, and whether the close cancelled it. -/
  | completed (size : ℕ) (cancelled : Bool)
  /-- `close()` set `CLOSING`. -/
  | closeCalled
  /-- `abort()` was called. -/
  | abortCalled
  /-- `uv_close` was called. -/
  | uvClose
  /-- `connection_lost` was queued, with this argument. -/
  | connectionLostQueued (exc : Option Exc)
deriving DecidableEq, Repr

/-- A callback of the ready queue that belongs to the endpoint. -/
inductive Call where
  /-- `protocol.connection_made(transport)`. -/
  | connectionMade
  /-- `transport._start_receiving()`. -/
  | startReceiving
  /-- `protocol.connection_lost(exc)`. -/
  | connectionLost (exc : Option Exc)
deriving DecidableEq, Repr

/-- What libuv knows of the handle. -/
structure UvUdp where
  /-- `uv_udp_recv_start` is in force. -/
  receiving : Bool
  /-- `uv_close` has been called. -/
  closing : Bool
  /-- The close callback has been called. -/
  closed : Bool
  /-- The lengths of the queued datagrams, oldest first. -/
  sends : List ℕ

/-- A datagram endpoint. -/
structure Endpoint where
  /-- `READING`. -/
  reading : Bool
  /-- `CLOSING`. -/
  closing : Bool
  /-- `CONN_LOST`. -/
  connLost : Bool
  /-- `PROTOCOL_PAUSED`. -/
  protocolPaused : Bool
  /-- `OPEN`. -/
  opened : Bool
  /-- `CONNECTED`. -/
  connected : Bool
  /-- The callbacks `bindProtocol` cached. -/
  has : Method → Bool
  /-- There is a socket object to detach. -/
  socketView : Bool
  /-- The reason for `connection_lost`. -/
  connLostExc : Option Exc
  /-- `write_buffer_size`. -/
  writeBufferSize : ℕ
  /-- `high_water`. -/
  highWater : ℕ
  /-- `low_water`. -/
  lowWater : ℕ
  /-- The libuv handle. -/
  udp : UvUdp
  /-- The callbacks of the endpoint in the ready queue, in order. -/
  ready : List Call
  /-- What happened so far, oldest first. -/
  history : List Event

namespace Endpoint

/-- What `create_datagram_endpoint` leaves: the endpoint, and two callbacks in the ready queue. -/
def create (connected : Bool) (has : Method → Bool) : Endpoint :=
  { reading := false, closing := false, connLost := false, protocolPaused := false, opened := true
    connected, has, socketView := true, connLostExc := none
    writeBufferSize := 0, highWater := defaultHighWater, lowWater := defaultHighWater / 4
    udp := { receiving := false, closing := false, closed := false, sends := [] }
    ready := [.connectionMade, .startReceiving], history := [] }

variable (self : Endpoint)

/-- Record an event. -/
def record (e : Event) : Endpoint := { self with history := self.history ++ [e] }

/-- Call `uv_udp_recv_start` and set `READING`. -/
def recvStart : Endpoint :=
  { self with reading := true, udp := { self.udp with receiving := true } }

/-- Call `uv_udp_recv_stop` and clear `READING`. -/
def recvStop : Endpoint :=
  { self with reading := false, udp := { self.udp with receiving := false } }

/-- Call `uv_udp_recv_stop` and clear `READING`, if it is set. -/
def stopReading : Endpoint := if self.reading then self.recvStop else self

/-- Call `uv_close`, unless it was called before. -/
def uvClose : Endpoint :=
  if self.udp.closing then self
  else { self with udp := { self.udp with closing := true } }.record .uvClose

/-- Queue a datagram with libuv. -/
def queue (size : ℕ) : Endpoint :=
  { self with
    writeBufferSize := self.writeBufferSize + size
    udp := { self.udp with sends := self.udp.sends ++ [size] } }.record (.queued size)

/-- libuv completed a queued datagram. -/
def complete (size : ℕ) (rest : List ℕ) : Endpoint :=
  { self with
    writeBufferSize := self.writeBufferSize - min size self.writeBufferSize
    udp := { self.udp with sends := rest } }.record (.completed size self.udp.closing)

end Endpoint

/-! ## The signature -/

/-- Questions the endpoint asks. -/
inductive Request where
  /-- Is there memory for an allocation? -/
  | alloc
  /-- Can the context of the endpoint be entered? -/
  | enterContext
  /-- `uv_udp_try_send`. -/
  | trySend
  /-- `uv_udp_send`. -/
  | send
  /-- `uv_udp_recv_start`. -/
  | recvStart
deriving DecidableEq

/-- Python code the endpoint runs. -/
inductive Callback where
  /-- A method of the protocol. -/
  | protocol (m : Method)
  /-- `call_exception_handler`. -/
  | exceptionHandler
  /-- The conversion and the check of a destination, and the export of the buffer. -/
  | arguments
  /-- The conversion of a water mark. -/
  | index
  /-- `detach()` of the socket object. -/
  | disarm
  /-- Finalizers of what a reference was the last one to. -/
  | finalizer
deriving DecidableEq

/-- How Python code ended; each caller reads what it needs. -/
structure Result where
  /-- The exception it raised. -/
  raised : Option Exc
  /-- The integer, or the length of the buffer. -/
  value : Int

/-- What libuv received. -/
inductive Received where
  /-- Nothing more for now. -/
  | nothing
  /-- A datagram that did not fit. -/
  | truncated
  /-- A failure. -/
  | failed
  /-- A datagram; whether its sender can be named. -/
  | datagram (named : Bool)
deriving DecidableEq

/-- The entry points. -/
inductive Op where
  /-- `sendto`. -/
  | sendto
  /-- `close`. -/
  | close
  /-- `abort`. -/
  | abort
  /-- `pause_reading`. -/
  | pauseReading
  /-- `resume_reading`. -/
  | resumeReading
  /-- `set_write_buffer_limits`; whether a mark is given and not `None`. -/
  | setWriteBufferLimits (high low : Bool)
  /-- `set_protocol`. -/
  | setProtocol (has : Method → Bool)
  /-- `_adopt_socket_view`. -/
  | adoptSocketView
  /-- The loop runs the next callback of the endpoint. -/
  | runNext
  /-- libuv received something. -/
  | onRecv (r : Received)
  /-- libuv completed a queued datagram. -/
  | onSent (status : Int)
  /-- The close callback. -/
  | onClosed

/-- The signature of the endpoint's programs. -/
abbrev sig : Signature where
  State := Endpoint
  Request := Request
  Answer := Stream.Answer
  Callback := Callback
  Result := Result
  Proc := Empty
  Op := Op

/-- A program of the endpoint. -/
abbrev P (α : Type) : Type := Prog sig α

/-- The endpoint. -/
def self : P Endpoint := Prog.read

/-- Change the endpoint. -/
def update (f : Endpoint → Endpoint) : P Unit := Prog.modify f

/-- Ask the outside. -/
def request (q : Request) : P Stream.Answer := Prog.request (S := sig) q

/-- Run Python code. -/
def foreign (c : Callback) : P Result := Prog.foreign (S := sig) c

/-- Run Python code whose outcome does not matter. -/
def python (c : Callback) : P Unit := (fun _ => ()) <$> foreign c

/-! ## Protocol dispatch -/

/-- Call a method of the protocol, and report what it raises. -/
def callProtocol (m : Method) : P Unit := do
  let tr ← self
  if tr.has m then
    update (·.record (.called m))
    let r ← foreign (.protocol m)
    if r.raised.isSome then python .exceptionHandler

/-- Call a method of the protocol in the context of the endpoint. -/
def callInContext (m : Method) : P Unit := do
  let tr ← self
  if tr.has m then
    let entered ← request .enterContext
    if entered.ok then
      update (·.record (.called m))
      let r ← foreign (.protocol m)
      if r.raised.isSome then python .exceptionHandler
    else python .exceptionHandler

/-- Queue `connection_lost`. -/
def scheduleConnectionLost : P Unit := do
  let tr ← self
  if tr.has .connectionLost then
    let a ← request .alloc
    if a.ok then
      update fun tr =>
        { tr with ready := tr.ready ++ [Call.connectionLost tr.connLostExc] }.record
          (.connectionLostQueued tr.connLostExc)

/-! ## Receiving -/

/-- Start receiving, unless it is started or there is nothing to receive from. -/
def startReceiving : P (Except Exc Unit) := do
  let tr ← self
  if tr.reading || tr.closing || tr.connLost then return .ok ()
  let a ← request .recvStart
  if a.status < 0 then return .error (.osError a.status)
  update Endpoint.recvStart
  return .ok ()

/-- libuv received something. -/
def onRecv : Received → P Unit
  | .nothing => return
  | .truncated | .failed => do
    let a ← request .alloc
    if a.ok then callInContext .errorReceived
  | .datagram named => do
    let a ← request .alloc
    if a.ok then
      if named then callInContext .datagramReceived
      else callInContext .errorReceived

/-! ## Teardown -/

/-- Detach the socket object. -/
def releaseSocketView : P Unit := do
  let tr ← self
  if tr.socketView then
    update ({ · with socketView := false })
    python .disarm

/-- Close the libuv handle. -/
def shutdownAndClose : P Unit := do
  let tr ← self
  if tr.opened then
    update ({ · with opened := false })
    update Endpoint.stopReading
    releaseSocketView
    update Endpoint.uvClose

/-- The endpoint is closed. -/
def onClosed : P Unit := do
  update fun tr => { tr with connLost := true, udp := { tr.udp with closed := true } }
  scheduleConnectionLost
  python .finalizer

/-! ## Sending -/

/-- Tell the protocol to stop sending, once there is too much. -/
def maybePauseProtocol : P Unit := do
  let tr ← self
  if tr.writeBufferSize ≤ tr.highWater then return
  if tr.protocolPaused then return
  update ({ · with protocolPaused := true })
  callProtocol .pauseWriting

/-- Tell the protocol to go on, once there is little left. -/
def maybeResumeProtocol : P Unit := do
  let tr ← self
  if tr.closing || tr.connLost then return
  if !tr.protocolPaused then return
  if tr.lowWater < tr.writeBufferSize then return
  update ({ · with protocolPaused := false })
  callProtocol .resumeWriting

/-- A queued datagram is done. -/
def onSent (status : Int) : P Unit := do
  let tr ← self
  match tr.udp.sends with
  | [] => return
  | size :: rest =>
    update (·.complete size rest)
    python .finalizer
    let tr ← self
    if status < 0 ∧ !(tr.closing || tr.connLost) then callProtocol .errorReceived
    maybeResumeProtocol
    let tr ← self
    if tr.writeBufferSize = 0 ∧ tr.closing then shutdownAndClose

/-- Queue a datagram of `size` bytes. -/
def queueSend (size : ℕ) : P (Except Exc Unit) := do
  let a ← request .alloc
  if !a.ok then return .error .memoryError
  let a ← request .send
  if a.status < 0 then return .error (.osError a.status)
  update (·.queue size)
  maybePauseProtocol
  return .ok ()

/-- `sendto`. What its arguments run or raise comes first. -/
def sendto : P (Except Exc Unit) := do
  let r ← foreign .arguments
  match r.raised with
  | some exc => return .error exc
  | none =>
    let tr ← self
    if tr.connLost || tr.closing then return .ok ()
    if tr.writeBufferSize = 0 then
      let a ← request .trySend
      if 0 ≤ a.status then return .ok ()
      if a.status ≠ uvEAGAIN then
        callProtocol .errorReceived
        return .ok ()
      else queueSend r.value.toNat
    else queueSend r.value.toNat

/-! ## Python methods -/

/-- `abort`. -/
def abort : P Unit := do
  update fun tr => { tr with closing := true, writeBufferSize := 0 }.record .abortCalled
  shutdownAndClose

/-- `close`. -/
def close : P Unit := do
  let tr ← self
  if tr.closing then return
  update fun tr => { tr with closing := true }.record .closeCalled
  update Endpoint.stopReading
  let tr ← self
  if tr.writeBufferSize = 0 then shutdownAndClose

/-- `pause_reading`. -/
def pauseReading : P (Except Exc Unit) := do
  let tr ← self
  if tr.closing then return .error (.runtimeError "Cannot pause_reading() after close()")
  update Endpoint.stopReading
  update fun tr => tr.record (.readingPaused (decide (.startReceiving ∈ tr.ready)))
  return .ok ()

/-- `resume_reading`. -/
def resumeReading : P (Except Exc Unit) := do
  update (·.record .resumeReading)
  let tr ← self
  if tr.closing then return .error (.runtimeError "Cannot resume_reading() after close()")
  startReceiving

/-- `_start_receiving`, queued by `create_datagram_endpoint`. -/
def startReceivingMethod : P Unit := do
  match ← startReceiving with
  | .ok () => return
  | .error exc =>
    update fun tr => { tr with connLostExc := some exc, closing := true }
    shutdownAndClose

/-- Convert a water mark, if it is given. -/
def waterMark (given : Bool) (message : String) : P (Except Exc (Option ℕ)) := do
  if !given then return .ok none
  let r ← foreign .index
  match r.raised with
  | some exc => return .error exc
  | none =>
    if r.value < 0 then return .error (.valueError message)
    return .ok (some r.value.toNat)

/-- `set_write_buffer_limits`. -/
def setWriteBufferLimits (high low : Bool) : P (Except Exc Unit) := do
  match ← waterMark high "high water mark must be non-negative" with
  | .error exc => return .error exc
  | .ok high =>
    match ← waterMark low "low water mark must be non-negative" with
    | .error exc => return .error exc
    | .ok low =>
      match waterMarks high low with
      | .error exc => return .error exc
      | .ok marks =>
        update ({ · with highWater := marks.1, lowWater := marks.2 })
        maybePauseProtocol
        return .ok ()

/-- `_adopt_socket_view`. -/
def adoptSocketView : P Unit := do
  update ({ · with socketView := false })
  python .finalizer
  update ({ · with socketView := true })

/-- Run a callback of the ready queue. -/
def runCall : Call → P Unit
  | .connectionMade => do
    update (·.record (.called .connectionMade))
    python (.protocol .connectionMade)
  | .startReceiving => startReceivingMethod
  | .connectionLost _ => do
    update (·.record (.called .connectionLost))
    python (.protocol .connectionLost)

/-- The loop runs the next callback of the endpoint. -/
def runNext : P Unit := do
  let tr ← self
  match tr.ready with
  | [] => return
  | call :: rest =>
    update ({ · with ready := rest })
    runCall call
    python .finalizer

/-! ## The system -/

/-- The entry points. -/
def entry : Op → P Unit
  | .sendto => (fun _ => ()) <$> sendto
  | .close => close
  | .abort => abort
  | .pauseReading => (fun _ => ()) <$> pauseReading
  | .resumeReading => (fun _ => ()) <$> resumeReading
  | .setWriteBufferLimits high low => (fun _ => ()) <$> setWriteBufferLimits high low
  | .setProtocol has => update ({ · with has })
  | .adoptSocketView => adoptSocketView
  | .runNext => runNext
  | .onRecv r => onRecv r
  | .onSent status => onSent status
  | .onClosed => onClosed

/-- An endpoint that `create_datagram_endpoint` has just made. -/
def system (connected : Bool) (has : Method → Bool) : System sig where
  body := Empty.elim
  entry := entry
  init := .create connected has

/-- What libuv has to have noticed before it calls an entry point. -/
def Ready (tr : Endpoint) : Op → Prop
  | .onRecv _ => tr.udp.receiving ∧ tr.udp.closing = false
  | .onSent _ => tr.udp.sends ≠ []
  | .onClosed => tr.udp.closing ∧ tr.udp.closed = false ∧ tr.udp.sends = []
  | _ => True

/-- Everything outside the endpoint. -/
def env : Env sig where
  answers := fun _ _ _ => True
  returns := fun _ _ _ => True
  starts := fun _ s op => Ready s op

instance (tr : Endpoint) (op : Op) : Decidable (Ready tr op) :=
  match op with
  | .onRecv _ => inferInstanceAs (Decidable (tr.udp.receiving = true ∧ tr.udp.closing = false))
  | .onSent _ => inferInstanceAs (Decidable (tr.udp.sends ≠ []))
  | .onClosed => inferInstanceAs (Decidable (tr.udp.closing = true ∧ tr.udp.closed = false ∧
      tr.udp.sends = []))
  | .sendto | .close | .abort | .pauseReading | .resumeReading | .setWriteBufferLimits _ _
  | .setProtocol _ | .adoptSocketView | .runNext => .isTrue trivial

instance (c : Config sig) (l : Label sig) : Decidable (env.Allows c l) :=
  match l with
  | .tau => .isTrue trivial
  | .answer _ =>
    match h : c.running with
    | some (.ask _ _) => .isTrue (by simp [Env.Allows, env, h])
    | some (.ret _) | some (.get _) | some (.set _ _) | some (.yield _ _) | some (.call _ _)
    | none => .isFalse (by simp [Env.Allows, h])
  | .start op => inferInstanceAs (Decidable (Ready c.state op))
  | .resume _ =>
    match h : c.stack with
    | _ :: _ => .isTrue (by simp [Env.Allows, env, h])
    | [] => .isFalse (by simp [Env.Allows, h])

end Zuvloop.Datagram
