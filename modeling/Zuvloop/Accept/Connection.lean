import Mathlib.Data.Int.Notation
import Zuvloop.Transition

/-!
# Accepting connections

The life of an accepted connection in `_server.py`, `_connect.py` and `transport.zig`. The accepted
socket belongs to Python code until `_make_transport` has opened its descriptor; from then on
libuv closes the descriptor, and the native close callback gives the connection back to the server.
Without TLS all of the setup happens inside the accept callback, with TLS it is a task of its own
that waits for the handshake.

A step is what happens between two points where other code can run: the protocol factory is Python
code that can call anything, and so is everything that runs while the task waits. What is outside
the model is given by the label: which call raised what, how many bytes a flush left.

## Main definitions

* `Conn`: an accepted connection, with its native transport once it has one.
* `accept`, `attachTransport`, `acceptTls`, `detach`: the Python code.
* `Conn.closeTransport`, `Conn.forceClose`, `onClosed`: the native code.
* `machine`: a server and any number of connections.
-/

namespace Zuvloop.Accept

/-- The exceptions the accept code tells apart. -/
inductive Exc where
  /-- A `ConnectionError` or a `TimeoutError`. -/
  | connection
  /-- Any other `Exception`. -/
  | error
  /-- Any other `BaseException`, a cancellation above all. -/
  | base
deriving DecidableEq, Repr

/-- `isinstance(exc, Exception)`. -/
def Exc.isException : Exc → Bool
  | .base => false
  | _ => true

/-- The socket object of an accepted connection. -/
inductive Sock where
  /-- It holds the descriptor. -/
  | armed
  /-- It was detached from the descriptor. -/
  | detached
  /-- It closed the descriptor. -/
  | closed
deriving DecidableEq, Repr

/-- `sock.detach()`. -/
def Sock.detach : Sock → Sock
  | .armed => .detached
  | s => s

/-- How far the accept code is with a connection. -/
inductive Stage where
  /-- `_accept_connection` was called. Without TLS the protocol factory is running. -/
  | accepting
  /-- The task of `_accept_tls` has not begun. -/
  | scheduled
  /-- `_wrap_socket` has been entered, and the protocol factory is running. -/
  | wrapping
  /-- `_wrap_socket` waits for the handshake. -/
  | handshake
  /-- Nothing of the accept code is left. -/
  | over
deriving DecidableEq, Repr

/-- What the server's side depends on in a native transport. -/
structure Native where
  /-- `OPEN` is set. -/
  opened : Bool
  /-- `CLOSING` is set. -/
  closing : Bool
  /-- `CONN_LOST` is set. -/
  connLost : Bool
  /-- There is a `socket_view`. -/
  view : Bool
  /-- The `write_buffer_size`. -/
  writeBufferSize : ℕ
deriving DecidableEq, Repr

/-- An accepted connection. -/
structure Conn where
  /-- How far the accept code is. -/
  stage : Stage
  /-- The accepted socket. -/
  sock : Sock
  /-- The transport, once there is one. -/
  native : Option Native
  /-- The transport is in the server's `_transports`. -/
  tracked : Bool
  /-- What the accept code ended with, if it raised. -/
  raised : Option Exc
  /-- How often the socket object closed the descriptor. -/
  closedByPython : ℕ
  /-- How often libuv closed the descriptor. -/
  closedByLibuv : ℕ
  /-- How often the server detached the connection. -/
  detaches : ℕ
deriving DecidableEq, Repr

/-- A connection that `sock.accept()` has just returned. -/
def Conn.fresh : Conn :=
  { stage := .accepting, sock := .armed, native := none, tracked := false, raised := none,
    closedByPython := 0, closedByLibuv := 0, detaches := 0 }

/-- The fields of `Server` that accepting depends on. -/
structure Server where
  /-- `_ssl` is not `None`. -/
  tls : Bool
  /-- `_active`. -/
  active : ℤ
  /-- `_sockets` is not `None`. -/
  listening : Bool
  /-- `_wakeup` has run: `_waiters` is `None`. -/
  woken : Bool
deriving DecidableEq, Repr

/-- What the code that handles one connection works on. -/
structure Scope where
  /-- The server. -/
  server : Server
  /-- The connection. -/
  conn : Conn
  /-- What was given to the loop's exception handler. -/
  reported : List Exc
deriving DecidableEq, Repr

/-! ## The native transport -/

namespace Conn

/-- `shutdownAndClose`: `releaseSocketView` detaches the accepted socket, and `uv_close` closes the
descriptor. -/
def shutdownAndClose (c : Conn) (n : Native) : Conn :=
  if n.opened then
    { c with
      native := some { n with opened := false, view := false }
      sock := if n.view then c.sock.detach else c.sock
      closedByLibuv := c.closedByLibuv + 1 }
  else { c with native := some n }

/-- `forceClose`. -/
def forceClose (c : Conn) (n : Native) : Conn :=
  c.shutdownAndClose { n with closing := true, writeBufferSize := 0 }

end Conn

/-- What `flushPending` did. -/
inductive Flush where
  /-- It left this many bytes in libuv's queue. -/
  | left (bytes : ℕ)
  /-- The write failed and the transport was closed by force. -/
  | failed
deriving DecidableEq, Repr

namespace Conn

/-- `closeTransport`. -/
def closeTransport (c : Conn) (n : Native) (flush : Flush) : Conn :=
  if n.closing then c
  else
    match flush with
    | .failed => c.forceClose n
    | .left 0 => c.shutdownAndClose { n with closing := true, writeBufferSize := 0 }
    | .left (bytes + 1) =>
      { c with native := some { n with closing := true, writeBufferSize := bytes + 1 } }

/-- A write that does not end at once. -/
def write (c : Conn) (n : Native) (bytes : ℕ) : Conn :=
  { c with native := some { n with writeBufferSize := n.writeBufferSize + bytes } }

/-- `onWritten`: what was completed leaves this many bytes. -/
def onWritten (c : Conn) (n : Native) (left : ℕ) : Conn :=
  if n.closing && left == 0 then c.shutdownAndClose { n with writeBufferSize := left }
  else { c with native := some { n with writeBufferSize := left } }

/-- What `onClosed` does to the transport, and what `_detach` does to `_transports`. -/
def lose (c : Conn) (n : Native) : Conn :=
  { c with native := some { n with connLost := true }, tracked := false }

end Conn

/-! ## The Python code -/

/-- Python code that handles one connection. -/
abbrev Py (α : Type) := ExceptT Exc (StateM Scope) α

/-- Change the connection. -/
def Py.conn (f : Conn → Conn) : Py Unit := modify fun s => { s with conn := f s.conn }

/-- Call a native function of the transport. -/
def Py.native (f : Conn → Native → Conn) : Py Unit :=
  Py.conn fun c =>
    match c.native with
    | some n => f c n
    | none => c

/-- Raise the exception, if there is one. -/
def raising : Option Exc → Py Unit
  | some e => throw e
  | none => pure ()

/-- `conn.fileno() != -1`. -/
def hasFileno : Py Bool := do return (← get).conn.sock == .armed

/-- `conn.close()`. -/
def closeSocket : Py Unit :=
  Py.conn fun c =>
    if c.sock == .armed then { c with sock := .closed, closedByPython := c.closedByPython + 1 }
    else c

/-- `Server._detach`, after `transport` has been discarded if there is one. -/
def detach : Py Unit :=
  modify fun s =>
    let server := { s.server with active := s.server.active - 1 }
    { s with
      server :=
        if server.active = 0 ∧ ¬ server.listening then { server with woken := true } else server
      conn := { s.conn with detaches := s.conn.detaches + 1 } }

/-- `call_exception_handler`. -/
def callExceptionHandler (e : Exc) : Py Unit :=
  modify fun s => { s with reported := s.reported ++ [e] }

/-- What the calls that set up a connection raise. -/
structure Setup where
  /-- The protocol factory; with TLS also what makes the SSL protocol. -/
  factory : Option Exc
  /-- `_make_transport`, or what is read from the socket before it. -/
  makeTransport : Option Exc
  /-- `_adopt_socket_view`. -/
  adoptSocketView : Option Exc
  /-- `Server._attach`. -/
  attach : Option Exc
deriving DecidableEq, Repr

/-- A setup in which nothing raises. -/
def Setup.clean : Setup := ⟨none, none, none, none⟩

/-- `_make_transport`, `_adopt_socket_view` and `Server._attach`, as they are when they do not
raise. -/
def makeTransport : Py Unit :=
  Py.conn fun c => { c with native := some ⟨true, false, false, false, 0⟩ }

@[inherit_doc makeTransport]
def adoptSocketView : Py Unit :=
  Py.native fun c n => { c with native := some { n with view := true } }

@[inherit_doc makeTransport]
def attach : Py Unit := Py.conn fun c => { c with tracked := true }

/-- `_attach_transport`. -/
def attachTransport (o : Setup) : Py Unit := do
  raising o.makeTransport
  makeTransport
  try
    raising o.adoptSocketView
    adoptSocketView
    raising o.attach
    attach
  catch e =>
    Py.conn fun c => { c with sock := c.sock.detach }
    Py.native Conn.forceClose
    throw e

/-- What `_accept` does around `_accept_connection`. -/
def accept (acceptConnection : Py Unit) : Py Unit := do
  try acceptConnection
  catch e =>
    if ← hasFileno then
      closeSocket
      detach
    throw e

/-- `_accept_connection` without TLS, from where the protocol factory returns. -/
def acceptConnection (o : Setup) : Py Unit := do
  raising o.factory
  attachTransport o

/-- The handler of `_accept_tls`. -/
def acceptTlsRaised (e : Exc) : Py Unit := do
  if ← hasFileno then
    closeSocket
    detach
  else if e = .connection then
    return
  if e.isException then
    callExceptionHandler e
    return
  throw e

/-- What `_accept_tls` does around `_wrap_socket`. -/
def acceptTls (wrapSocket : Py Unit) : Py Unit := do
  try wrapSocket
  catch e => acceptTlsRaised e

/-- `_wrap_socket` for a server, from where the protocol factory returns to the handshake. With a
server the handler of the setup only raises again. -/
def wrapSocket (o : Setup) : Py Unit := do
  raising o.factory
  attachTransport o

/-- `_wrap_socket` when waiting for the handshake raises. -/
def waiterRaised (e : Exc) (flush : Flush) : Py Unit := do
  Py.native fun c n => c.closeTransport n flush
  throw e

/-- `onClosed`: the connection is lost, and the server detaches it. -/
def onClosed : Py Unit := do
  Py.native Conn.lose
  detach

/-! ## Steps -/

/-- What can happen to a connection. -/
inductive Act where
  /-- Without TLS: the protocol factory returns, and the rest of the setup is done. -/
  | connect (o : Setup)
  /-- With TLS: the task of `_accept_tls` is created, or `create_task` raises. -/
  | createTask (raised : Option Exc)
  /-- The task takes its first step, up to the protocol factory. -/
  | beginTask
  /-- The task is cancelled before its first step: the coroutine is not entered at all, and the
  socket object closes the descriptor when it is released. -/
  | cancelUnstarted
  /-- The protocol factory returns, and the setup goes on up to the handshake. -/
  | wrap (o : Setup)
  /-- The handshake succeeds. -/
  | handshakeDone
  /-- Waiting for the handshake raises: it failed, it took too long, the connection was lost, or
  the task was cancelled. -/
  | handshakeFailed (e : Exc) (flush : Flush)
  /-- The protocol, or the TLS layer, writes. -/
  | write (bytes : ℕ)
  /-- A write completes. -/
  | written (left : ℕ)
  /-- `transport.close()`. -/
  | close (flush : Flush)
  /-- `transport.abort()`, or a failed read or write. -/
  | abort
  /-- libuv calls `onClosed`. -/
  | closed
deriving DecidableEq, Repr

/-- Run accept code that leaves the connection in the given stage; if it raises, nothing of it is
left. -/
def Py.finish (p : Py Unit) (stage : Stage) (s : Scope) : Scope :=
  match p.run.run s with
  | (.ok _, s') => { s' with conn := { s'.conn with stage } }
  | (.error e, s') => { s' with conn := { s'.conn with stage := .over, raised := some e } }

/-- Run native code. -/
def Py.callback (p : Py Unit) (s : Scope) : Scope := (p.run.run s).2

/-- `wrapSocket` left a transport to wait for, unless it raised and `_accept_tls` swallowed that. -/
def Setup.stage (o : Setup) : Stage := if o = .clean then .handshake else .over

namespace Act

/-- Whether it can happen now. -/
def applies (s : Scope) : Act → Bool
  | .connect _ => s.conn.stage == .accepting && !s.server.tls
  | .createTask _ => s.conn.stage == .accepting && s.server.tls
  | .beginTask | .cancelUnstarted => s.conn.stage == .scheduled
  | .wrap _ => s.conn.stage == .wrapping
  | .handshakeDone | .handshakeFailed _ _ => s.conn.stage == .handshake
  | .write _ => s.conn.native.any fun n => n.opened && !n.closing
  | .written left => s.conn.native.any fun n => left ≤ n.writeBufferSize
  | .close _ | .abort => s.conn.native.isSome
  | .closed => s.conn.native.any fun n => !n.opened && !n.connLost

/-- What it leads to. -/
def effect (s : Scope) : Act → Scope
  | .connect o => (accept (acceptConnection o)).finish .over s
  | .createTask raised => (accept (raising raised)).finish .scheduled s
  | .beginTask => (pure () : Py Unit).finish .wrapping s
  | .cancelUnstarted => (do closeSocket; throw .base : Py Unit).finish .over s
  | .wrap o => (acceptTls (wrapSocket o)).finish o.stage s
  | .handshakeDone => (pure () : Py Unit).finish .over s
  | .handshakeFailed e flush => (acceptTls (waiterRaised e flush)).finish .over s
  | .write bytes => (Py.native fun c n => c.write n bytes).callback s
  | .written left => (Py.native fun c n => c.onWritten n left).callback s
  | .close flush => (Py.native fun c n => c.closeTransport n flush).callback s
  | .abort => (Py.native Conn.forceClose).callback s
  | .closed => onClosed.callback s

end Act

/-- A server with the connections it has accepted, in order. -/
structure World where
  /-- The server. -/
  server : Server
  /-- The connections. -/
  conns : List Conn
  /-- What was given to the loop's exception handler. -/
  reported : List Exc
deriving DecidableEq, Repr

/-- What can happen. -/
inductive Label where
  /-- `sock.accept()` returns a connection. -/
  | accept
  /-- `Server.close()`. -/
  | closeServer
  /-- Something happens to a connection. -/
  | on (i : ℕ) (a : Act)
deriving DecidableEq, Repr

namespace World

/-- What the code that handles a connection works on. -/
def scope (w : World) (c : Conn) : Scope := ⟨w.server, c, w.reported⟩

/-- Put back what the code that handles connection `i` has worked on. -/
def put (w : World) (i : ℕ) (s : Scope) : World := ⟨s.server, w.conns.set i s.conn, s.reported⟩

/-- One step. -/
def step (w : World) : Label → Option World
  | .accept =>
    if w.server.listening then
      some { w with
        server := { w.server with active := w.server.active + 1 }
        conns := w.conns ++ [.fresh] }
    else none
  | .closeServer =>
    if w.server.listening then
      some { w with
        server := { w.server with listening := false, woken := w.server.active = 0 } }
    else some w
  | .on i a => do
    let c ← w.conns[i]?
    if a.applies (w.scope c) then some (w.put i (a.effect (w.scope c))) else none

/-- A server that has accepted nothing. -/
def init (tls : Bool) : World := ⟨⟨tls, 0, true, false⟩, [], []⟩

end World

/-- A server and any number of connections. -/
def machine (tls : Bool) : Transition.Machine World Label := ⟨.init tls, World.step⟩

end Zuvloop.Accept
