import Mathlib.Data.Int.Notation
import Mathlib.Data.List.Basic
import Mathlib.Data.List.Count
import Zuvloop.Reentrant.Machine

/-!
# The libuv handles of a loop

What the loop knows of its libuv handles, as far as it counts them. Stream, datagram, poll and
process handles are external: `State.external_handles` counts those that are initialized,
`State.closing_handles` those that are on their way out. The handles the loop needs for itself are
not counted. A `uv_poll_t` is also in the map of pollers, by its descriptor, for as long as a
callback is registered for it.

What libuv keeps is part of the state: whether a handle is closing, with which callback, and whether
that callback has run.

## Main definitions

* `Handle`, `State`: the handles and the counters.
* `State.closeExternalHandle`, `State.externalHandleClosed`: how the loop counts.
-/

namespace Zuvloop.Handles

/-- What a handle is for. -/
inductive Kind where
  | tcp
  | pipe
  | udp
  /-- Watches a descriptor for `add_reader` and `add_writer`. -/
  | poll (fd : ℤ)
  | process
  /-- One of the handles of the loop itself. -/
  | internal
  deriving DecidableEq, Repr

/-- Whether the loop counts handles of this kind. -/
def Kind.external : Kind → Bool
  | .internal => false
  | _ => true

/-- The callbacks `uv_close` is given. -/
inductive CloseCb where
  | onClosed
  | onOpenFailed
  /-- For handles that are not counted. -/
  | onCloseFreeState
  deriving DecidableEq, Repr

/-- The directions a descriptor is polled in. -/
structure Events where
  readable : Bool := false
  writable : Bool := false
  deriving DecidableEq, Repr

/-- An initialized libuv handle, with the part of its owner that decides what becomes of it. -/
structure Handle where
  /-- What it is for. -/
  kind : Kind
  /-- The `OPEN` flag of the transport or process. -/
  isOpen : Bool := false
  /-- The callback registered with `add_reader`. -/
  reader : Option ℤ := none
  /-- The callback registered with `add_writer`. -/
  writer : Option ℤ := none
  /-- What libuv was last asked to poll for. -/
  events : Events := {}
  /-- The close callback, once `uv_close` has been called. -/
  closing : Option CloseCb := none
  /-- Whether the close callback has run. -/
  closed : Bool := false
  deriving DecidableEq, Repr

/-- Whether `external_handles` counts the handle. -/
def Handle.counted (h : Handle) : Bool := h.kind.external && !h.closed

/-- Whether `closing_handles` counts the handle. -/
def Handle.countedClosing (h : Handle) : Bool := h.counted && h.closing.isSome

/-- The native functions that make something that belongs to the loop, run it or close it. -/
inductive EntryPoint where
  | makeTransport
  | makeDatagram
  | add
  | getaddrinfo
  | getnameinfo
  | spawnProcess
  | startMetrics
  | remove
  | onPoll
  | closeLoop
  | runLoop
  deriving DecidableEq, Repr

/-- Whether Python code calls the entry point to get something made. `remove_reader` and an error of
a poll handle may restart the polling of a descriptor that stays registered. -/
def EntryPoint.creates : EntryPoint → Bool
  | .remove | .onPoll | .closeLoop | .runLoop => false
  | _ => true

/-- What can be made. -/
inductive Action where
  /-- A handle was initialized. -/
  | init
  /-- A handle was started. -/
  | start
  /-- A request was linked into the list of the loop. -/
  | link
  /-- A request was submitted. -/
  | submit
  deriving DecidableEq, Repr

/-- The exceptions that are raised. -/
inductive Exc where
  /-- Whatever Python code raised. -/
  | python
  | memoryError
  | runtimeError (message : String)
  | valueError (message : String)
  /-- For a libuv status. -/
  | osError (status : ℤ)
  /-- `socket.gaierror`. -/
  | gaierror (status : ℤ)
  deriving DecidableEq, Repr

/-- How a call from Python code ends. -/
inductive Outcome where
  /-- With an exception. -/
  | raised (exc : Exc)
  /-- With a result; `closed` is whether the loop was closed when it had done its work. -/
  | returned (closed : Bool)
  deriving DecidableEq, Repr

/-- The loop. -/
structure State where
  /-- `State.closed`. -/
  closed : Bool := false
  /-- `State.running`. -/
  running : Bool := false
  /-- Every handle that was ever initialized. -/
  handles : List Handle
  /-- `State.external_handles`. -/
  external : ℕ := 0
  /-- `State.closing_handles`. -/
  closing : ℕ := 0
  /-- `State.pollers`: the poll handle of a descriptor. -/
  pollers : List (ℤ × ℕ) := []
  /-- How many requests `State.dns_requests` links. -/
  requests : ℕ := 0
  /-- A counter was decremented at zero. -/
  underflow : Bool := false
  /-- What the assertion of `closeAllHandles` found, each time it ran. -/
  asserts : List Bool := []
  /-- How many calls into Python code are under way that no check of `closed` follows, in entry
  points that go on to make something. -/
  unchecked : ℕ := 0
  /-- The loop was closed during one of these calls. -/
  careless : Bool := false
  /-- What was made after the loop was closed, and by which entry point. -/
  late : List (EntryPoint × Action) := []
  /-- The calls of entry points that have ended. -/
  calls : List (EntryPoint × Outcome) := []

namespace State

/-- The handle with the given index. -/
def handle (s : State) (i : ℕ) : Handle := s.handles.getD i { kind := .internal }

/-- Change a handle. -/
def update (s : State) (i : ℕ) (f : Handle → Handle) : State :=
  { s with handles := s.handles.modify i f }

/-- `uv_is_closing`. -/
def isClosing (s : State) (i : ℕ) : Bool := (s.handle i).closing.isSome

/-- `uv_close`. -/
def uvClose (i : ℕ) (cb : CloseCb) (s : State) : State :=
  s.update i fun h => { h with closing := some cb }

/-- Starts closing an external handle without counting repeated close requests. -/
def closeExternalHandle (i : ℕ) (cb : CloseCb) (s : State) : State :=
  if s.isClosing i then s else uvClose i cb { s with closing := s.closing + 1 }

/-- Retires a counted handle before its close callback releases its storage. -/
def externalHandleClosed (s : State) : State :=
  { s with
    external := s.external - 1
    closing := s.closing - 1
    underflow := s.underflow || s.external == 0 || s.closing == 0 }

/-- libuv is done with a handle and runs its close callback. -/
def retire (i : ℕ) (s : State) : State := s.update i fun h => { h with closed := true }

/-- libuv links a new handle into the loop; its index is the number of handles so far. -/
def handleInit (kind : Kind) (s : State) : State :=
  { s with handles := s.handles ++ [{ kind := kind }] }

/-- `external_handles += 1`. -/
def count (s : State) : State := { s with external := s.external + 1 }

/-- Set or clear the `OPEN` flag of a transport or process. -/
def setOpen (i : ℕ) (b : Bool) (s : State) : State := s.update i fun h => { h with isOpen := b }

/-- `Map.get`. -/
def poller (s : State) (fd : ℤ) : Option ℕ := s.pollers.lookup fd

/-- `Map.remove`. -/
def removePoller (fd : ℤ) (s : State) : State :=
  { s with pollers := s.pollers.filter fun entry => entry.1 ≠ fd }

/-- `Map.put`, for a descriptor that is not in the map. -/
def putPoller (fd : ℤ) (i : ℕ) (s : State) : State := { s with pollers := (fd, i) :: s.pollers }

/-- Record that an entry point made something. -/
def made (e : EntryPoint) (a : Action) (s : State) : State :=
  if s.closed then { s with late := s.late ++ [(e, a)] } else s

/-- The loop becomes closed. -/
def markClosed (s : State) : State :=
  { s with closed := true, careless := s.careless || (!s.closed && s.unchecked != 0) }

end State

/-- A new loop: the handles for idling, timers, waking up, flushing and sampling. -/
def init : State := { handles := List.replicate 5 { kind := .internal } }

/-- The timer that samples the metrics. -/
def sampler : ℕ := 4

end Zuvloop.Handles
