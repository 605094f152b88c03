import Mathlib.Logic.Function.Basic
import Zuvloop.Reentrant.Logs

/-!
# Signal handlers and the wakeup descriptor

The functions of `zuvloop/_loop.py` and `zuvloop/_base.py` that register signal handlers. The state
they share is that of the process: which loop owns a signal (`_signal_owners`), which loop owns the
wakeup descriptor (`_wakeup_fd_owner`), the descriptor that is installed and what each signal is set
to. The token of a loop is the loop's number, and so is the descriptor of its self-pipe.

The functions run on the main thread, one Python-level step after the other. Between any two steps
the interpreter may run the deferred cleanup of a loop that another thread has closed, and another
thread may close a loop; `step` marks these places. A call of `signal.set_wakeup_fd` or
`signal.signal` may raise, and other code may run before it takes effect and after it returns.

A loop that another thread closes is first marked (`finalize`) and then hands its cleanup over to
the main thread (`retire`). No other thread closes a loop that runs, or of which an operation is in
progress. `run_forever` is two entry points, with the run between them. `siginterrupt` is taken to
succeed, and the queue of pending calls not to be full.

## Main definitions

* `Loop`, `State`: the loops, and what they share.
* `addSignalHandler`, `removeSignalHandler`, `close`, `finishDeferredSignalCleanup`: the functions.
* `system`, `env`: the entry points, and when they may be started.
-/

namespace Zuvloop.Signals

open Reentrant

/-! ## State -/

/-- What a signal is set to. -/
inductive Handler where
  /-- `SIG_DFL`. -/
  | dfl
  /-- `default_int_handler`. -/
  | defaultInt
  /-- `_noop_signal_handler`. -/
  | noop
  /-- A handler of the program. -/
  | other (n : ℕ)
deriving DecidableEq, Repr

/-- `SIGINT`. -/
def SIGINT : ℕ := 2

/-- What a signal is reset to. -/
def defaultHandler (sig : ℕ) : Handler := if sig = SIGINT then .defaultInt else .dfl

/-- `_signal_handlers`: a signal with the callback, arguments and context it was registered with. -/
abbrev Handlers := List (ℕ × ℕ)

namespace Handlers

/-- `get`. -/
def entry (h : Handlers) (sig : ℕ) : Option ℕ := h.lookup sig

/-- `del`. -/
def erase (h : Handlers) (sig : ℕ) : Handlers := h.filter fun p => p.1 != sig

/-- `__setitem__`: the place of an entry that is there is kept. -/
def insert (h : Handlers) (sig entry : ℕ) : Handlers :=
  if (h.entry sig).isSome then h.map fun p => if p.1 = sig then (sig, entry) else p
  else h ++ [(sig, entry)]

/-- The signals, in the order they were registered. -/
def signals (h : Handlers) : List ℕ := h.map Prod.fst

end Handlers

/-- What a loop has to do with signals. -/
structure Loop where
  /-- `_signal_handlers`. -/
  handlers : Handlers
  /-- `_wakeup_fd_attached`. -/
  attached : Bool
  /-- `is_closed()`. -/
  closed : Bool
  /-- `is_running()`. -/
  running : Bool
  /-- `finalized`, of the loop's token. -/
  finalized : Bool
  /-- The descriptor of `_csock` is open, also after `detach()`. -/
  fdOpen : Bool
  /-- Another thread is closing the loop, and has not come to the cleanup yet. -/
  retiring : Bool
  /-- The signals of the cleanup that waits for the main thread. -/
  deferred : Option (List ℕ)

/-- A new loop. -/
def Loop.new : Loop :=
  { handlers := [], attached := false, closed := false, running := false, finalized := false
    fdOpen := true, retiring := false, deferred := none }

/-- The loops, and what they share. -/
structure State where
  /-- The loops. -/
  loops : ℕ → Loop
  /-- `_signal_owners`. -/
  owners : ℕ → Option ℕ
  /-- `_wakeup_fd_owner`. -/
  wakeupOwner : Option ℕ
  /-- The wakeup descriptor that is installed; `none` is `-1`. -/
  wakeupFd : Option ℕ
  /-- What each signal is set to. -/
  disposition : ℕ → Handler
  /-- The loop of the operation in progress on the main thread. -/
  busy : Option ℕ
  /-- The number of functions in progress on the main thread. -/
  depth : ℕ

namespace State

/-- Nothing is registered. -/
def init : State :=
  { loops := fun _ => .new, owners := fun _ => none, wakeupOwner := none, wakeupFd := none
    disposition := defaultHandler, busy := none, depth := 0 }

variable (s : State)

/-- Change one loop. -/
def setLoop (l : ℕ) (f : Loop → Loop) : State :=
  { s with loops := Function.update s.loops l (f (s.loops l)) }

/-- Set or delete the owner of a signal. -/
def setOwner (sig : ℕ) (owner : Option ℕ) : State :=
  { s with owners := Function.update s.owners sig owner }

/-- Set what a signal is set to. -/
def setDisposition (sig : ℕ) (h : Handler) : State :=
  { s with disposition := Function.update s.disposition sig h }

@[simp]
theorem loops_setLoop_self (l : ℕ) (f : Loop → Loop) :
    (s.setLoop l f).loops l = f (s.loops l) := Function.update_self ..

theorem loops_setLoop_ne {l o : ℕ} (h : o ≠ l) (f : Loop → Loop) :
    (s.setLoop l f).loops o = s.loops o := Function.update_of_ne h ..

@[simp]
theorem owners_setOwner_self (sig : ℕ) (owner : Option ℕ) :
    (s.setOwner sig owner).owners sig = owner := Function.update_self ..

theorem owners_setOwner_ne {sig sig' : ℕ} (h : sig' ≠ sig) (owner : Option ℕ) :
    (s.setOwner sig owner).owners sig' = s.owners sig' := Function.update_of_ne h ..

@[simp]
theorem disposition_setDisposition_self (sig : ℕ) (h : Handler) :
    (s.setDisposition sig h).disposition sig = h := Function.update_self ..

theorem disposition_setDisposition_ne {sig sig' : ℕ} (hne : sig' ≠ sig) (h : Handler) :
    (s.setDisposition sig h).disposition sig' = s.disposition sig' := Function.update_of_ne hne ..

/-- Another thread marks a loop as closed. -/
def finalize (l : ℕ) : State :=
  s.setLoop l fun L => { L with closed := true, finalized := true, retiring := true }

/-- The signals another thread leaves to the cleanup: it drops those the loop does not own any more,
and gives up at the first it does, since it must not reset a signal. -/
def remaining (l : ℕ) : Handlers :=
  (s.loops l).handlers.dropWhile fun h => s.owners h.1 != some l

/-- Another thread hands over the cleanup of a loop, or closes the descriptor if there is nothing to
clean up. -/
def retire (l : ℕ) : State :=
  if s.remaining l = [] ∧ (s.loops l).attached = false then
    s.setLoop l fun L => { L with handlers := [], retiring := false, fdOpen := false }
  else
    s.setLoop l fun L =>
      { L with
        handlers := [], retiring := false, attached := false
        deferred := some (s.remaining l).signals }

@[simp]
theorem depth_retire (l : ℕ) : (s.retire l).depth = s.depth := by
  rw [retire]
  split <;> rfl

end State

/-! ## The signature -/

/-- A Python exception. -/
inductive Exc where
  /-- `OSError`. -/
  | osError
  /-- `ValueError`. -/
  | valueError
  /-- `RuntimeError`. -/
  | runtimeError
  /-- `AssertionError`. -/
  | assertionError
deriving DecidableEq, Repr

/-- Places where the interpreter may run something else. -/
inductive Callback where
  /-- Between two Python-level steps. -/
  | step
  /-- Between the check of the previous owner in `_attach_wakeup_fd` and its return to the place of
  the owner. -/
  | commit (previousOwner : Option ℕ)
  /-- Before `_restore_wakeup_fd` looks at whether the previous owner has been closed. -/
  | recheck (previousOwner : Option ℕ) (wasAttached : Bool)
  /-- `signal.set_wakeup_fd`, which may be part of a rollback. -/
  | setWakeupFd (fd : Option ℕ) (rollback : Bool)
  /-- `signal.signal`. -/
  | signal (sig : ℕ) (h : Handler)
deriving DecidableEq

/-- How a call ends: the exception it raises. -/
abbrev Outcome := Option Exc

/-- The entry points. -/
inductive Op where
  /-- `add_signal_handler`. -/
  | addSignalHandler (l sig entry : ℕ)
  /-- `remove_signal_handler`. -/
  | removeSignalHandler (l sig : ℕ)
  /-- `run_forever`, up to the run. -/
  | runBegin (l : ℕ)
  /-- `run_forever`, from the end of the run on. -/
  | runEnd (l : ℕ)
  /-- `close`, on the main thread. -/
  | close (l : ℕ)
  /-- Another thread begins to close a loop. -/
  | finalize (l : ℕ)
  /-- Another thread comes to the cleanup of the loop it closes. -/
  | retire (l : ℕ)
  /-- The deferred cleanup of a loop. -/
  | cleanup (l : ℕ)

/-- The signature of the programs: the only question is whether a number is one of a signal. -/
abbrev sig : Signature where
  State := State
  Request := ℕ
  Answer := Bool
  Callback := Callback
  Result := Outcome
  Proc := Empty
  Op := Op

/-- A program. -/
abbrev P (α : Type) : Type := Prog sig α

/-! ## Primitives -/

/-- The state. -/
def getState : P State := Prog.read

/-- Change the state. -/
def update (f : State → State) : P Unit := Prog.modify f

/-- Change a loop. -/
def setLoop (l : ℕ) (f : Loop → Loop) : P Unit := update fun s => s.setLoop l f

/-- Something else may run. -/
def step : P Unit := (fun _ => ()) <$> Prog.foreign (S := sig) .step

/-- `sig in signal.valid_signals()`. -/
def validSignal (n : ℕ) : P Bool := Prog.request (S := sig) n

/-- `signal.set_wakeup_fd`. Returns the descriptor that was installed. -/
def setWakeupFd (fd : Option ℕ) (rollback : Bool) : P (Except Exc (Option ℕ)) := do
  match ← Prog.foreign (S := sig) (.setWakeupFd fd rollback) with
  | some exc => return .error exc
  | none =>
    let s ← getState
    update fun s => { s with wakeupFd := fd }
    return .ok s.wakeupFd

/-- Assign `_wakeup_fd_owner`. -/
def setWakeupOwner (owner : Option ℕ) : P Unit := update fun s => { s with wakeupOwner := owner }

/-- `signal.signal`. -/
def setSignal (n : ℕ) (h : Handler) : P (Except Exc Unit) := do
  match ← Prog.foreign (S := sig) (.signal n h) with
  | some exc => return .error exc
  | none =>
    update fun s => s.setDisposition n h
    return .ok ()

/-! ## The wakeup descriptor -/

/-- `WakeupState`. -/
structure WakeupState where
  /-- The descriptor that was installed. -/
  fd : Option ℕ
  /-- Its owner. -/
  owner : Option ℕ
  /-- Whether the loop was attached. -/
  wasAttached : Bool

/-- The token is that of a loop that has been closed. -/
def State.finalizedOwner (s : State) (owner : Option ℕ) : Bool :=
  owner.any fun o => (s.loops o).finalized

/-- The `except` branch of `_attach_wakeup_fd`. -/
def attachFailed (previousOwner : Option ℕ) : P Exc := do
  let s ← getState
  if s.finalizedOwner previousOwner then
    -- a cleanup that was skipped may have closed the descriptor
    match ← setWakeupFd none true with
    | .error exc => return exc
    | .ok _ =>
      step
      setWakeupOwner none
      return .osError
  else
    let _ ← Prog.foreign (S := sig) (.commit previousOwner)
    setWakeupOwner previousOwner
    return .osError

/-- `_attach_wakeup_fd`. -/
def attachWakeupFd (l : ℕ) : P (Except Exc (Option WakeupState)) := do
  let s ← getState
  if (s.loops l).handlers = [] then return .ok none
  step
  let s ← getState
  let previousOwner := s.wakeupOwner
  step
  let s ← getState
  let previousAttached := (s.loops l).attached
  step
  setWakeupOwner (some l)
  step
  match ← setWakeupFd (some l) false with
  | .ok previousFd =>
    step
    setLoop l fun L => { L with attached := true }
    step
    return .ok (some ⟨previousFd, previousOwner, previousAttached⟩)
  | .error .osError =>
    step
    let exc ← attachFailed previousOwner
    return .error exc
  | .error exc => return .error exc

/-- `if _wakeup_fd_owner is self._signal_owner`: give the descriptor up. -/
def releaseWakeupFd (l : ℕ) : P (Except Exc Unit) := do
  let s ← getState
  if s.wakeupOwner = some l then
    step
    match ← setWakeupFd none false with
    | .error exc => return .error exc
    | .ok _ =>
      step
      setWakeupOwner none
      return .ok ()
  else return .ok ()

/-- `_detach_wakeup_fd`. -/
def detachWakeupFd (l : ℕ) : P (Except Exc Unit) := do
  let s ← getState
  if (s.loops l).attached && (s.loops l).handlers.isEmpty then
    step
    match ← releaseWakeupFd l with
    | .error exc => return .error exc
    | .ok () =>
      step
      setLoop l fun L => { L with attached := false }
      return .ok ()
  else return .ok ()

/-- The end of `_restore_wakeup_fd`: a previous owner that was closed meanwhile is not put back. -/
def revalidate (l : ℕ) (previous : WakeupState) : P (Except Exc Unit) := do
  let _ ← Prog.foreign (S := sig) (.recheck previous.owner previous.wasAttached)
  let s ← getState
  if s.finalizedOwner previous.owner then
    step
    let s ← getState
    if s.wakeupOwner = previous.owner then
      step
      match ← setWakeupFd none true with
      | .error exc => return .error exc
      | .ok _ =>
        step
        setWakeupOwner none
        step
        setLoop l fun L => { L with attached := false }
        return .ok ()
    else return .ok ()
  else return .ok ()

/-- The `try` of `_restore_wakeup_fd`: install the previous descriptor, or none. Returns whether the
previous owner is abandoned. -/
def reinstall (previous : WakeupState) (abandon : Bool) : P (Except Exc Bool) := do
  match ← setWakeupFd (if abandon then none else previous.fd) true with
  | .ok _ => return .ok abandon
  | .error .osError =>
    step
    match ← setWakeupFd none true with
    | .error exc => return .error exc
    | .ok _ => return .ok true
  | .error exc => return .error exc

/-- `_restore_wakeup_fd`. -/
def restoreWakeupFd (l : ℕ) : Option WakeupState → P (Except Exc Unit)
  | none => return .ok ()
  | some previous => do
    let s ← getState
    if s.wakeupOwner ≠ some l then return .error .assertionError
    let _ ← Prog.foreign (S := sig) (.recheck previous.owner previous.wasAttached)
    let s ← getState
    let abandon := s.finalizedOwner previous.owner
    step
    match ← reinstall previous abandon with
    | .error exc => return .error exc
    | .ok abandon =>
      step
      setWakeupOwner (if abandon then none else previous.owner)
      step
      setLoop l fun L => { L with attached := if abandon then false else previous.wasAttached }
      revalidate l previous

/-! ## Handlers -/

/-- Put a previous entry of `_signal_handlers` back. -/
def Loop.restoreEntry (n : ℕ) (previousEntry : Option ℕ) (L : Loop) : Loop :=
  match previousEntry with
  | none => { L with handlers := L.handlers.erase n }
  | some entry => { L with handlers := L.handlers.insert n entry }

/-- Put a previous owner of a signal back, unless it was closed meanwhile. -/
def restoreOwner (n : ℕ) (previousOwner : Option ℕ) (previousFinalized : Bool) :
    P (Except Exc Unit) := do
  if previousOwner.isSome && !previousFinalized then
    update fun s => s.setOwner n previousOwner
    step
    let s ← getState
    if s.finalizedOwner previousOwner then
      step
      let s ← getState
      if s.owners n = previousOwner then
        step
        update fun s => s.setOwner n none
        step
        setSignal n (defaultHandler n)
      else return .ok ()
    else return .ok ()
  else
    update fun s => s.setOwner n none
    return .ok ()

/-- The `except` branch of `add_signal_handler`, once the signal of a closed owner is reset: put the
entry, the owner and the wakeup descriptor back. -/
def unpublish (l n : ℕ) (previousEntry previousOwner : Option ℕ) (previousFinalized : Bool)
    (wakeup : Option WakeupState) : P Exc := do
  step
  setLoop l (Loop.restoreEntry n previousEntry)
  step
  match ← restoreOwner n previousOwner previousFinalized with
  | .error exc => return exc
  | .ok () =>
    step
    match ← restoreWakeupFd l wakeup with
    | .error exc => return exc
    | .ok () => return .runtimeError

/-- The `except` branch of `add_signal_handler`. -/
def rollback (l n : ℕ) (previousEntry previousOwner : Option ℕ) (wakeup : Option WakeupState) :
    P Exc := do
  step
  let s ← getState
  let previousFinalized := s.finalizedOwner previousOwner
  step
  if previousFinalized then
    match ← setSignal n (defaultHandler n) with
    | .error exc => return exc
    | .ok () => unpublish l n previousEntry previousOwner previousFinalized wakeup
  else unpublish l n previousEntry previousOwner previousFinalized wakeup

/-- The `try` of `add_signal_handler` once the loop is attached, with its `except`. -/
def installed (l n : ℕ) (previousEntry previousOwner : Option ℕ) (wakeup : Option WakeupState) :
    P (Except Exc Unit) := do
  step
  match ← setSignal n .noop with
  | .ok () => return .ok ()
  | .error .osError =>
    let exc ← rollback l n previousEntry previousOwner wakeup
    return .error exc
  | .error exc => return .error exc

/-- The `try` of `add_signal_handler`, with its `except`. -/
def install (l n : ℕ) (previousEntry previousOwner : Option ℕ) : P (Except Exc Unit) := do
  match ← attachWakeupFd l with
  | .error .osError =>
    let exc ← rollback l n previousEntry previousOwner none
    return .error exc
  | .error exc => return .error exc
  | .ok wakeup => installed l n previousEntry previousOwner wakeup

/-- `add_signal_handler`. -/
def addSignalHandler (l n entry : ℕ) : P (Except Exc Unit) := do
  let s ← getState
  if (s.loops l).closed then return .error .runtimeError
  let valid ← validSignal n
  if !valid then return .error .valueError
  step
  let s ← getState
  let previousEntry := (s.loops l).handlers.entry n
  step
  let s ← getState
  let previousOwner := s.owners n
  step
  setLoop l fun L => { L with handlers := L.handlers.insert n entry }
  step
  update fun s => s.setOwner n (some l)
  step
  install l n previousEntry previousOwner

/-- Reset a signal, if the loop owns it. -/
def resetSignal (l n : ℕ) : P (Except Exc Unit) := do
  let s ← getState
  if s.owners n = some l then
    step
    setSignal n (defaultHandler n)
  else return .ok ()

/-- Delete the owner of a signal, if it is the loop. -/
def disown (l n : ℕ) : P Unit := do
  let s ← getState
  if s.owners n = some l then
    step
    update fun s => s.setOwner n none

/-- Delete an entry of `_signal_handlers`, and the ownership of its signal. -/
def unregister (l n entry : ℕ) : P Unit := do
  let s ← getState
  if (s.loops l).handlers.entry n = some entry then
    setLoop l fun L => { L with handlers := L.handlers.erase n }
    step
    disown l n

/-- `remove_signal_handler`. -/
def removeSignalHandler (l n : ℕ) : P (Except Exc Bool) := do
  let valid ← validSignal n
  if !valid then return .error .valueError
  let s ← getState
  match (s.loops l).handlers.entry n with
  | none => return .ok false
  | some entry =>
    step
    match ← resetSignal l n with
    | .error exc => return .error exc
    | .ok () =>
      step
      unregister l n entry
      step
      match ← detachWakeupFd l with
      | .error exc => return .error exc
      | .ok () => return .ok true

/-! ## Closing -/

/-- Reset a signal and delete its owner, if that is the loop. A failed reset keeps its owner, so
that a later reset cannot lose the signal. -/
def resetOwned (l n : ℕ) : P (Option Exc) := do
  let s ← getState
  if s.owners n = some l then
    step
    match ← setSignal n (defaultHandler n) with
    | .error exc => return some exc
    | .ok () =>
      step
      disown l n
      return none
  else return none

/-- The loop of `_finish_deferred_signal_cleanup`. Returns the first exception. -/
def resetSignals (l : ℕ) : List ℕ → Option Exc → P (Option Exc)
  | [], failure => return failure
  | n :: rest, failure => do
    let exc ← resetOwned l n
    step
    resetSignals l rest (failure.or exc)

/-- `_finish_deferred_signal_cleanup`. -/
def finishDeferredSignalCleanup (l : ℕ) (signals : List ℕ) : P (Except Exc Unit) := do
  setLoop l fun L => { L with finalized := true }
  step
  match ← releaseWakeupFd l with
  | .error exc => return .error exc
  | .ok () =>
    step
    let failure ← resetSignals l signals none
    setLoop l fun L => { L with fdOpen := false }
    match failure with
    | none => return .ok ()
    | some exc => return .error exc

/-- Remove signal handlers, one after the other, up to the first exception. -/
def removeAll (l : ℕ) : List ℕ → P (Except Exc Unit)
  | [] => return .ok ()
  | n :: rest => do
    match ← removeSignalHandler l n with
    | .error exc => return .error exc
    | .ok _ =>
      step
      removeAll l rest

/-- The `finally` of `close`: clean up what is left, and close the descriptor. -/
def closeSignals (l : ℕ) : P (Except Exc Unit) := do
  let s ← getState
  if (s.loops l).handlers ≠ [] ∨ (s.loops l).attached = true then
    step
    let s ← getState
    let signals := (s.loops l).handlers.signals
    setLoop l fun L => { L with handlers := [] }
    step
    setLoop l fun L => { L with attached := false }
    step
    finishDeferredSignalCleanup l signals
  else
    step
    setLoop l fun L => { L with fdOpen := false }
    return .ok ()

/-- `close`, on the main thread. -/
def close (l : ℕ) : P (Except Exc Unit) := do
  let s ← getState
  if (s.loops l).running then return .error .runtimeError
  if (s.loops l).closed then return .ok ()
  setLoop l fun L => { L with closed := true }
  step
  setLoop l fun L => { L with finalized := true }
  step
  let s ← getState
  let removed ← removeAll l (s.loops l).handlers.signals
  step
  match ← closeSignals l with
  | .error exc => return .error exc
  | .ok () => return removed

/-! ## Running -/

/-- `run_forever`, up to the run. -/
def runBegin (l : ℕ) : P (Except Exc Unit) := do
  let s ← getState
  if (s.loops l).closed || (s.loops l).running then return .error .runtimeError
  match ← attachWakeupFd l with
  | .error exc => return .error exc
  | .ok _ =>
    step
    setLoop l fun L => { L with running := true }
    return .ok ()

/-- `run_forever`, from the end of the run on. -/
def runEnd (l : ℕ) : P (Except Exc Unit) := do
  setLoop l fun L => { L with running := false }
  step
  detachWakeupFd l

/-! ## The system -/

/-- The deferred cleanup of a loop, taken off the queue of pending calls. -/
def cleanup (l : ℕ) : P Unit := do
  let s ← getState
  match (s.loops l).deferred with
  | none => return
  | some signals =>
    setLoop l fun L => { L with deferred := none }
    let _ ← finishDeferredSignalCleanup l signals

/-- What an entry point does. -/
def run : Op → P Unit
  | .addSignalHandler l n entry => (fun _ => ()) <$> addSignalHandler l n entry
  | .removeSignalHandler l n => (fun _ => ()) <$> removeSignalHandler l n
  | .runBegin l => (fun _ => ()) <$> runBegin l
  | .runEnd l => (fun _ => ()) <$> runEnd l
  | .close l => (fun _ => ()) <$> close l
  | .finalize l => update fun s => s.finalize l
  | .retire l => update fun s => s.retire l
  | .cleanup l => cleanup l

/-- The loop of an operation of the main thread. -/
def Op.loop? : Op → Option ℕ
  | .addSignalHandler l _ _ | .removeSignalHandler l _ | .runBegin l | .runEnd l
  | .close l => some l
  | .finalize _ | .retire _ | .cleanup _ => none

/-- A function begins. -/
def State.enter (op : Op) (s : State) : State :=
  { s with depth := s.depth + 1, busy := op.loop?.or s.busy }

/-- A function ends. -/
def State.leave (op : Op) (s : State) : State :=
  { s with depth := s.depth - 1, busy := if op.loop?.isSome then none else s.busy }

/-- The entry points. -/
def entry (op : Op) : P Unit := do
  update (State.enter op)
  run op
  update (State.leave op)

/-- The loops of a process. -/
def system : System sig where
  body := nofun
  entry := entry
  init := State.init

/-! ## The environment -/

/-- When an entry point may be started: operations of the main thread one after the other, and
everything else at any time. -/
def Startable (stack : List Callback) (s : State) : Op → Prop
  | .addSignalHandler l _ _ | .removeSignalHandler l _ | .runBegin l | .close l =>
    stack = [] ∧ (s.loops l).retiring = false
  | .runEnd l => stack = [] ∧ (s.loops l).running = true
  | .finalize l =>
    (s.loops l).closed = false ∧ (s.loops l).running = false ∧ s.busy ≠ some l
  | .retire l => (s.loops l).retiring = true
  | .cleanup l => (s.loops l).deferred ≠ none

/-- How a call may end. When `strict`, it raises nothing but `OSError`, taking the wakeup descriptor
out does not fail, and the cleanup of the previous owner does not run between the check and the
assignment of `_attach_wakeup_fd`. When `atomic`, no signal fails to be reset, no wakeup descriptor
fails to be put back, and no loop has been closed that owned the wakeup descriptor of a loop that
was attached before it. -/
def Returns (strict atomic : Prop) (s : State) : Callback → Outcome → Prop
  | .step, _ => True
  | .commit previousOwner, _ =>
    strict → ∀ o, previousOwner = some o → (s.loops o).fdOpen = true
  | .recheck previousOwner wasAttached, _ =>
    atomic → wasAttached = true → s.finalizedOwner previousOwner = false
  | .setWakeupFd fd rollback, r =>
    (strict → r = none ∨ fd ≠ none ∧ r = some .osError) ∧ (atomic → rollback = true → r = none)
  | .signal _ h, r =>
    (strict → r = none ∨ r = some .osError) ∧ (atomic → h ≠ .noop → r = none)

/-- The interpreter and the operating system. -/
def env (strict atomic : Prop) : Env sig where
  answers := fun _ _ _ => True
  returns := Returns strict atomic
  starts := Startable

end Zuvloop.Signals
