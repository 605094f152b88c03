import Zuvloop.Loop.State
import Zuvloop.Reentrant.Machine

/-!
# Scheduling and the libuv callbacks of the loop

The functions of `zig/loop.zig` that schedule, cancel and run callbacks, as programs over the
state of the loop. A program yields wherever the source runs Python code: in a callback, in the
exception handler, in the slow-callback hook, and in the finalizers that releasing a callback, its
arguments or a handle may run. The `while` loops that have no bound of their own are procedures.

`uv_run` is not a program: `runLoop` is split at the call, and the libuv callbacks are entry points
that libuv starts while `running` holds and nothing native is in progress.

A foreign thread's `call_soon_threadsafe` and `cancel` are entry points like any other, started
wherever the thread state is released. The reference `threadsafe_candidate` holds is never the last
one, since the inbox holds another until it is drained, so dropping it runs no Python code and the
slot is left out.
-/

namespace Zuvloop.Loop

open Reentrant

/-- Questions the loop asks. -/
inductive Request where
  /-- Is there memory for an allocation? -/
  | alloc
  /-- Can the callback's context be entered? -/
  | enterContext
  /-- The clock of `time.monotonic()`. -/
  | now
  /-- `uv_hrtime`, in nanoseconds. -/
  | hrtime
deriving DecidableEq

/-- Their answers; each question reads one field. -/
structure Answer (T : Type) where
  /-- The answer to `alloc` and `enterContext`. -/
  ok : Bool
  /-- The answer to `now`. -/
  time : T
  /-- The answer to `hrtime`. -/
  nanoseconds : ℕ

/-- Python code the loop runs. -/
inductive Callback where
  /-- The callback of a handle. -/
  | callback (h : ℕ)
  /-- Finalizers of what a reference was the last one to. -/
  | finalizer
  /-- `call_exception_handler`. -/
  | exceptionHandler
  /-- The slow-callback hook. -/
  | onSlowCallback (h : ℕ)
deriving DecidableEq

/-- How Python code ended. -/
inductive Outcome where
  /-- It returned. -/
  | returned
  /-- It raised an exception. -/
  | raised
  /-- It raised `SystemExit` or `KeyboardInterrupt`. -/
  | exit
deriving DecidableEq

/-- The unbounded loops. -/
inductive Proc (T : Type) where
  /-- Move the timers due at `deadline` to the ready queue. -/
  | collectDue (deadline : T)
  /-- Drop cancelled timers from the top of the heap. -/
  | dropCancelled
  /-- Run batches of ready callbacks. -/
  | idleLoop (batches callbacks started : ℕ)

/-- What the rest of the program changes around the scheduler. -/
structure Surroundings where
  /-- Initialized external handles. -/
  externalHandles : ℕ
  /-- External handles awaiting a close callback. -/
  closingHandles : ℕ
  /-- The transports that hold unsent writes. -/
  flushHead : List ℕ
  /-- There are resolver requests. -/
  dnsRequests : Bool
  /-- Debug mode. -/
  debug : Bool
  /-- Slow callbacks are reported even without debug mode. -/
  slowCallbackMonitoring : Bool
  /-- The slow-callback duration. -/
  slowCallbackDuration : Option ℕ

/-- Put the loop in its surroundings. -/
def Surroundings.apply {T : Type} [LinearOrder T] (e : Surroundings) (s : State T) : State T :=
  { s with
    externalHandles := e.externalHandles
    closingHandles := e.closingHandles
    flushHead := e.flushHead
    dnsRequests := e.dnsRequests
    debug := e.debug
    slowCallbackMonitoring := e.slowCallbackMonitoring
    slowCallbackDuration := e.slowCallbackDuration }

/-- The entry points. -/
inductive Op (T : Type) where
  /-- `call_soon`. -/
  | callSoon
  /-- `call_soon_threadsafe`. -/
  | callSoonThreadsafe
  /-- `call_later`. -/
  | callLater (delay : T)
  /-- `call_at`. -/
  | callAt (when : T)
  /-- `cancel()` of a handle. -/
  | cancel (h : ℕ)
  /-- `stop`. -/
  | stop
  /-- `_run`, up to `uv_run`. -/
  | runBegin
  /-- `_run`, from the return of `uv_run` on. -/
  | runEnd
  /-- The idle handle's callback. -/
  | onIdle
  /-- The timer expires: libuv stops it and calls `onTimer`. -/
  | onTimer
  /-- libuv notices `uv_async_send` and clears its pending bit. -/
  | asyncDispatch
  /-- The async handle's callback. -/
  | onWake
  /-- A poll handle's callback, which queues the registered handles it fires. -/
  | onPoll (fired : List ℕ)
  /-- A poller, a process or a transport creates a handle. -/
  | createNative
  /-- A process or a transport queues a new handle. -/
  | scheduleCall
  /-- Something around the scheduler changes. -/
  | surroundings (e : Surroundings)

variable {T : Type} [LinearOrder T]

/-- The signature of the loop's programs. -/
abbrev sig (T : Type) [LinearOrder T] : Signature where
  State := State T
  Request := Request
  Answer := Answer T
  Callback := Callback
  Result := Outcome
  Proc := Proc T
  Op := Op T

/-- A program of the loop. -/
abbrev P (T : Type) [LinearOrder T] (α : Type) : Type := Prog (sig T) α

/-- What a scheduling call raises. -/
inductive Error where
  /-- The event loop is closed. -/
  | closed
  /-- There is no memory. -/
  | noMemory
  /-- The loop is running already. -/
  | alreadyRunning
  /-- The process aborted on a failed assertion. -/
  | aborted
deriving DecidableEq

/-! ## Primitives -/

/-- The state. -/
def getState : P T (State T) := Prog.read

/-- Replace the state. -/
def setState (s : State T) : P T Unit := Prog.modify fun _ => s

/-- Change the state. -/
def update (f : State T → State T) : P T Unit := Prog.modify f

/-- Whether an allocation succeeds. -/
def alloc : P T Bool := (fun a : Answer T => a.ok) <$> Prog.request (S := sig T) .alloc

/-- Whether the context of a callback can be entered. -/
def enterContext : P T Bool :=
  (fun a : Answer T => a.ok) <$> Prog.request (S := sig T) .enterContext

/-- Read the clock. -/
def now : P T T := do
  let a : Answer T ← Prog.request (S := sig T) .now
  update fun s => s.setClock a.time
  return a.time

/-- Read the high-resolution clock. -/
def hrtime : P T ℕ := (fun a : Answer T => a.nanoseconds) <$> Prog.request (S := sig T) .hrtime

/-- Run Python code whose outcome does not matter. -/
def python (c : Callback) : P T Unit := (fun _ => ()) <$> Prog.foreign (S := sig T) c

/-- Release a reference, which may run finalizers. -/
def release : P T Unit := python .finalizer

/-- Create a handle. -/
def create (kind : HandleKind) (when : T) : P T (Except Error ℕ) := do
  let ok ← alloc
  if ok then
    let s ← getState
    setState (s.create kind when)
    return .ok s.fresh
  else return .error .noMemory

/-! ## Timers -/

/-- Move the timers that are due to the ready queue. -/
def collectDueTimers : P T Unit := do
  let deadline ← now
  Prog.invoke (S := sig T) (.collectDue deadline)

/-- The loop of `collectDueTimers`, with what follows it. -/
def collectDueBody (deadline : T) : P T Unit := do
  let s ← getState
  match s.timers.peek with
  | none => update fun s => s.setCore Core.startIdle
  | some entry =>
    if deadline < entry.when then update fun s => s.setCore Core.startIdle
    else
      update fun s => s.popTimer.setHandle entry.handle HandleRec.clearScheduled
      if (s.handles entry.handle).cancelled then
        release
        update State.uncountCancelled
        Prog.invoke (S := sig T) (.collectDue deadline)
      else
        let s ← getState
        let ok ← alloc
        match s.pushReady ok entry.handle with
        | none =>
          update fun s => s.setCore Core.captureFatal
          release
        | some s' =>
          setState (s'.record (.due entry.handle entry.when s.clock))
          Prog.invoke (S := sig T) (.collectDue deadline)

/-- The first loop of `armTimer`. -/
def dropCancelledBody : P T Unit := do
  let s ← getState
  match s.timers.peek with
  | none => return
  | some entry =>
    if (s.handles entry.handle).cancelled then
      update fun s => s.popTimer.setHandle entry.handle HandleRec.clearScheduled
      release
      update State.uncountCancelled
      Prog.invoke (S := sig T) .dropCancelled
    else return

/-- Point the single libuv timer at the earliest live deadline. -/
def armTimer : P T Unit := do
  Prog.invoke (S := sig T) .dropCancelled
  let s ← getState
  match s.timers.peek with
  | none => update State.stopTimer
  | some entry =>
    let _ ← now
    update fun s => s.startTimer entry.when

/-- Release the handles a compaction dropped. -/
def releaseAll : List ℕ → P T Unit
  | [] => return
  | _ :: doomed => do
    release
    releaseAll doomed

/-- Timers below this many cancelled entries are never compacted. -/
def minCancelledTimers : ℕ := 100

/-- Count a cancelled timer, and compact the heap once they dominate it. -/
def noteTimerCancelled : P T Unit := do
  update State.countCancelled
  let s ← getState
  if minCancelledTimers < s.timers.cancelled ∧ s.timers.len < s.timers.cancelled * 2 then
    let ok ← alloc
    let (s', doomed) := s.compactTimers ok
    setState s'
    releaseAll doomed
    armTimer

/-- A timer for `when` runs before every timer of the heap. -/
def State.canBypassHeap (s : State T) (when : T) : Bool :=
  match s.timers.peek with
  | some entry => decide (when < entry.when)
  | none => true

/-- `scheduleAt`: a timer that is already due and runs before the whole heap goes to the ready
queue, any other into the heap. -/
def scheduleAt (when : T) (alreadyDue : Bool) : P T (Except Error ℕ) := do
  let s ← getState
  if s.closed then return .error .closed
  match ← create .timer when with
  | .error e => return .error e
  | .ok h =>
    let s ← getState
    if alreadyDue && s.canBypassHeap when then
      update fun s => s.setHandle h HandleRec.markReady
      let s ← getState
      let ok ← alloc
      match s.pushReady ok h with
      | none => return .error .noMemory
      | some s' =>
        setState ((s'.record (.due h when s.clock)).setCore Core.startIdle)
        return .ok h
    else
      let ok ← alloc
      match s.timers.push ok when h with
      | none => return .error .noMemory
      | some timers =>
        update fun s => s.setTimers timers
        armTimer
        return .ok h

/-- `call_later`. -/
def callLater [Add T] [Zero T] (delay : T) : P T (Except Error ℕ) := do
  let t ← now
  scheduleAt (t + max delay 0) (decide (delay ≤ 0))

/-- `call_at`. -/
def callAt (when : T) : P T (Except Error ℕ) := do
  let t ← now
  scheduleAt when (decide (when ≤ t))

/-! ## Scheduling -/

/-- `call_soon`: the inbox goes first, so both schedulers keep registration order. -/
def scheduleSoon [Inhabited T] : P T (Except Error ℕ) := do
  match ← create .soon default with
  | .error e => return .error e
  | .ok h =>
    let s ← getState
    if s.closed then return .error .closed
    let ok ← alloc
    match s.drainThreadsafe ok with
    | .error .outOfMemory => return .error .noMemory
    | .error .assertion =>
      update fun s => s.setCore Core.panic
      return .error .aborted
    | .ok s =>
      setState s
      let ok ← alloc
      match s.pushReady ok h with
      | none => return .error .noMemory
      | some s =>
        setState ((s.record (.registered h)).setCore Core.startIdle)
        return .ok h

/-- `call_soon_threadsafe`. -/
def callSoonThreadsafe [Inhabited T] : P T (Except Error ℕ) := do
  let s ← getState
  if s.closed then return .error .closed
  match ← create .threadsafe default with
  | .error e => return .error e
  | .ok h =>
    let s ← getState
    let ok ← alloc
    match s.threadsafeReady.push ok h with
    | none => return .error .noMemory
    | some threadsafeReady =>
      setState ((s.setInbox threadsafeReady).record (.registered h)).sendWake
      return .ok h

/-! ## Cancellation -/

/-- Release the callback and the arguments of a handle. -/
def clearCallback (h : ℕ) : P T Unit := do
  release
  update fun s => s.setHandle h HandleRec.dropCallback
  release

/-- `cancel` of `zig/handle.zig`. -/
def cancelHandle (h : ℕ) : P T Unit := do
  let s ← getState
  if !(s.handles h).cancelled then
    update fun s => s.setHandle h HandleRec.cancel
    if !(s.handles h).running then clearCallback h

/-- `cancel` of `zig/timer.zig`. -/
def timerCancel (h : ℕ) : P T Unit := do
  let s ← getState
  if !(s.handles h).cancelled then
    update fun s => s.setHandle h HandleRec.cancel
    if !(s.handles h).running then clearCallback h
    let s ← getState
    if (s.handles h).inHeap then noteTimerCancelled

/-- A call of a timer's `cancel()`, with its return recorded. -/
def cancelTimer (h : ℕ) : P T Unit := do
  let entered ← getState
  timerCancel h
  update fun s => s.record (.cancelReturned h (entered.handles h).inHeap
    (!(entered.handles h).cancelled) s.timers.cancelled s.timers.len)

/-- `cancel` of `zig/tshandle.zig`, once it does not have to wait: a call from another thread
while the callback runs takes effect when it has finished. -/
def cancelThreadsafe (h : ℕ) : P T Unit := do
  update fun s => s.setHandle h HandleRec.settle
  let s ← getState
  if !(s.handles h).cancelled then
    update fun s => s.setHandle h HandleRec.cancel
    if (s.handles h).runState ≠ .running then
      update fun s => s.setHandle h HandleRec.dropCallback
      release
      release

/-- `cancel()` of a handle. -/
def cancel (h : ℕ) : P T Unit := do
  let s ← getState
  match (s.handles h).kind with
  | .timer => cancelTimer h
  | .threadsafe => cancelThreadsafe h
  | .soon | .native => cancelHandle h

/-! ## Running callbacks -/

/-- Route a failed callback to the exception handler, or out of `run_forever`. -/
def callbackFailed : Outcome → P T Unit
  | .exit => update fun s => s.setCore Core.captureFatal
  | _ => python .exceptionHandler

/-- Call a handle's callback in its context. A callback whose context cannot be entered counts as
run: it fails before its first line, and is reported like any other. -/
def invoke (h : ℕ) : P T Unit := do
  update fun s => s.record (.ran h)
  let entered ← enterContext
  if entered then
    let outcome : Outcome ← Prog.foreign (S := sig T) (.callback h)
    match outcome with
    | .returned => return
    | .raised => callbackFailed .raised
    | .exit => callbackFailed .exit
  else callbackFailed .raised

/-- The `defer` block of a regular handle's and a timer's `run`. -/
def finishRun (h : ℕ) : P T Unit := do
  update fun s => s.setHandle h (HandleRec.setRunning false)
  let s ← getState
  if (s.handles h).cancelled then clearCallback h

/-- `run` of `zig/handle.zig`. -/
def runHandle (h : ℕ) : P T Unit := do
  let s ← getState
  if (s.handles h).cancelled || !(s.handles h).callback then return
  update fun s => s.setHandle h (HandleRec.setRunning true)
  -- the context of a handle that captured an empty one is created on its first run
  let ok ← alloc
  if ok then invoke h else callbackFailed .raised
  finishRun h

/-- `run` of `zig/timer.zig`. -/
def runTimer (h : ℕ) : P T Unit := do
  let s ← getState
  if (s.handles h).cancelled || !(s.handles h).callback then return
  update fun s => s.setHandle h (HandleRec.setRunning true)
  invoke h
  finishRun h

/-- `run` of `zig/tshandle.zig`. -/
def runThreadsafe (h : ℕ) : P T Unit := do
  let s ← getState
  if (s.handles h).runState ≠ .pending then return
  update fun s => s.setHandle h (HandleRec.setRunState .running)
  -- a pending handle still has its callback, which the source unwraps unchecked
  if !(s.handles h).callback then
    update fun s => s.setCore Core.panic
    return
  let ok ← alloc
  if ok then invoke h else callbackFailed .raised
  update fun s => s.setHandle h (HandleRec.setRunState .done)
  let s ← getState
  if (s.handles h).cancelled then
    update fun s => s.setHandle h HandleRec.dropCallback
    release
    release

/-- Run one handle of the ready queue; its type says under which protocol. -/
def runOne (h : ℕ) : P T Unit := do
  let s ← getState
  match (s.handles h).kind with
  | .timer =>
    update fun s => s.setHandle h HandleRec.clearScheduled
    runTimer h
  | .threadsafe => runThreadsafe h
  | .soon | .native => runHandle h

/-- Run a handle and report it if it was slow. -/
def runMonitored (h : ℕ) (duration : ℕ) : P T Unit := do
  let started ← hrtime
  runOne h
  let ended ← hrtime
  if duration < ended - started then python (.onSlowCallback h)

/-- Run a handle, under the clock if slow callbacks are to be reported. -/
def runTimed (h : ℕ) : P T Unit := do
  let s ← getState
  match s.slowCallbackDuration with
  | some duration =>
    if s.debug || s.slowCallbackMonitoring then runMonitored h duration else runOne h
  | none => runOne h

/-- The loop of `runReady`. -/
def runReadyLoop : ℕ → P T Unit
  | 0 => return
  | remaining + 1 => do
    let s ← getState
    match s.ready.pop with
    | (none, _) => return
    | (some h, ready) =>
      setState (s.setReady ready)
      runTimed h
      release
      runReadyLoop remaining

/-- Run exactly the callbacks queued on entry. -/
def runReady : P T Unit := do
  let s ← getState
  update State.countBatch
  runReadyLoop s.ready.len

/-! ## The libuv callbacks -/

/-- `ready_drain_batch_limit`. -/
def readyDrainBatchLimit : ℕ := 64

/-- `ready_drain_io_batch_limit`. -/
def readyDrainIoBatchLimit : ℕ := 256

/-- `ready_drain_io_time_limit_ns`. -/
def readyDrainIoTimeLimit : ℕ := 25 * 1000

/-- `ready_drain_callback_limit`. -/
def readyDrainCallbackLimit : ℕ := 16 * 1024

/-- No further batch is started: nothing is ready, or the limits of one idle callback are reached.
The self-pipe poller is the one external handle every loop owns. -/
def State.idleLimit (s : State T) (batches callbacks : ℕ) : Bool :=
  let batch := s.ready.len
  let hasIo := decide (1 < s.externalHandles)
  let batchLimit := if hasIo then readyDrainIoBatchLimit else readyDrainBatchLimit
  batch == 0 || (batches != 0 &&
    (decide (batchLimit ≤ batches) || decide (readyDrainCallbackLimit ≤ callbacks) ||
      decide (readyDrainCallbackLimit - callbacks < batch) || (hasIo && batch != 1)))

/-- Something else wants its turn after a batch, or there is nothing left to run. -/
def State.idleBreak (s : State T) : Bool :=
  s.stopping || s.fatal || s.ready.len == 0 ||
    (s.timerActive || s.dnsRequests || !s.flushHead.isEmpty) || s.closingHandles != 0

/-- The loop of `onIdle`, one batch at a time. -/
def idleBody (batches callbacks started : ℕ) : P T Unit := do
  let s ← getState
  let batch := s.ready.len
  if s.idleLimit batches callbacks then return
  runReady
  let s ← getState
  if s.idleBreak then return
  if 1 < s.externalHandles then
    if batch ≠ 1 then return
    let time ← hrtime
    if readyDrainIoTimeLimit ≤ time - started then return
    Prog.invoke (S := sig T) (.idleLoop (batches + 1) (callbacks + batch) started)
  else Prog.invoke (S := sig T) (.idleLoop (batches + 1) (callbacks + batch) started)

/-- Run batches of ready callbacks, and stop the idle handle once there are none. -/
def onIdle : P T Unit := do
  let started ← hrtime
  Prog.invoke (S := sig T) (.idleLoop 0 0 started)
  update fun s => s.setCore Core.stopIdle

/-- The timer expired; libuv has stopped it. -/
def onTimer : P T Unit := do
  update State.expireTimer
  collectDueTimers
  armTimer

/-- The loop was woken. -/
def onWake : P T Unit := do
  update State.consumeWake
  let s ← getState
  let ok ← alloc
  match s.drainThreadsafe ok with
  | .error .outOfMemory => update fun s => s.setCore Core.captureFatal
  | .error .assertion => update fun s => s.setCore Core.panic
  | .ok s => setState (s.setCore Core.startIdle)

/-- Queue the registered handles a poll event fires. -/
def scheduleFired : List ℕ → P T Unit
  | [] => return
  | h :: fired => do
    let s ← getState
    if !(s.handles h).cancelled then
      let ok ← alloc
      match s.pushReady ok h with
      | none => release
      | some s => setState s
    scheduleFired fired

/-- A poll event. -/
def onPoll (fired : List ℕ) : P T Unit := do
  scheduleFired fired
  update fun s => s.setCore Core.startIdle

/-- Queue a new handle for native code. -/
def scheduleCall [Inhabited T] : P T Unit := do
  let s ← getState
  if s.closed then return
  match ← create .native default with
  | .error _ => update fun s => s.setCore Core.captureFatal
  | .ok h =>
    let s ← getState
    let ok ← alloc
    match s.pushReady ok h with
    | none => update fun s => s.setCore Core.captureFatal
    | some s => setState (s.setCore Core.startIdle)

/-! ## Running and stopping the loop -/

/-- `_run` up to `uv_run`. -/
def runBegin : P T (Except Error Unit) := do
  let s ← getState
  if s.closed then return .error .closed
  if s.running then return .error .alreadyRunning
  update fun s => s.setCore fun c => { c with running := true, stopping := false }
  update fun s => s.setCore Core.startIdle
  armTimer
  return .ok ()

/-- `_run` from the return of `uv_run` on; whether it raises the fatal exception. The unsent
writes it then flushes are the business of the transports. -/
def runEnd : P T Bool := do
  let s ← getState
  setState (s.setCore fun c =>
    { c with running := false, stopping := false, fatal := false, uvStop := false })
  return s.fatal

/-- `stop`. -/
def stop : P T Unit := do
  update fun s => s.setCore fun c =>
    { c with stopping := true, uvStop := c.uvStop || !c.closed }

/-! ## The system -/

/-- The procedures. -/
def body : Proc T → P T Unit
  | .collectDue deadline => collectDueBody deadline
  | .dropCancelled => dropCancelledBody
  | .idleLoop batches callbacks started => idleBody batches callbacks started

/-- The entry points. -/
def entry [Add T] [Zero T] [Inhabited T] : Op T → P T Unit
  | .callSoon => (fun _ => ()) <$> scheduleSoon
  | .callSoonThreadsafe => (fun _ => ()) <$> callSoonThreadsafe
  | .callLater delay => (fun _ => ()) <$> callLater delay
  | .callAt when => (fun _ => ()) <$> callAt when
  | .cancel h => cancel h
  | .stop => stop
  | .runBegin => (fun _ => ()) <$> runBegin
  | .runEnd => (fun _ => ()) <$> runEnd
  | .onIdle => onIdle
  | .onTimer => onTimer
  | .asyncDispatch => update State.dispatchWake
  | .onWake => onWake
  | .onPoll fired => onPoll fired
  | .createNative => (fun _ => ()) <$> create .native default
  | .scheduleCall => scheduleCall
  | .surroundings e => update e.apply

/-- The loop, created at time `t`. -/
def system [Add T] [Zero T] [Inhabited T] (t : T) : System (sig T) where
  body := body
  entry := entry
  init := State.init t

/-- When an entry point may be started. libuv calls back only while it runs and nothing native is
in progress, and only for a handle that is active; a poll event fires handles that native code
created. Everything else may be called by any Python code, on any thread. -/
def Startable (stack : List Callback) (s : State T) : Op T → Prop
  | .cancel h => h < s.fresh
  | .runEnd => stack = [] ∧ s.running
  | .onIdle => stack = [] ∧ s.running ∧ s.uvIdle
  | .onTimer => stack = [] ∧ s.running ∧ s.uvTimer.isSome
  | .asyncDispatch => stack = [] ∧ s.running ∧ s.asyncSent
  | .onWake => stack = [] ∧ s.running ∧ s.wakeDispatched
  | .onPoll fired => stack = [] ∧ s.running ∧
      ∀ h ∈ fired, h < s.fresh ∧ (s.handles h).kind = .native
  | _ => True

/-- Allocations succeed, contexts, clocks and Python code behave as they like. If `quiet`, no
finalizer calls back into the loop. -/
def env (quiet : Prop) : Env (sig T) where
  answers := fun _ q a => q = Request.alloc → a.ok = true
  returns := fun _ _ _ => True
  starts := fun stack s op =>
    Startable stack s op ∧ (quiet → stack.head? ≠ some Callback.finalizer)

instance (stack : List Callback) (s : State T) (op : Op T) : Decidable (Startable stack s op) :=
  match op with
  | .cancel h => inferInstanceAs (Decidable (h < s.fresh))
  | .runEnd => inferInstanceAs (Decidable (stack = [] ∧ s.running))
  | .onIdle => inferInstanceAs (Decidable (stack = [] ∧ s.running ∧ s.uvIdle))
  | .onTimer => inferInstanceAs (Decidable (stack = [] ∧ s.running ∧ s.uvTimer.isSome))
  | .asyncDispatch => inferInstanceAs (Decidable (stack = [] ∧ s.running ∧ s.asyncSent))
  | .onWake => inferInstanceAs (Decidable (stack = [] ∧ s.running ∧ s.wakeDispatched))
  | .onPoll fired => inferInstanceAs (Decidable (stack = [] ∧ s.running ∧
      ∀ h ∈ fired, h < s.fresh ∧ (s.handles h).kind = .native))
  | .callSoon | .callSoonThreadsafe | .callLater _ | .callAt _ | .stop | .runBegin
  | .createNative | .scheduleCall | .surroundings _ => .isTrue trivial

instance (quiet : Prop) [Decidable quiet] (c : Config (sig T)) (l : Label (sig T)) :
    Decidable ((env quiet).Allows c l) :=
  match l with
  | .tau => .isTrue trivial
  | .answer a =>
    match h : c.running with
    | some (.ask q _) =>
      decidable_of_iff (q = Request.alloc → a.ok = true) (by simp [Env.Allows, env, h])
    | some (.ret _) | some (.get _) | some (.set _ _) | some (.yield _ _) | some (.call _ _)
    | none => .isFalse (by simp [Env.Allows, h])
  | .start op =>
    inferInstanceAs (Decidable (Startable (c.stack.map Prod.fst) c.state op ∧
      (quiet → (c.stack.map Prod.fst).head? ≠ some Callback.finalizer)))
  | .resume _ =>
    match h : c.stack with
    | _ :: _ => .isTrue (by simp [Env.Allows, env, h])
    | [] => .isFalse (by simp [Env.Allows, h])

/-- No Python code is kept from calling the loop. -/
theorem not_quiet [Inhabited T] (cb : Callback) : ¬ (env False : Env (sig T)).Quiet cb :=
  fun hquiet => hquiet [] (State.init default) .callSoon ⟨trivial, nofun⟩

/-! ## Weakest preconditions of the primitives -/

section WP

variable {quiet : Prop} {A : Spec (sig T)} {s : State T}

@[simp]
theorem wp_getState (Q : State T → State T → Prop) :
    (getState : P T _).wp (env quiet) A Q s ↔ Q s s := Iff.rfl

@[simp]
theorem wp_setState (s' : State T) (Q : Unit → State T → Prop) :
    (setState s').wp (env quiet) A Q s ↔ Q () s' := Iff.rfl

@[simp]
theorem wp_update (f : State T → State T) (Q : Unit → State T → Prop) :
    (update f).wp (env quiet) A Q s ↔ Q () (f s) := Iff.rfl

@[simp]
theorem wp_alloc (Q : Bool → State T → Prop) :
    (alloc : P T _).wp (env quiet) A Q s ↔ Q true s := by
  rw [alloc, Prog.wp_map, Prog.wp_request]
  refine ⟨fun h => h ⟨true, s.clock, 0⟩ fun _ => rfl, fun h a ha => ?_⟩
  rw [ha rfl]
  exact h

@[simp]
theorem wp_enterContext (Q : Bool → State T → Prop) :
    (enterContext : P T _).wp (env quiet) A Q s ↔ ∀ b, Q b s := by
  rw [enterContext, Prog.wp_map, Prog.wp_request]
  exact ⟨fun h b => h ⟨b, s.clock, 0⟩ nofun, fun h a _ => h a.ok⟩

@[simp]
theorem wp_now (Q : T → State T → Prop) :
    (now : P T _).wp (env quiet) A Q s ↔ ∀ t, Q t (s.setClock t) :=
  ⟨fun h t => h ⟨true, t, 0⟩ nofun, fun h a _ => h a.time⟩

@[simp]
theorem wp_hrtime (Q : ℕ → State T → Prop) :
    (hrtime : P T _).wp (env quiet) A Q s ↔ ∀ n, Q n s := by
  rw [hrtime, Prog.wp_map, Prog.wp_request]
  exact ⟨fun h n => h ⟨true, s.clock, n⟩ nofun, fun h a _ => h a.nanoseconds⟩

@[simp]
theorem wp_python (c : Callback) (Q : Unit → State T → Prop) :
    (python c : P T _).wp (env quiet) A Q s ↔
      (Prog.foreign (S := sig T) c).wp (env quiet) A (fun _ s' => Q () s') s :=
  Prog.wp_map _ _ _ _

/-- Finalizers that do not call back leave the state alone. -/
theorem wp_release_of_quiet (hquiet : quiet) (Q : Unit → State T → Prop) (h : Q () s) :
    (release : P T _).wp (env quiet) A Q s := by
  rw [release, wp_python]
  exact Prog.wp_foreign_of_quiet (fun _ _ _ hstart => hstart.2 hquiet rfl) fun _ => h

/-- Python code keeps whatever the specification says foreign code keeps. -/
theorem wp_python_of_inv (hrefl : ∀ s, A.rely s s) {c : Callback} {Q : Unit → State T → Prop}
    (hinv : A.inv s) (h : ∀ s', A.rely s s' → A.inv s' → Q () s') :
    (python c : P T _).wp (env quiet) A Q s := by
  rw [wp_python]
  exact Prog.wp_foreign (hrefl s) hinv fun _ s' hrely hinv' => h s' hrely hinv'

theorem keeps_pure (hrefl : ∀ s, A.rely s s) {α : Type} (a : α) :
    (pure a : P T α).Keeps (env quiet) A := fun s hs => ⟨hs, hrefl s⟩

/-- A program that reads the state first, and keeps the invariant whatever it reads. -/
theorem keeps_getState {α : Type} {f : State T → P T α}
    (hf : ∀ s, (f s).Keeps (env quiet) A) : (getState >>= f).Keeps (env quiet) A :=
  fun s hs => (Prog.wp_bind _ _ _ _).mpr (hf s s hs)

theorem keeps_ite {α : Type} (c : Prop) [Decidable c] {p q : P T α}
    (hp : p.Keeps (env quiet) A) (hq : q.Keeps (env quiet) A) :
    (if c then p else q).Keeps (env quiet) A := by
  split
  · exact hp
  · exact hq

/-- The idle loop keeps what a batch and the rest of the loop keep. -/
theorem keeps_idleBody (hrefl : ∀ s, A.rely s s)
    (htrans : ∀ s₁ s₂ s₃, A.rely s₁ s₂ → A.rely s₂ s₃ → A.rely s₁ s₃)
    (hrun : (runReady : P T _).Keeps (env quiet) A)
    (hloop : ∀ b c n, (Prog.invoke (S := sig T) (.idleLoop b c n)).Keeps (env quiet) A)
    (batches callbacks started : ℕ) :
    (idleBody batches callbacks started : P T _).Keeps (env quiet) A := by
  intro s hs
  simp only [idleBody, Prog.wp_bind, wp_getState, Prog.wp_ite, Prog.wp_pure, wp_hrtime]
  split
  · exact ⟨hs, hrefl s⟩
  refine hrun.wp hs fun _ s₁ hs₁ hrely₁ => ?_
  have hstop : A.inv s₁ ∧ A.rely s s₁ := ⟨hs₁, hrely₁⟩
  have hagain : ∀ b c n, (Prog.invoke (S := sig T) (.idleLoop b c n)).wp (env quiet) A
      (fun _ s' => A.inv s' ∧ A.rely s s') s₁ := fun b c n =>
    (hloop b c n).wp hs₁ fun _ s₂ hs₂ hrely₂ => ⟨hs₂, htrans _ _ _ hrely₁ hrely₂⟩
  split
  · exact hstop
  split
  · split
    · exact hstop
    · intro time
      split
      · exact hstop
      · exact hagain _ _ _
  · exact hagain _ _ _

end WP

end Zuvloop.Loop
