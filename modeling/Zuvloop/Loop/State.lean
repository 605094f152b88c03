import Zuvloop.Collections.Ready
import Zuvloop.Collections.Timers

/-!
# The state of the event loop

`State` of `zig/loop.zig`, the handle records of `zig/handle.zig`, `zig/timer.zig` and
`zig/tshandle.zig`, and the parts of libuv the loop drives: the idle handle, the one timer, the
async handle and the prepare handle. The loop caches whether it has started each of them; the
cached flag and the handle itself are separate fields here.

Handles are numbered in the order they are created, and a number is never used again.

## Main definitions

* `Core`: the part of the loop that transports use as well, over any type of queued callback.
* `State`: the whole loop, whose ready queue holds handle numbers.
* `State.history`: what happened so far, oldest first. No function of the loop reads it.
-/

namespace Zuvloop.Loop

/-! ## The core -/

/-- The ready queue, the idle and flush handles, the run flags and the handle counters. -/
structure Core (α : Type) where
  /-- Callbacks to run. -/
  ready : Queue α
  /-- The loop believes the idle handle to be active. -/
  idleActive : Bool
  /-- The idle handle is active. -/
  uvIdle : Bool
  /-- The transports that hold unsent writes, last registered first. -/
  flushHead : List ℕ
  /-- The loop believes the prepare handle to be active. -/
  flusherActive : Bool
  /-- The prepare handle is active. -/
  uvPrepare : Bool
  /-- `uv_run` is in progress. -/
  running : Bool
  /-- The loop has been closed. -/
  closed : Bool
  /-- The loop has been asked to stop. -/
  stopping : Bool
  /-- An exception is waiting to be raised out of `run_forever`. -/
  fatal : Bool
  /-- libuv has been asked to return from `uv_run`. -/
  uvStop : Bool
  /-- Initialized external handles, including those awaiting a close callback. -/
  externalHandles : ℕ
  /-- External handles awaiting a close callback. -/
  closingHandles : ℕ
  /-- An assertion of the source failed. -/
  panicked : Bool

namespace Core

variable {α : Type}

/-- A loop that has just been created. It owns one external handle, the self-pipe poller. -/
def init : Core α :=
  { ready := .empty, idleActive := false, uvIdle := false, flushHead := [],
    flusherActive := false, uvPrepare := false, running := false, closed := false,
    stopping := false, fatal := false, uvStop := false, externalHandles := 1,
    closingHandles := 0, panicked := false }

/-- Start the idle handle if there is something to run. -/
def startIdle (st : Core α) : Core α :=
  if !st.idleActive && st.ready.len != 0 then
    { st with uvIdle := true, idleActive := true }
  else st

/-- Stop the idle handle if there is nothing to run. -/
def stopIdle (st : Core α) : Core α :=
  if st.ready.len == 0 && st.idleActive then
    { st with uvIdle := false, idleActive := false }
  else st

/-- Append to the ready queue; `none` when that takes an allocation that fails. -/
def push (alloc : Bool) (st : Core α) (item : α) : Option (Core α) :=
  (st.ready.push alloc item).map fun ready => { st with ready }

/-- Keep the first fatal exception and stop the loop. -/
def captureFatal (st : Core α) : Core α :=
  { st with fatal := true, stopping := true, uvStop := true }

/-- Abort on a failed assertion. -/
def panic (st : Core α) : Core α := { st with panicked := true }

@[simp]
theorem startIdle_ready (st : Core α) : st.startIdle.ready = st.ready := by
  unfold startIdle
  split <;> rfl

@[simp]
theorem stopIdle_ready (st : Core α) : st.stopIdle.ready = st.ready := by
  unfold stopIdle
  split <;> rfl

end Core

/-! ## Handles -/

/-- What a handle was created by, which decides how it runs and how it is cancelled. -/
inductive HandleKind where
  /-- `call_soon`. -/
  | soon
  /-- `call_soon_threadsafe`. -/
  | threadsafe
  /-- `call_later` and `call_at`. -/
  | timer
  /-- A poller, a process or a transport, which queues callbacks of its own. -/
  | native
deriving DecidableEq, Repr

/-- The state word of a thread-safe handle. -/
inductive RunState where
  /-- Not run yet. -/
  | pending
  /-- Its callback is running. -/
  | running
  /-- It ran, or was cancelled before it could. -/
  | done
deriving DecidableEq, Repr

/-- A callback record. `when`, `scheduled` and `inHeap` are those of a timer, `runState` that of a
thread-safe handle. -/
structure HandleRec (T : Type) where
  /-- What created the handle. -/
  kind : HandleKind
  /-- The callback has not been released. -/
  callback : Bool
  /-- The handle has been cancelled. -/
  cancelled : Bool
  /-- The callback of a regular handle or a timer is running. -/
  running : Bool
  /-- The deadline. -/
  when : T
  /-- The timer is waiting for its turn. -/
  scheduled : Bool
  /-- The timer is in the heap. -/
  inHeap : Bool
  /-- The state word. -/
  runState : RunState
deriving DecidableEq, Repr

namespace HandleRec

variable {T : Type}

/-- A new handle. A timer starts out scheduled and in the heap. -/
def create (kind : HandleKind) (when : T) : HandleRec T :=
  { kind, callback := true, cancelled := false, running := false, when,
    scheduled := decide (kind = .timer), inHeap := decide (kind = .timer),
    runState := .pending }

/-- Marks an already-due timer as ready without losing its scheduled state. -/
def markReady (h : HandleRec T) : HandleRec T := { h with inHeap := false }

/-- Mark the handle as cancelled. -/
def cancel (h : HandleRec T) : HandleRec T := { h with cancelled := true }

/-- Release the callback. -/
def dropCallback (h : HandleRec T) : HandleRec T := { h with callback := false }

/-- Mark the callback as running or not. -/
def setRunning (b : Bool) (h : HandleRec T) : HandleRec T := { h with running := b }

/-- Set the state word. -/
def setRunState (w : RunState) (h : HandleRec T) : HandleRec T := { h with runState := w }

/-- Keep a pending handle from running. -/
def settle (h : HandleRec T) : HandleRec T :=
  if h.runState = .pending then { h with runState := .done } else h

/-- Leaving the scheduler ends the scheduled state. -/
def clearScheduled (h : HandleRec T) : HandleRec T :=
  { h with scheduled := false, inHeap := false }

end HandleRec

/-! ## History -/

/-- What the history of a loop records. -/
inductive Event (T : Type) where
  /-- A `call_soon` or `call_soon_threadsafe` call took effect. -/
  | registered (h : ℕ)
  /-- The loop ran a handle's callback. -/
  | ran (h : ℕ)
  /-- A timer with deadline `when` entered the ready queue; `now` is the last clock reading. -/
  | due (h : ℕ) (when now : T)
  /-- `cancel()` of a timer returned. `wasInHeap` tells whether the timer was in the heap when it
  was called, `first` whether the timer had not been cancelled before; `cancelled` and `len` are
  the counters of the heap on return. -/
  | cancelReturned (h : ℕ) (wasInHeap first : Bool) (cancelled len : ℕ)
deriving DecidableEq, Repr

namespace Event

variable {T : Type}

/-- The handle of a `registered` event. -/
def registered? : Event T → Option ℕ
  | registered h => some h
  | _ => none

/-- The handle of a `ran` event. -/
def ran? : Event T → Option ℕ
  | ran h => some h
  | _ => none

end Event

/-! ## The state -/

/-- The state of the loop. -/
structure State (T : Type) [LinearOrder T] extends Core ℕ where
  /-- The handles created so far. -/
  handles : ℕ → HandleRec T
  /-- The number of the next handle. -/
  fresh : ℕ
  /-- The inbox of `call_soon_threadsafe`. -/
  threadsafeReady : Queue ℕ
  /-- The heap of scheduled timers. -/
  timers : TimerHeap T ℕ
  /-- The loop believes the libuv timer to be active. -/
  timerActive : Bool
  /-- The deadline the libuv timer was last armed for, while it is active. -/
  uvTimer : Option T
  /-- A wake-up has been requested and not yet handled. -/
  wakerPending : Bool
  /-- `uv_async_send` has been called and libuv has not yet noticed. -/
  asyncSent : Bool
  /-- libuv has noticed and is about to call `onWake`. -/
  wakeDispatched : Bool
  /-- There are resolver requests. -/
  dnsRequests : Bool
  /-- Debug mode. -/
  debug : Bool
  /-- Slow callbacks are reported even without debug mode. -/
  slowCallbackMonitoring : Bool
  /-- Callbacks that take longer than this many nanoseconds are slow; `none` is infinity. -/
  slowCallbackDuration : Option ℕ
  /-- The number of callbacks run. -/
  callbacksRun : ℕ
  /-- The number of batches run. -/
  iterations : ℕ
  /-- The last reading of the clock. -/
  clock : T
  /-- What happened so far, oldest first. -/
  history : List (Event T)

/-- Why the inbox could not be drained. -/
inductive DrainError where
  /-- There was no memory. -/
  | outOfMemory
  /-- The assertion of `pushAssumeCapacity` failed. -/
  | assertion
deriving DecidableEq

namespace State

variable {T : Type} [LinearOrder T]

/-- A loop that has just been created, at time `t`. -/
def init [Inhabited T] (t : T) : State T :=
  { toCore := .init
    handles := fun _ => .create .soon t
    fresh := 0
    threadsafeReady := .empty
    timers := .empty
    timerActive := false
    uvTimer := none
    wakerPending := false
    asyncSent := false
    wakeDispatched := false
    dnsRequests := false
    debug := false
    slowCallbackMonitoring := false
    slowCallbackDuration := some 100000000
    callbacksRun := 0
    iterations := 0
    clock := t
    history := [] }

/-- Change one handle. -/
def setHandle (s : State T) (h : ℕ) (f : HandleRec T → HandleRec T) : State T :=
  { s with handles := Function.update s.handles h (f (s.handles h)) }

/-- Change the core. -/
def setCore (s : State T) (f : Core ℕ → Core ℕ) : State T := { s with toCore := f s.toCore }

/-- Add a handle; its number is the old value of `fresh`. -/
def addHandle (s : State T) (r : HandleRec T) : State T :=
  { s with handles := Function.update s.handles s.fresh r, fresh := s.fresh + 1 }

/-- Create a handle. -/
def create (s : State T) (kind : HandleKind) (when : T) : State T :=
  s.addHandle (.create kind when)

/-- Record an event. -/
def record (s : State T) (e : Event T) : State T := { s with history := s.history ++ [e] }

/-- The handles `call_soon` and `call_soon_threadsafe` registered, in the order the calls took
effect. -/
def registered (s : State T) : List ℕ := s.history.filterMap Event.registered?

/-- The handles the loop ran, in order. -/
def ran (s : State T) : List ℕ := s.history.filterMap Event.ran?

/-- Replace the ready queue. -/
def setReady (s : State T) (ready : Queue ℕ) : State T := { s with ready }

/-- Replace the inbox. -/
def setInbox (s : State T) (threadsafeReady : Queue ℕ) : State T := { s with threadsafeReady }

/-- Replace the heap. -/
def setTimers (s : State T) (timers : TimerHeap T ℕ) : State T := { s with timers }

/-- Append to the ready queue; `none` when that takes an allocation that fails. -/
def pushReady (alloc : Bool) (s : State T) (h : ℕ) : Option (State T) :=
  (s.ready.push alloc h).map s.setReady

/-- Move `count` handles from the inbox to the ready queue; `none` when an assertion fails. -/
def drainLoop : ℕ → Queue ℕ → Queue ℕ → Option (Queue ℕ × Queue ℕ)
  | 0, ready, inbox => some (ready, inbox)
  | count + 1, ready, inbox =>
    match inbox.pop with
    | (none, _) => some (ready, inbox)
    | (some h, inbox') => (ready.pushAssumeCapacity h).bind fun ready' =>
        drainLoop count ready' inbox'

/-- Move the whole inbox to the ready queue, whose room for it is reserved first. -/
def drainThreadsafe (alloc : Bool) (s : State T) : Except DrainError (State T) :=
  match s.ready.ensureUnusedCapacity alloc s.threadsafeReady.len with
  | none => .error .outOfMemory
  | some ready =>
    match drainLoop s.threadsafeReady.len ready s.threadsafeReady with
    | none => .error .assertion
    | some (ready, inbox) => .ok ((s.setReady ready).setInbox inbox)

/-- Count the batch that is about to run. -/
def countBatch (s : State T) : State T :=
  { s with iterations := s.iterations + 1, callbacksRun := s.callbacksRun + s.ready.len }

/-- Ask libuv for a wake-up, unless one has been asked for already. -/
def sendWake (s : State T) : State T :=
  if !s.wakerPending then { s with wakerPending := true, asyncSent := true } else s

/-- libuv notices the request and clears its pending bit. -/
def dispatchWake (s : State T) : State T := { s with asyncSent := false, wakeDispatched := true }

/-- The wake-up is handled. -/
def consumeWake (s : State T) : State T := { s with wakeDispatched := false, wakerPending := false }

/-- libuv stops the timer that expired, and the loop takes note. -/
def expireTimer (s : State T) : State T := { s with uvTimer := none, timerActive := false }

/-- Read the clock as `t`. -/
def setClock (s : State T) (t : T) : State T := { s with clock := t }

/-- Take the first entry out of the heap. -/
def popTimer (s : State T) : State T := s.setTimers s.timers.pop.2

/-- Count one cancelled entry less, if any is counted. -/
def uncountCancelled (s : State T) : State T :=
  if s.timers.cancelled ≠ 0 then s.setTimers (s.timers.setCancelled (s.timers.cancelled - 1))
  else s

/-- Count one cancelled entry more. -/
def countCancelled (s : State T) : State T :=
  s.setTimers (s.timers.setCancelled (s.timers.cancelled + 1))

/-- `retireIfCancelled` over the heap: compact it, and end the scheduled state of every handle
dropped. The second component is the handles to release. -/
def compactTimers (alloc : Bool) (s : State T) : State T × List ℕ :=
  let (timers, doomed) := s.timers.compact alloc fun h => (s.handles h).cancelled
  let handles := fun h => if h ∈ doomed then (s.handles h).clearScheduled else s.handles h
  ({ s with timers, handles }, doomed)

/-- Point the libuv timer at a deadline. -/
def startTimer (s : State T) (when : T) : State T :=
  { s with uvTimer := some when, timerActive := true }

/-- Stop the libuv timer if it is active. -/
def stopTimer (s : State T) : State T :=
  if s.timerActive then { s with uvTimer := none, timerActive := false } else s

/-! ## Reading back an update -/

theorem handles_setHandle (s : State T) (h : ℕ) (f : HandleRec T → HandleRec T) (k : ℕ) :
    (s.setHandle h f).handles k = if k = h then f (s.handles h) else s.handles k := by
  rcases eq_or_ne k h with rfl | hne
  · rw [if_pos rfl]
    exact Function.update_self _ _ _
  · rw [if_neg hne]
    exact Function.update_of_ne hne _ _

@[simp]
theorem handles_setHandle_self (s : State T) (h : ℕ) (f : HandleRec T → HandleRec T) :
    (s.setHandle h f).handles h = f (s.handles h) := Function.update_self _ _ _

theorem handles_setHandle_of_ne (s : State T) {h k : ℕ} (f : HandleRec T → HandleRec T)
    (hne : k ≠ h) : (s.setHandle h f).handles k = s.handles k := Function.update_of_ne hne _ _

theorem setHandle_setHandle (s : State T) (h : ℕ) (f g : HandleRec T → HandleRec T) :
    (s.setHandle h f).setHandle h g = s.setHandle h (g ∘ f) := by
  simp only [setHandle, Function.update_self, Function.update_idem, Function.comp_apply]

theorem addHandle_setHandle (s : State T) (r : HandleRec T) (f : HandleRec T → HandleRec T) :
    (s.addHandle r).setHandle s.fresh f = s.addHandle (f r) := by
  simp only [setHandle, addHandle, Function.update_self, Function.update_idem]

@[simp]
theorem handles_addHandle_self (s : State T) (r : HandleRec T) :
    (s.addHandle r).handles s.fresh = r := Function.update_self _ _ _

theorem handles_addHandle_of_lt (s : State T) (r : HandleRec T) {k : ℕ} (hk : k < s.fresh) :
    (s.addHandle r).handles k = s.handles k := Function.update_of_ne hk.ne _ _

@[simp]
theorem handles_create_self (s : State T) (kind : HandleKind) (when : T) :
    (s.create kind when).handles s.fresh = .create kind when := Function.update_self _ _ _

theorem handles_create_of_lt (s : State T) (kind : HandleKind) (when : T) {k : ℕ}
    (hk : k < s.fresh) : (s.create kind when).handles k = s.handles k :=
  Function.update_of_ne hk.ne _ _

@[simp]
theorem registered_record (s : State T) (e : Event T) :
    (s.record e).registered = s.registered ++ e.registered?.toList := by
  rw [registered, registered, record, List.filterMap_append]
  cases h : e.registered? <;> simp [h]

@[simp]
theorem ran_record (s : State T) (e : Event T) : (s.record e).ran = s.ran ++ e.ran?.toList := by
  rw [ran, ran, record, List.filterMap_append]
  cases h : e.ran? <;> simp [h]

@[simp]
theorem uncountCancelled_clock (s : State T) : s.uncountCancelled.clock = s.clock := by
  unfold uncountCancelled
  split <;> rfl

/-! ## Draining the inbox -/

theorem drainLoop_spec (count : ℕ) (ready inbox : Queue ℕ) (hcount : inbox.len ≤ count)
    (hroom : ready.len + inbox.len ≤ ready.cap) :
    ∃ ready' inbox' : Queue ℕ, drainLoop count ready inbox = some (ready', inbox') ∧
      ready'.toList = ready.toList ++ inbox.toList ∧ inbox'.toList = [] := by
  induction count generalizing ready inbox with
  | zero =>
    have hnil := inbox.len_eq_zero_iff.mp (by omega)
    exact ⟨ready, inbox, rfl, by rw [hnil, List.append_nil], hnil⟩
  | succ count ih =>
    rw [drainLoop]
    cases hlist : inbox.toList with
    | nil =>
      have hpop : inbox.pop.1 = none := by rw [inbox.pop_fst, hlist]; rfl
      rcases hp : inbox.pop with ⟨h?, inbox'⟩
      obtain rfl : h? = none := by rw [hp] at hpop; exact hpop
      exact ⟨ready, inbox, rfl, by rw [List.append_nil], hlist⟩
    | cons h rest =>
      have hpop : inbox.pop.1 = some h := by rw [inbox.pop_fst, hlist]; rfl
      have htail : inbox.pop.2.toList = rest := by rw [inbox.toList_pop, hlist]; rfl
      have hlen : inbox.len = rest.length + 1 := by rw [← inbox.length_toList, hlist]; rfl
      rcases hp : inbox.pop with ⟨h?, inbox'⟩
      rw [hp] at hpop htail
      obtain rfl : h? = some h := hpop
      dsimp only at htail ⊢
      have hlen' : inbox'.len = rest.length := by rw [← inbox'.length_toList, htail]
      obtain ⟨q, hq, hqlist, hqcap, hqlen⟩ :=
        Queue.pushAssumeCapacity_of_lt (by omega : ready.len < ready.cap) h
      obtain ⟨r, i, heq, hr, hi⟩ := ih q inbox' (by omega) (by omega)
      exact ⟨r, i, by rw [hq, Option.bind_some, heq],
        by rw [hr, hqlist, htail, List.append_assoc]; rfl, hi⟩

/-- With memory, draining appends the inbox to the ready queue, empties it and changes nothing
else. -/
theorem drainThreadsafe_true (s : State T) :
    ∃ ready inbox : Queue ℕ, s.drainThreadsafe true = .ok ((s.setReady ready).setInbox inbox) ∧
      ready.toList = s.ready.toList ++ s.threadsafeReady.toList ∧ inbox.toList = [] := by
  obtain ⟨q, hq, hlist, hlen, hcap⟩ :=
    s.ready.ensureUnusedCapacity_true s.threadsafeReady.len
  obtain ⟨r, i, heq, hr, hi⟩ := drainLoop_spec s.threadsafeReady.len q s.threadsafeReady le_rfl
    (by omega)
  exact ⟨r, i, by rw [drainThreadsafe, hq]; dsimp only; rw [heq], by rw [hr, hlist], hi⟩

/-- With memory, a push to the ready queue appends one handle and changes nothing else. -/
theorem pushReady_true (s : State T) (h : ℕ) :
    ∃ q : Queue ℕ, s.pushReady true h = some (s.setReady q) ∧
      q.toList = s.ready.toList ++ [h] := by
  obtain ⟨q, hq, hlist⟩ := s.ready.push_true h
  exact ⟨q, by rw [pushReady, hq, Option.map_some], hlist⟩

end State

end Zuvloop.Loop
