import Mathlib.Data.List.AList
import Mathlib.Logic.Function.Basic
import Zuvloop.Transition

/-!
# Readers and writers of descriptors

`zig/poller.zig`: the map from descriptors to pollers, each with a handle for readers and one for
writers, a cache of the events it asked libuv for, and one `uv_poll_t`. Releasing a handle runs the
finalizers of its arguments, and these may call any of the functions again, so what a function still
has to do once it starts to release is kept as a list of actions, and anything can happen before the
next of them.

Handles and poll handles are called by numbers in the order in which they are created. Allocations
succeed, and a descriptor that libuv refuses in `uv_poll_init` changes nothing and is left out. What
`uv_poll_start` returns is given from outside; `FailedStart` puts libuv's table of watchers under
the registry, and there it never fails.

## Main definitions

* `Poller`, `State`: a poller, and all that the functions read and write.
* `State.rearm`, `State.destroy`, `State.add`, `State.remove`, `State.onPoll`: the functions.
* `machine`: calls, events, and the loop running its ready queue, in any order.
-/

namespace Zuvloop.Polling

open Transition

/-! ## State -/

/-- A file descriptor. -/
abbrev Fd := ℕ

/-- Readers or writers. -/
inductive Direction where
  | reader
  | writer
deriving DecidableEq, Repr

/-- `UV_READABLE` and `UV_WRITABLE`, or'ed. -/
structure Events where
  readable : Bool
  writable : Bool
deriving DecidableEq, Repr

/-- No events. -/
def Events.none : Events := ⟨false, false⟩

/-- An entry of the map. -/
structure Poller where
  /-- Its `uv_poll_t`. -/
  poll : ℕ
  /-- The handle for readers. -/
  reader : Option ℕ
  /-- The handle for writers. -/
  writer : Option ℕ
  /-- The cache of the events libuv has been asked for. -/
  events : Events
deriving DecidableEq, Repr

/-- A `uv_poll_t`, as libuv and the operating system see it. -/
structure UvPoll where
  /-- Its descriptor. -/
  fd : Fd
  /-- The events it polls for, none when it is stopped. -/
  polling : Events
  /-- The events of the last `uv_poll_start`. -/
  asked : Events
  /-- How often `closeExternalHandle` was called. -/
  closes : ℕ

/-- What a function has left to do when it begins to release handles. -/
inductive Action where
  /-- Release a handle. -/
  | release (h : ℕ)
  /-- Mark a handle as cancelled and release it. -/
  | cancelRelease (h : ℕ)
  /-- `closeAll`, from here on in the map. -/
  | destroyAll (fds : List Fd)
deriving DecidableEq, Repr

/-- The descriptors that `closeAll` has yet to come to. -/
def Action.visits : Action → Option (List Fd)
  | .release _ | .cancelRelease _ => none
  | .destroyAll fds => some fds

/-- The handle that is released. -/
def Action.handle : Action → Option ℕ
  | .release h | .cancelRelease h => some h
  | .destroyAll _ => none

/-- The loop, as far as readers and writers go. -/
structure State where
  /-- `pollers` -/
  pollers : AList fun _ : Fd => Poller
  /-- The poll handles. -/
  polls : ℕ → UvPoll
  /-- The number of the next poll handle. -/
  nextPoll : ℕ
  /-- The number of the next handle. -/
  nextHandle : ℕ
  /-- The `CANCELLED` flag of each handle. -/
  cancelled : ℕ → Bool
  /-- Where each handle was registered. -/
  home : ℕ → Fd × Direction
  /-- The references that were taken to each handle. -/
  acquired : ℕ → ℕ
  /-- The references to each handle that were released. -/
  released : ℕ → ℕ
  /-- The ready queue. -/
  ready : List ℕ
  /-- What the functions under way have left to do, the innermost function's first. -/
  todo : List Action
  /-- The handles whose callbacks were run. -/
  ran : List ℕ
  /-- `closed` -/
  closed : Bool
  /-- How often `uv_poll_start` has failed. -/
  failures : ℕ

namespace Poller

/-- `reader` or `writer`. -/
def slot (p : Poller) : Direction → Option ℕ
  | .reader => p.reader
  | .writer => p.writer

/-- Assign to `reader` or `writer`. -/
def setSlot (p : Poller) (d : Direction) (h : Option ℕ) : Poller :=
  match d with
  | .reader => { p with reader := h }
  | .writer => { p with writer := h }

/-- The events that the registered handles wait for. -/
def interest (p : Poller) : Events := ⟨p.reader.isSome, p.writer.isSome⟩

variable {p : Poller} {d d' : Direction} {h : Option ℕ}

/-- The handles, to be cancelled and released. -/
def releases (p : Poller) : List Action :=
  (p.reader.map Action.cancelRelease).toList ++ (p.writer.map Action.cancelRelease).toList

@[simp]
theorem slot_setSlot_self : (p.setSlot d h).slot d = h := by cases d <;> rfl

theorem slot_setSlot_ne (hd : d' ≠ d) : (p.setSlot d h).slot d' = p.slot d' := by
  cases d <;> cases d' <;> first | rfl | exact absurd rfl hd

@[simp]
theorem poll_setSlot : (p.setSlot d h).poll = p.poll := by cases d <;> rfl

@[simp]
theorem events_setSlot : (p.setSlot d h).events = p.events := by cases d <;> rfl

/-- A poller without interest has no handles. -/
theorem interest_eq_none : p.interest = .none ↔ ∀ d, p.slot d = none := by
  constructor
  · intro hp d
    cases d <;> simp_all [interest, Events.none, slot]
  · intro hp
    simpa [interest, Events.none, slot] using And.intro (hp .reader) (hp .writer)

theorem exists_slot {x : ℕ} :
    (∃ d, p.slot d = some x) ↔ p.reader = some x ∨ p.writer = some x := by
  constructor
  · rintro ⟨d, hd⟩
    cases d
    · exact .inl hd
    · exact .inr hd
  · rintro (hr | hw)
    · exact ⟨.reader, hr⟩
    · exact ⟨.writer, hw⟩

/-- What is released is what is registered. -/
theorem mem_releases {x : ℕ} : Action.cancelRelease x ∈ p.releases ↔ ∃ d, p.slot d = some x := by
  constructor
  · intro hx
    rcases List.mem_append.mp hx with hx | hx
    · exact ⟨.reader, by simpa [slot] using hx⟩
    · exact ⟨.writer, by simpa [slot] using hx⟩
  · rintro ⟨d, hd⟩
    cases d <;> simp_all [slot, releases]

@[simp]
theorem filterMap_visits_releases : p.releases.filterMap Action.visits = [] := by
  cases hr : p.reader <;> cases hw : p.writer <;> simp [releases, hr, hw, Action.visits]

theorem filterMap_handle_releases :
    p.releases.filterMap Action.handle = p.reader.toList ++ p.writer.toList := by
  cases hr : p.reader <;> cases hw : p.writer <;> simp [releases, hr, hw, Action.handle]

/-- A poller with a handle has interest. -/
theorem interest_ne_none {x : ℕ} (hp : p.slot d = some x) : p.interest ≠ .none := by
  intro hnone
  simp [interest_eq_none.mp hnone d] at hp

/-- The interest of a poller with another cache. -/
@[simp]
theorem interest_mk (i : ℕ) (events : Events) :
    interest ⟨i, p.reader, p.writer, events⟩ = p.interest := rfl

end Poller

/-! ## Functions -/

namespace State

/-- Put a poller into the map. -/
def setPoller (s : State) (fd : Fd) (p : Poller) : State :=
  { s with pollers := s.pollers.insert fd p }

/-- Remove a poller from the map. -/
def removePoller (s : State) (fd : Fd) : State := { s with pollers := s.pollers.erase fd }

/-- Change a poll handle. -/
def setPoll (s : State) (i : ℕ) (u : UvPoll) : State :=
  { s with polls := Function.update s.polls i u }

/-- Mark a handle as cancelled. -/
def cancel (s : State) (h : ℕ) : State :=
  { s with cancelled := Function.update s.cancelled h true }

/-- Release a handle. -/
def decref (s : State) (h : ℕ) : State :=
  { s with released := Function.update s.released h (s.released h + 1) }

/-- What to do next. -/
def push (s : State) (actions : List Action) : State := { s with todo := actions ++ s.todo }

/-- `destroy`, of a poller that is no longer in the map or is there without its handles. -/
def destroy (s : State) (p : Poller) : State :=
  let u := s.polls p.poll
  (s.setPoll p.poll { u with polling := .none, closes := u.closes + 1 }).push p.releases

/-- `uv_poll_start`. When it fails, it leaves the poll handle as it is. -/
def pollStart (s : State) (i : ℕ) (events : Events) (ok : Bool) : State :=
  let u := s.polls i
  if ok then s.setPoll i { u with polling := events, asked := events }
  else { s.setPoll i { u with asked := events } with failures := s.failures + 1 }

/-- `rearm`, of a poller whose handles have changed; `ok` is what `uv_poll_start` returns. -/
def rearm (s : State) (fd : Fd) (p : Poller) (ok : Bool) : State :=
  if p.interest = p.events then s.setPoller fd p
  else if p.interest = .none then (s.removePoller fd).destroy p
  else (s.setPoller fd { p with events := p.interest }).pollStart p.poll p.interest ok

/-- `get`: the poller of a descriptor, a new one if there is none. -/
def get (s : State) (fd : Fd) : Poller × State :=
  match s.pollers.lookup fd with
  | some p => (p, s)
  | none =>
    (⟨s.nextPoll, none, none, .none⟩,
      { s.setPoll s.nextPoll ⟨fd, .none, .none, 0⟩ with nextPoll := s.nextPoll + 1 })

theorem get_of_some {s : State} {fd : Fd} {p : Poller} (hl : s.pollers.lookup fd = some p) :
    s.get fd = (p, s) := by
  simp only [get, hl]

theorem get_of_none {s : State} {fd : Fd} (hl : s.pollers.lookup fd = none) :
    s.get fd = (⟨s.nextPoll, none, none, .none⟩,
      { s.setPoll s.nextPoll ⟨fd, .none, .none, 0⟩ with nextPoll := s.nextPoll + 1 }) := by
  simp only [get, hl]

/-- `handlemod.create`, of a handle for a descriptor: the caller has the only reference. -/
def create (s : State) (fd : Fd) (d : Direction) : State :=
  { s with
    nextHandle := s.nextHandle + 1
    cancelled := Function.update s.cancelled s.nextHandle false
    home := Function.update s.home s.nextHandle (fd, d)
    acquired := Function.update s.acquired s.nextHandle 1 }

/-- `add`, from where the poller is looked up. -/
def add (s : State) (fd : Fd) (d : Direction) (ok : Bool) : State :=
  let h := s.nextHandle
  let (p, s) := (s.create fd d).get fd
  match p.slot d with
  | none => s.rearm fd (p.setSlot d (some h)) ok
  | some old => ((s.cancel old).rearm fd (p.setSlot d (some h)) ok).push [.release old]

section add

variable {s : State} {fd : Fd} {d : Direction} {p : Poller} {old h : ℕ} {ok : Bool}

/-- The first handle of a descriptor. -/
theorem add_of_none (hl : s.pollers.lookup fd = none) :
    s.add fd d ok = ((s.create fd d).get fd).2.rearm fd
      (Poller.setSlot ⟨s.nextPoll, none, none, .none⟩ d (some s.nextHandle)) ok := by
  rw [add, get_of_none (by exact hl)]
  cases d <;> rfl

/-- A handle for the other direction. -/
theorem add_of_some (hl : s.pollers.lookup fd = some p) (hd : p.slot d = none) :
    s.add fd d ok = (s.create fd d).rearm fd (p.setSlot d (some s.nextHandle)) ok := by
  rw [add, get_of_some (by exact hl)]
  simp only [hd]

/-- A handle that supersedes one. -/
theorem add_of_superseded (hl : s.pollers.lookup fd = some p) (hd : p.slot d = some old) :
    s.add fd d ok =
      (((s.create fd d).cancel old).rearm fd (p.setSlot d (some s.nextHandle)) ok).push
        [.release old] := by
  rw [add, get_of_some (by exact hl)]
  simp only [hd]

end add

/-- `remove` -/
def remove (s : State) (fd : Fd) (d : Direction) (ok : Bool) : State :=
  match s.pollers.lookup fd with
  | none => s
  | some p =>
    match p.slot d with
    | none => s
    | some h => ((s.cancel h).rearm fd (p.setSlot d none) ok).push [.release h]

/-- What `remove` does when there is something to remove. -/
theorem remove_of_some {s : State} {fd : Fd} {d : Direction} {p : Poller} {h : ℕ} {ok : Bool}
    (hl : s.pollers.lookup fd = some p) (hd : p.slot d = some h) :
    s.remove fd d ok = ((s.cancel h).rearm fd (p.setSlot d none) ok).push [.release h] := by
  simp only [remove, hl, hd]

/-- `schedule` -/
def schedule (s : State) : Option ℕ → State
  | none => s
  | some h =>
    if s.cancelled h then s
    else
      { s with
        ready := s.ready ++ [h]
        acquired := Function.update s.acquired h (s.acquired h + 1) }

/-- `onPoll`, with the events that occurred. -/
def onPoll (s : State) (p : Poller) (events : Events) : State :=
  let s := if events.readable then s.schedule p.reader else s
  if events.writable then s.schedule p.writer else s

/-- `onPoll`, with an error. libuv has stopped the poll handle. -/
def onPollError (s : State) (fd : Fd) (p : Poller) (ok : Bool) : State :=
  let s := s.setPoll p.poll { s.polls p.poll with polling := .none }
  let s := (s.schedule p.reader).schedule p.writer
  s.rearm fd { p with events := .none } ok

/-- The loop takes a handle off its ready queue, runs it unless it is cancelled, and releases it
afterwards. -/
def runReady (s : State) (h : ℕ) (rest : List ℕ) : State :=
  let s := { s with ready := rest }
  let s := if s.cancelled h then s else { s with ran := s.ran ++ [h] }
  s.push [.release h]

/-- `closeLoop`: the handles on the ready queue are released, and `closeAll` goes through the
map. -/
def close (s : State) (fds : List Fd) : State :=
  let handles := s.ready
  { s with closed := true, ready := [] }.push
    (handles.map Action.release ++ [Action.destroyAll fds])

/-- The next action. -/
def act (s : State) : Action → State
  | .release h => s.decref h
  | .cancelRelease h => (s.cancel h).decref h
  | .destroyAll [] => { s with pollers := ∅ }
  | .destroyAll (fd :: fds) =>
    let s := s.push [.destroyAll fds]
    match s.pollers.lookup fd with
    | none => s  -- a finalizer has removed the last handle of this descriptor
    | some p =>
      (s.setPoller fd { p with reader := none, writer := none }).destroy p

end State

/-! ## The machine -/

/-- What can happen next. `ok` is what `uv_poll_start` returns, if it is called. -/
inductive Label where
  /-- `add_reader` or `add_writer`. -/
  | add (fd : Fd) (d : Direction) (ok : Bool)
  /-- `remove_reader` or `remove_writer`. -/
  | remove (fd : Fd) (d : Direction) (ok : Bool)
  /-- A polled descriptor is ready. -/
  | event (fd : Fd) (events : Events)
  /-- A polled descriptor has an error. -/
  | error (fd : Fd) (ok : Bool)
  /-- The loop runs the next handle of the ready queue. -/
  | run
  /-- The loop is closed; the map lists its descriptors in this order. -/
  | close (fds : List Fd)
  /-- A finalizer, or a callback, is over: the function below it goes on. -/
  | next
deriving DecidableEq, Repr

/-- One step. Functions are called from outside, from callbacks and from finalizers. -/
def step (s : State) : Label → Option State
  | .add fd d ok => if s.closed then none else some (s.add fd d ok)
  | .remove fd d ok => some (s.remove fd d ok)
  | .event fd events =>
    match s.pollers.lookup fd with
    | none => none
    | some p =>
      if s.closed = false ∧ (s.polls p.poll).polling ≠ .none then some (s.onPoll p events)
      else none
  | .error fd ok =>
    match s.pollers.lookup fd with
    | none => none
    | some p =>
      if s.closed = false ∧ (s.polls p.poll).polling ≠ .none then some (s.onPollError fd p ok)
      else none
  | .run =>
    match s.ready with
    | [] => none
    | h :: rest => if s.closed then none else some (s.runReady h rest)
  | .close fds =>
    if s.closed = false ∧ fds.Perm s.pollers.keys then some (s.close fds) else none
  | .next =>
    match s.todo with
    | [] => none
    | a :: todo => some ({ s with todo := todo }.act a)

/-- A new loop, and everything that can happen to it. -/
def machine : Machine State Label where
  init := ⟨∅, fun _ => ⟨0, .none, .none, 0⟩, 0, 0, fun _ => false, fun _ => (0, .reader),
    fun _ => 0, fun _ => 0, [], [], [], false, 0⟩
  step := step

end Zuvloop.Polling
