import Zuvloop.Polling.Safety
import Zuvloop.Polling.Watchers

/-!
# Whether `uv_poll_start` fails

The registry together with libuv's table of watchers, so that what `uv_poll_start` returns is no
longer given but computed. Streams, datagram endpoints and whatever else the loop watches start and
stop their own watchers meanwhile, on any descriptor.

`rearm` has written the cache, and its caller the slots of the poller, when it comes to
`uv_poll_start`, and nothing is put back should that fail. It does not fail: `uv_poll_init` has
refused a descriptor whose entry in the table is somebody else's, a poller in the map keeps the
entry of its descriptor, and between an error and the call that starts the poll handle again nobody
else comes to the table.

## Main definitions

* `Watched`: the registry and the table.
* `Watched.rearm`, `Watched.add`, `Watched.remove`, `Watched.onPollError`: the functions of the
  registry with their calls of libuv.
* `watched`: all of it, in any order.
* `Unchanged`: what a call that fails should leave behind.

## Main results

* `Owned.step`: a poller with a handle keeps the entry of its descriptor.
* `refines_registry`: the registry does what it does when every `uv_poll_start` succeeds.
* `failed_start_changes_nothing`: no call fails, and every poller is polled for what is registered.
-/

namespace Zuvloop.Polling

open Transition

variable {s s' : State} {fd g : Fd} {p q : Poller} {d : Direction} {h : ℕ} {ok : Bool} {l : Label}

/-! ## The registry and the table -/

/-- The registry, and what libuv watches. -/
structure Watched where
  registry : State
  uv : Uv

/-- What can happen next. -/
inductive Occurrence where
  /-- `add_reader` or `add_writer`; `err` is what libuv makes of the descriptor. -/
  | add (fd : Fd) (d : Direction) (err : ℤ)
  /-- `remove_reader` or `remove_writer`. -/
  | remove (fd : Fd) (d : Direction)
  /-- A watched descriptor is ready. -/
  | event (fd : Fd) (events : Events)
  /-- A watched descriptor has an error. -/
  | error (fd : Fd)
  /-- The loop runs the next handle of the ready queue. -/
  | run
  /-- The loop is closed; the map lists its descriptors in this order. -/
  | close (fds : List Fd)
  /-- A finalizer, or a callback, is over: the function below it goes on. -/
  | next
  /-- Some other handle of the loop gets a descriptor. -/
  | init (k : ℕ) (fd : Fd)
  /-- Some other handle waits for events. -/
  | start (k : ℕ) (events : UInt32)
  /-- Some other handle no longer does. -/
  | stop (k : ℕ) (events : UInt32)
  /-- The kernel is told what a watcher waits for. -/
  | submit (w : Io)
deriving DecidableEq, Repr

/-- The descriptor of a call. -/
def Occurrence.descriptor : Occurrence → Option Fd
  | .add fd _ _ | .remove fd _ | .event fd _ | .error fd => some fd
  | .run | .close _ | .next | .init .. | .start .. | .stop .. | .submit _ => none

namespace Uv

/-- What `get` asks of libuv. -/
def get (uv : Uv) (s : State) (fd : Fd) (err : ℤ) : Except ℤ Uv :=
  match s.pollers.lookup fd with
  | some _ => .ok uv
  | none => uv.pollInit s.nextPoll fd err

/-- What `rearm` asks of libuv. -/
def rearm (uv : Uv) (p : Poller) : Except ℤ Uv :=
  if p.interest = p.events then .ok uv
  else if p.interest = .none then .ok (uv.pollClose p.poll)
  else uv.pollStart p.poll p.interest

/-- What `destroy` asks of libuv in `closeAll`. -/
def act (uv : Uv) (s : State) : Action → Uv
  | .release _ | .cancelRelease _ | .destroyAll [] => uv
  | .destroyAll (fd :: _) =>
    match s.pollers.lookup fd with
    | none => uv
    | some p => uv.pollClose p.poll

end Uv

namespace Watched

/-- A function of the registry, to which `rearm` of a poller reports what became of
`uv_poll_start`. -/
def rearm (uv : Uv) (p : Poller) (f : Bool → State) : Watched :=
  match uv.rearm p with
  | .ok uv' => ⟨f true, uv'⟩
  | .error _ => ⟨f false, uv⟩

/-- `add` -/
def add (s : Watched) (fd : Fd) (d : Direction) (err : ℤ) : Watched :=
  match s.uv.get s.registry fd err with
  | .error _ => s  -- the call raises, and the new handle is released
  | .ok uv =>
    rearm uv ((s.registry.get fd).1.setSlot d (some s.registry.nextHandle)) (s.registry.add fd d)

/-- `remove` -/
def remove (s : Watched) (fd : Fd) (d : Direction) : Watched :=
  match s.registry.pollers.lookup fd with
  | none => s
  | some p =>
    match p.slot d with
    | none => s
    | some _ => rearm s.uv (p.setSlot d none) (s.registry.remove fd d)

/-- `uv__poll_io` with an error: it stops the poll handle and calls `onPoll`. -/
def onPollError (s : Watched) (fd : Fd) (p : Poller) : Watched :=
  rearm (s.uv.ioStop (.poll p.poll) pollAll) { p with events := .none }
    (s.registry.onPollError fd p)

/-- One step. `uv__io_poll` reports to the watcher in the table. -/
def step (s : Watched) : Occurrence → Option Watched
  | .add fd d err => if s.registry.closed then none else some (s.add fd d err)
  | .remove fd d => some (s.remove fd d)
  | .event fd events =>
    match s.registry.pollers.lookup fd with
    | none => none
    | some p =>
      if s.registry.closed = false ∧ s.uv.watchers fd = some (.poll p.poll) then
        some { s with registry := s.registry.onPoll p events }
      else none
  | .error fd =>
    match s.registry.pollers.lookup fd with
    | none => none
    | some p =>
      if s.registry.closed = false ∧ s.uv.watchers fd = some (.poll p.poll) then
        some (s.onPollError fd p)
      else none
  | .run => (machine.step s.registry .run).map fun r => { s with registry := r }
  | .close fds => (machine.step s.registry (.close fds)).map fun r => { s with registry := r }
  | .next =>
    match s.registry.todo with
    | [] => none
    | a :: todo =>
      let r := { s.registry with todo }
      some ⟨r.act a, s.uv.act r a⟩
  | .init k fd => some { s with uv := s.uv.ioInit (.other k) fd }
  | .start k events => some { s with uv := s.uv.ioStart (.other k) events }
  | .stop k events => some { s with uv := s.uv.ioStop (.other k) events }
  | .submit w => some { s with uv := s.uv.submit w }

end Watched

/-- A new loop, and everything that can happen to it. -/
def watched : Machine Watched Occurrence where
  init := ⟨machine.init, fun _ => none, fun _ => ⟨0, 0, 0⟩⟩
  step := Watched.step

/-- Nothing has changed for the callbacks, and the cache of a descriptor is right. -/
structure Unchanged (fd : Fd) (s s' : State) : Prop where
  /-- What was registered still is, and is not cancelled. -/
  kept : ∀ h, s.Registered h → s'.Registered h ∧ s'.cancelled h = false
  /-- What is registered was so before. -/
  new : ∀ h, s'.Registered h → s.Registered h
  /-- The cache is what libuv polls for. -/
  cache : ∀ p, s'.pollers.lookup fd = some p → p.events = (s'.polls p.poll).polling

/-! ## Who calls `uv_poll_start` -/

@[simp]
theorem failures_rearm_true : (s.rearm fd p true).failures = s.failures := by
  rw [State.rearm]
  split
  · rfl
  split <;> rfl

@[simp]
theorem failures_schedule (x : Option ℕ) : (s.schedule x).failures = s.failures := by
  obtain ⟨ready, acquired, heq⟩ := schedule_eq (s := s) x
  rw [heq]

theorem failures_add_true : (s.add fd d true).failures = s.failures := by
  cases hl : s.pollers.lookup fd with
  | none =>
    rw [State.add_of_none hl, failures_rearm_true, State.get_of_none (by exact hl)]
    rfl
  | some p =>
    cases hd : p.slot d with
    | none =>
      rw [State.add_of_some hl hd, failures_rearm_true]
      rfl
    | some old =>
      rw [State.add_of_superseded hl hd, State.push, failures_rearm_true]
      rfl

theorem failures_remove_true : (s.remove fd d true).failures = s.failures := by
  cases hl : s.pollers.lookup fd with
  | none => simp only [State.remove, hl]
  | some p =>
    cases hd : p.slot d with
    | none => simp only [State.remove, hl, hd]
    | some x =>
      rw [State.remove_of_some hl hd, State.push, failures_rearm_true]
      rfl

theorem failures_onPoll (events : Events) : (s.onPoll p events).failures = s.failures := by
  rw [State.onPoll]
  split <;> split <;> simp

theorem failures_runReady (rest : List ℕ) : (s.runReady h rest).failures = s.failures := by
  simp only [State.runReady]
  split <;> rfl

theorem failures_act (a : Action) : (s.act a).failures = s.failures := by
  cases a with
  | release h => rfl
  | cancelRelease h => rfl
  | destroyAll fds =>
    cases fds with
    | nil => rfl
    | cons fd fds =>
      rw [State.act]
      split <;> rfl

/-- A step in which `uv_poll_start` does not fail. -/
theorem failures_of_started (hok : Started s l) (hstep : machine.step s l = some s') :
    s'.failures = s.failures := by
  cases l with
  | add fd d ok =>
    obtain ⟨-, rfl⟩ := step_add hstep
    obtain rfl : ok = true := hok
    exact failures_add_true
  | remove fd d ok =>
    obtain ⟨⟩ := hstep
    obtain rfl : ok = true := hok
    exact failures_remove_true
  | event fd events =>
    obtain ⟨p, -, -, rfl⟩ := step_event hstep
    exact failures_onPoll events
  | error fd ok =>
    obtain ⟨p, -, -, rfl⟩ := step_error hstep
    obtain rfl : ok = true := hok
    simp [State.onPollError, State.setPoll]
  | run =>
    obtain ⟨x, rest, -, -, rfl⟩ := step_run hstep
    exact failures_runReady rest
  | close fds =>
    obtain ⟨-, ⟨⟩⟩ := Option.ite_none_right_eq_some.mp hstep
    rfl
  | next =>
    obtain ⟨a, todo, -, rfl⟩ := step_next hstep
    exact failures_act a

/-! ## Who has the entries -/

/-- The poll handle of a poller that has handles has the entry of its descriptor, and waits for what
is in the cache. -/
def Owned (s : State) (uv : Uv) : Prop :=
  ∀ fd p, s.pollers.lookup fd = some p → p.interest ≠ .none → uv.Holds fd p.poll p.events

section Owned

variable {uv uv' : Uv} {e : Events} {i j : ℕ}

/-- What happens to one poll handle leaves the others alone. -/
theorem Uv.Holds.beside (hq : uv.Holds g j e) (hfd : (uv.io (.poll i)).fd = fd) (hg : g ≠ fd)
    (hu : Uv.Beside fd i uv uv') : uv'.Holds g j e := by
  have hj : Io.poll j ≠ .poll i := by
    rintro heq
    rw [← heq] at hfd
    exact hg (hq.desc.symm.trans hfd)
  refine ⟨?_, ?_, ?_⟩
  · rw [hu.io _ hj]
    exact hq.desc
  · rw [hu.watchers g hg]
    exact hq.entry
  · rw [hu.io _ hj]
    exact hq.pevents

/-- `rearm` starts a poll handle if nobody else can have the entry of its descriptor. -/
theorem Uv.Free.rearm (hfree : uv.Free fd p.poll)
    (hsame : p.interest = p.events → p.interest ≠ .none → uv.Holds fd p.poll p.events) :
    ∃ uv', uv.rearm p = .ok uv' ∧ Uv.Beside fd p.poll uv uv' ∧
      (p.interest ≠ .none → uv'.Holds fd p.poll p.interest) := by
  rw [Uv.rearm]
  split
  · rename_i heq
    refine ⟨uv, rfl, .refl, fun hne => ?_⟩
    rw [heq]
    exact hsame heq hne
  split
  · rename_i hnone
    exact ⟨_, rfl, hfree.pollStop.2.2, fun hne => absurd hnone hne⟩
  · rename_i hne
    obtain ⟨uv', hstart, hholds, hbeside⟩ := hfree.pollStart hne
    exact ⟨uv', hstart, hbeside, fun _ => hholds⟩

/-- A function of the registry goes through, and leaves every poller with its entry, if it comes to
`rearm` with every other poller in that state. -/
theorem owned_rearm {t : State} {f : Bool → State} (hfree : uv.Free fd p.poll)
    (hsame : p.interest = p.events → p.interest ≠ .none → uv.Holds fd p.poll p.events)
    (hp : p.interest = .none → p.events ≠ .none)
    (hother : ∀ g q, g ≠ fd → t.pollers.lookup g = some q → q.interest ≠ .none →
      uv.Holds g q.poll q.events)
    (hf : (f true).pollers = (t.rearm fd p true).pollers) :
    ∃ uv', Watched.rearm uv p f = ⟨f true, uv'⟩ ∧ Owned (f true) uv' := by
  obtain ⟨uv', hok, hbeside, hself⟩ := hfree.rearm hsame
  refine ⟨uv', by rw [Watched.rearm, hok], fun g q hq hne => ?_⟩
  rw [hf] at hq
  by_cases hg : g = fd
  · subst hg
    rw [lookup_rearm hp] at hq
    split at hq
    · cases hq
    · rename_i hpne
      obtain rfl := Option.some.inj hq
      exact hself hpne
  · rw [lookup_rearm_ne hg] at hq
    exact (hother g q hg hq hne).beside hfree.desc hg hbeside

end Owned

/-- What a step of the registry and the table is for the registry: nothing, or a step in which
`uv_poll_start` does not fail. -/
def Follows (s s' : State) : Prop := s' = s ∨ ∃ l, Started s l ∧ machine.step s l = some s'

/-- What holds after a step. -/
structure Owned.After (s : State) (w : Watched) : Prop where
  owned : Owned w.registry w.uv
  follows : Follows s w.registry

section Functions

variable {w w' : Watched}

namespace Owned

/-- `uv_poll_init` refuses the descriptor, or the poller gets its entry. -/
theorem add (ho : Owned w.registry w.uv) (hi : Inv w.registry) (hc : w.registry.closed = false)
    (err : ℤ) : Owned.After w.registry (w.add fd d err) := by
  have hfollows : Follows w.registry (w.registry.add fd d true) := by
    refine .inr ⟨.add fd d true, rfl, ?_⟩
    simp [machine, step, hc]
  cases hl : w.registry.pollers.lookup fd with
  | none =>
    have hget : w.uv.get w.registry fd err = w.uv.pollInit w.registry.nextPoll fd err := by
      simp only [Uv.get, hl]
    rcases w.uv.pollInit_cases w.registry.nextPoll fd err with ⟨err', herr⟩ | ⟨hexists, hinit⟩
    · rw [Watched.add, hget, herr]
      exact ⟨ho, .inl rfl⟩
    have hne : (Poller.setSlot ⟨w.registry.nextPoll, none, none, .none⟩ d
        (some w.registry.nextHandle)).interest ≠ .none :=
      Poller.interest_ne_none Poller.slot_setSlot_self
    have hfree : (w.uv.ioInit (.poll w.registry.nextPoll) fd).Free fd
        (Poller.setSlot ⟨w.registry.nextPoll, none, none, .none⟩ d
          (some w.registry.nextHandle)).poll := by
      rw [Poller.poll_setSlot]
      exact Uv.free_ioInit hexists
    -- the new poll handle is no other poller's
    have hother : ∀ g q, g ≠ fd → ((w.registry.create fd d).get fd).2.pollers.lookup g = some q →
        q.interest ≠ .none →
          (w.uv.ioInit (.poll w.registry.nextPoll) fd).Holds g q.poll q.events := by
      intro g q _ hq hqne
      rw [State.get_of_none (by exact hl)] at hq
      have hlt := (hi.ok g q hq).lt
      have hpoll : Io.poll q.poll ≠ .poll w.registry.nextPoll := by
        intro h
        exact Nat.ne_of_lt hlt (Io.poll.inj h)
      have hold := ho g q hq hqne
      have hbeside : Uv.Beside fd w.registry.nextPoll w.uv
          (w.uv.ioInit (.poll w.registry.nextPoll) fd) := Uv.beside_ioInit
      have hio := hbeside.io _ hpoll
      exact ⟨hio ▸ hold.desc, hold.entry, hio ▸ hold.pevents⟩
    obtain ⟨uv', heq, howned⟩ := owned_rearm (f := w.registry.add fd d) hfree
      (fun hsame => absurd (hsame.trans Poller.events_setSlot) hne)
      (fun hnone => absurd hnone hne) hother (by rw [State.add_of_none hl])
    rw [Watched.add, hget, hinit]
    dsimp only
    rw [State.get_of_none hl, heq]
    exact ⟨howned, hfollows⟩
  | some p =>
    have hget : w.uv.get w.registry fd err = .ok w.uv := by simp only [Uv.get, hl]
    have hne := hi.live hc fd p hl
    have hholds := ho fd p hl hne
    have hne' : (p.setSlot d (some w.registry.nextHandle)).interest ≠ .none :=
      Poller.interest_ne_none Poller.slot_setSlot_self
    have hpollers : ∃ t : State, t.pollers = w.registry.pollers ∧
        (w.registry.add fd d true).pollers =
          (t.rearm fd (p.setSlot d (some w.registry.nextHandle)) true).pollers := by
      cases hd : p.slot d with
      | none => exact ⟨w.registry.create fd d, rfl, by rw [State.add_of_some hl hd]⟩
      | some old =>
        exact ⟨(w.registry.create fd d).cancel old, rfl, by
          rw [State.add_of_superseded hl hd, State.push]⟩
    obtain ⟨t, ht, hadd⟩ := hpollers
    have hfree : w.uv.Free fd (p.setSlot d (some w.registry.nextHandle)).poll := by
      rw [Poller.poll_setSlot]
      exact hholds.free
    obtain ⟨uv', heq, howned⟩ := owned_rearm (f := w.registry.add fd d) (t := t) hfree
      (fun _ _ => by rwa [Poller.poll_setSlot, Poller.events_setSlot])
      (fun hnone => absurd hnone hne') (fun g q _ hq hqne => ho g q (ht ▸ hq) hqne) hadd
    rw [Watched.add, hget]
    dsimp only
    rw [State.get_of_some hl, heq]
    exact ⟨howned, hfollows⟩

/-- A poller that has lost its last handle leaves the map, any other keeps its entry. -/
theorem remove (ho : Owned w.registry w.uv) (hi : Inv w.registry) :
    Owned.After w.registry (w.remove fd d) := by
  have hfollows : Follows w.registry (w.registry.remove fd d true) :=
    .inr ⟨.remove fd d true, rfl, rfl⟩
  cases hl : w.registry.pollers.lookup fd with
  | none =>
    simp only [Watched.remove, hl]
    exact ⟨ho, .inl rfl⟩
  | some p =>
    cases hd : p.slot d with
    | none =>
      simp only [Watched.remove, hl, hd]
      exact ⟨ho, .inl rfl⟩
    | some x =>
      have hne := Poller.interest_ne_none hd
      have hholds := ho fd p hl hne
      have hfree : w.uv.Free fd (p.setSlot d none).poll := by
        rw [Poller.poll_setSlot]
        exact hholds.free
      obtain ⟨uv', heq, howned⟩ := owned_rearm (f := w.registry.remove fd d)
        (t := w.registry.cancel x) hfree
        (fun _ _ => by rwa [Poller.poll_setSlot, Poller.events_setSlot])
        (fun _ => by rwa [Poller.events_setSlot, (hi.ok fd p hl).events hne])
        (fun g q _ hq hqne => ho g q hq hqne) (by rw [State.remove_of_some hl hd, State.push])
      simp only [Watched.remove, hl, hd]
      rw [heq]
      exact ⟨howned, hfollows⟩

/-- After an error the poll handle is started again before anybody else comes to the table. -/
theorem onPollError (ho : Owned w.registry w.uv) (hi : Inv w.registry)
    (hw : Polled w.registry) (hc : w.registry.closed = false)
    (hl : w.registry.pollers.lookup fd = some p) :
    Owned.After w.registry (w.onPollError fd p) := by
  have hne := hi.live hc fd p hl
  have hne' : Poller.interest { p with events := .none } ≠ .none := hne
  have hfollows : Follows w.registry (w.registry.onPollError fd p true) := by
    refine .inr ⟨.error fd true, rfl, ?_⟩
    have hpolling : (w.registry.polls p.poll).polling ≠ .none := by
      rw [(hw fd p hl hne).2, (hi.ok fd p hl).events hne]
      exact hne
    simp [machine, step, hl, hc, hpolling]
  have hholds := ho fd p hl hne
  obtain ⟨hentry, hio, hbeside⟩ := hholds.free.pollStop
  have hfree : (w.uv.pollStop p.poll).Free fd p.poll :=
    ⟨by rw [hio], .inl hentry, by rw [hio]; exact Uv.mask_and_not_all .none⟩
  have hother : ∀ g q, g ≠ fd →
      (((w.registry.setPoll p.poll { w.registry.polls p.poll with
        polling := .none }).schedule p.reader).schedule p.writer).pollers.lookup g = some q →
        q.interest ≠ .none → (w.uv.pollStop p.poll).Holds g q.poll q.events := by
    intro g q hg hq hqne
    rw [pollers_schedule, pollers_schedule] at hq
    exact (ho g q hq hqne).beside hholds.desc hg hbeside
  obtain ⟨uv', heq, howned⟩ := owned_rearm (f := w.registry.onPollError fd p)
    (p := { p with events := .none }) hfree (fun hsame => absurd hsame hne')
    (fun hnone => absurd hnone hne') hother rfl
  have hstop : w.uv.ioStop (.poll p.poll) pollAll = w.uv.pollStop p.poll := rfl
  rw [Watched.onPollError, hstop, heq]
  exact ⟨howned, hfollows⟩

/-- `closeAll` closes one poll handle after the other. -/
theorem act (ho : Owned w.registry w.uv) (hi : Inv w.registry) {a : Action} {todo : List Action}
    (ht : w.registry.todo = a :: todo) :
    Owned ({ w.registry with todo }.act a) (w.uv.act { w.registry with todo } a) := by
  cases a with
  | release h => exact ho
  | cancelRelease h => exact ho
  | destroyAll fds =>
    cases fds with
    | nil => exact fun fd p hl => absurd hl (by simp [State.act])
    | cons fd fds =>
      rw [State.act, Uv.act]
      dsimp only
      cases hl : w.registry.pollers.lookup fd with
      | none =>
        simp only [State.push, hl]
        exact ho
      | some p =>
        simp only [State.push, hl]
        have hne : p.interest ≠ .none :=
          ((hi.visiting ht).2.2.2 fd p hl).mp List.mem_cons_self
        have hholds := ho fd p hl hne
        intro g q hq hqne
        by_cases hg : g = fd
        · subst hg
          obtain rfl := Option.some.inj ((AList.lookup_insert _).symm.trans hq)
          exact absurd rfl hqne
        · have hq : w.registry.pollers.lookup g = some q :=
            (AList.lookup_insert_ne hg).symm.trans hq
          exact (ho g q hq hqne).beside hholds.desc hg hholds.free.pollStop.2.2

/-- What others do with their watchers takes no entry away. -/
theorem elsewhere {uv : Uv} (ho : Owned w.registry w.uv) (hu : Uv.Elsewhere w.uv uv) :
    Owned.After w.registry { w with uv } :=
  ⟨fun fd p hl hne => (ho fd p hl hne).elsewhere hu, .inl rfl⟩

/-- Every step keeps it. -/
theorem step {o : Occurrence} (ho : Owned w.registry w.uv)
    (hr : machine.Reachable Started w.registry) (hstep : watched.step w o = some w') :
    Owned.After w.registry w' := by
  have hi := inv_of_reachable hr
  have hw := polled_of_reachable hr
  cases o with
  | add fd d err =>
    obtain ⟨hc, ⟨⟩⟩ := Option.ite_none_left_eq_some.mp hstep
    exact ho.add hi (by simpa using hc) err
  | remove fd d =>
    obtain ⟨⟩ := hstep
    exact ho.remove hi
  | event fd events =>
    simp only [watched, Watched.step] at hstep
    split at hstep
    · cases hstep
    · rename_i p hl
      obtain ⟨⟨hc, -⟩, ⟨⟩⟩ := Option.ite_none_right_eq_some.mp hstep
      have hpollers : (w.registry.onPoll p events).pollers = w.registry.pollers := by
        rw [State.onPoll]
        split <;> split <;> simp [pollers_schedule]
      refine ⟨fun g q hq hqne => ho g q (hpollers ▸ hq) hqne, .inr ⟨.event fd events, trivial, ?_⟩⟩
      have hne := hi.live hc fd p hl
      have hpolling : (w.registry.polls p.poll).polling ≠ .none := by
        rw [(hw fd p hl hne).2, (hi.ok fd p hl).events hne]
        exact hne
      simp [machine, Polling.step, hl, hc, hpolling]
  | error fd =>
    simp only [watched, Watched.step] at hstep
    split at hstep
    · cases hstep
    · rename_i p hl
      obtain ⟨⟨hc, -⟩, ⟨⟩⟩ := Option.ite_none_right_eq_some.mp hstep
      exact ho.onPollError hi hw hc hl
  | run =>
    obtain ⟨r, hrun, rfl⟩ := Option.map_eq_some_iff.mp hstep
    obtain ⟨x, rest, -, -, rfl⟩ := step_run hrun
    have hpollers : (w.registry.runReady x rest).pollers = w.registry.pollers := by
      simp only [State.runReady]
      split <;> rfl
    exact ⟨fun g q hq hqne => ho g q (hpollers ▸ hq) hqne, .inr ⟨.run, trivial, hrun⟩⟩
  | close fds =>
    obtain ⟨r, hclose, rfl⟩ := Option.map_eq_some_iff.mp hstep
    refine ⟨?_, .inr ⟨.close fds, trivial, hclose⟩⟩
    obtain ⟨-, ⟨⟩⟩ := Option.ite_none_right_eq_some.mp hclose
    exact ho
  | next =>
    simp only [watched, Watched.step] at hstep
    split at hstep
    · cases hstep
    · rename_i a todo ht
      obtain ⟨⟩ := hstep
      refine ⟨ho.act hi ht, .inr ⟨.next, trivial, ?_⟩⟩
      simp only [machine, Polling.step, ht]
  | init k fd =>
    obtain ⟨⟩ := hstep
    exact ho.elsewhere Uv.elsewhere_ioInit
  | start k events =>
    obtain ⟨⟩ := hstep
    exact ho.elsewhere Uv.elsewhere_ioStart
  | stop k events =>
    obtain ⟨⟩ := hstep
    exact ho.elsewhere Uv.elsewhere_ioStop
  | submit x =>
    obtain ⟨⟩ := hstep
    exact ho.elsewhere Uv.elsewhere_submit

end Owned

/-- Over libuv's table the registry does what it does when every `uv_poll_start` succeeds, and every
poller with a handle has the entry of its descriptor. -/
theorem refines_registry {ok : Watched → Occurrence → Prop} (h : watched.Reachable ok w) :
    machine.Reachable Started w.registry ∧ Owned w.registry w.uv := by
  refine h.invariant (I := fun w => machine.Reachable Started w.registry ∧ Owned w.registry w.uv)
    ⟨.init, fun fd p hl => absurd hl (by simp [watched, machine])⟩ ?_
  rintro w w' o - ⟨hr, ho⟩ - hstep
  obtain ⟨howned, hsame | ⟨l, hl, hfollows⟩⟩ := ho.step hr hstep
  · rw [hsame] at howned ⊢
    exact ⟨hr, howned⟩
  · exact ⟨hr.step l hl hfollows, howned⟩

end Functions

/-! ## A failed start -/

/-- Whatever is called and whatever libuv reports, whoever else watches the same descriptors: no
`uv_poll_start` fails, so that whatever follows from a failed one is the case; and the cache of a
poller with handles is what is registered, and what libuv polls its descriptor for. -/
theorem failed_start_changes_nothing {w w' : Watched} {o : Occurrence}
    {ok : Watched → Occurrence → Prop} (h : watched.Reachable ok w)
    (hstep : watched.step w o = some w') :
    w'.registry.failures = w.registry.failures ∧
    (w'.registry.failures ≠ w.registry.failures → ∀ fd, o.descriptor = some fd →
      Unchanged fd w.registry w'.registry) ∧
    ∀ fd p, w'.registry.pollers.lookup fd = some p → p.interest ≠ .none →
      p.events = p.interest ∧ (w'.registry.polls p.poll).polling = p.interest ∧
        w'.uv.watchers fd = some (.poll p.poll) ∧
        (w'.uv.io (.poll p.poll)).pevents = p.interest.mask := by
  obtain ⟨hr, ho⟩ := refines_registry h
  obtain ⟨howned, hfollows⟩ := ho.step hr hstep
  have hfailures : w'.registry.failures = w.registry.failures := by
    rcases hfollows with hsame | ⟨l, hl, hfollows⟩
    · rw [hsame]
    · exact failures_of_started hl hfollows
  refine ⟨hfailures, fun hne => absurd hfailures hne, fun fd p hl hne => ?_⟩
  have hr' : machine.Reachable Started w'.registry := by
    rcases hfollows with hsame | ⟨l, hok, hfollows⟩
    · rwa [hsame]
    · exact hr.step l hok hfollows
  have hevents := ((inv_of_reachable hr').ok fd p hl).events hne
  have hholds := howned fd p hl hne
  exact ⟨hevents, (polled_of_reachable hr' fd p hl hne).2.trans hevents, hholds.entry,
    hevents ▸ hholds.pevents⟩

/-- A stream comes to the descriptor of a poller, an error stops the poll handle, and it is started
again. -/
theorem failed_start_changes_nothing_error : ∃ w w' : Watched,
    watched.play (fun _ _ => True) [.add 3 .reader 0, .init 0 3, .start 0 pollIn] watched.init =
      some w ∧ watched.step w (.error 3) = some w' ∧
    w'.registry.failures = 0 ∧ w'.uv.watchers 3 = some (.poll 0) := by
  obtain ⟨w, w', hw, hw', hf, hl⟩ : ∃ w w' : Watched,
      watched.play (fun _ _ => True) [.add 3 .reader 0, .init 0 3, .start 0 pollIn] watched.init =
        some w ∧ watched.step w (.error 3) = some w' ∧ w.registry.failures = 0 ∧
      w'.registry.pollers.lookup 3 = some ⟨0, some 0, none, ⟨true, false⟩⟩ :=
    ⟨_, _, rfl, rfl, rfl, rfl⟩
  obtain ⟨hfailures, -, hpolled⟩ :=
    failed_start_changes_nothing (Machine.Reachable.init.play hw) hw'
  exact ⟨w, w', hw, hw', hfailures.trans hf, (hpolled 3 _ hl (by decide)).2.2.1⟩

end Zuvloop.Polling
