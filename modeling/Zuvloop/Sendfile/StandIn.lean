import Mathlib.Data.List.Basic
import Zuvloop.Transition

/-!
# The stand-in protocol of `sendfile`

`_SendfileProtocol` of `zuvloop/_sendfile.py`: the protocol that a transport has while `sendfile`
owns its stream. The transport tells it when to pause and to resume writing and when the connection
is lost, the task of `sendfile` waits for it in `drain`, and `restore` puts the original protocol
back. A step is what runs without an `await`.

The transport calls `pause_writing` when it is not paused and `resume_writing` when it is, whatever
its water marks are, and nothing after `connection_lost`. The task may be cancelled wherever it
waits. What it waits on is cancelled at once; the task unwinds, and calls `restore`, one turn later.

## Main definitions

* `State.pauseWriting`, `State.resumeWriting`, `State.connectionLost`, `State.drain`,
  `State.restore`: the methods.
* `machine`: what transport, task and canceller do, in any order.
* `believes`: what the original protocol believes of the transport from the calls it has seen.

## Main results

* `callbacks_quiet`: no callback raises, unless `resume_writing` is called on a waiter that was
  cancelled; and `drain` is always released.
* `belief_restored`: after `restore` the original protocol believes what is the case, unless the
  transport was paused during `sendfile` only and still is.
-/

namespace Zuvloop.Sendfile

open Transition

/-! ## State -/

/-- The state of a future. -/
inductive Fut
  | pending
  | finished
  | failed
  | cancelled
  deriving DecidableEq

/-- What a protocol is told. -/
inductive Told
  | pauseWriting
  | resumeWriting
  | connectionLost
  deriving DecidableEq

/-- The transport, as far as `sendfile` asks. -/
structure Transport where
  /-- `_protocol_paused` -/
  paused : Bool
  /-- `is_reading()` -/
  reading : Bool
  /-- `is_closing()` -/
  closing : Bool
  /-- `connection_lost` has been called. -/
  lost : Bool
  deriving DecidableEq

/-- `_SendfileProtocol` -/
structure StandIn where
  /-- `_should_resume_reading` -/
  shouldResumeReading : Bool
  /-- `_should_resume_writing` -/
  shouldResumeWriting : Bool
  /-- `_waiter` -/
  waiter : Option ℕ
  deriving DecidableEq

/-- Where the task of `sendfile` is. -/
inductive Task
  /-- There is none. -/
  | idle
  /-- Between calls of `drain`, or at an `await` of something else. -/
  | running
  /-- It awaits a waiter in `drain`. -/
  | draining (f : ℕ)
  /-- An exception takes it to `restore`. -/
  | unwinding
  deriving DecidableEq

/-- A transport with its original protocol, and a stand-in while there is one. -/
structure State where
  transport : Transport
  /-- The stand-in, while it is the protocol of the transport. -/
  standIn : Option StandIn
  /-- Every waiter so far. -/
  futures : List Fut
  task : Task
  /-- The task was cancelled when its waiter was done. -/
  mustCancel : Bool
  /-- What the original protocol has been told. -/
  told : List Told
  /-- The callbacks of the stand-in that raised an exception. -/
  raised : List Told
  deriving DecidableEq

/-- A future that nobody has created is pending. -/
def State.future (s : State) (f : ℕ) : Fut := s.futures.getD f .pending

/-! ## Methods -/

/-- `__init__` -/
def State.install (s : State) : State :=
  { s with
    transport := { s.transport with reading := false }
    standIn := some ⟨s.transport.reading, s.transport.paused,
      if s.transport.paused then some s.futures.length else none⟩
    futures := if s.transport.paused then s.futures ++ [.pending] else s.futures
    task := .running
    mustCancel := false }

/-- `connection_lost`, of whichever protocol the transport has. -/
def State.connectionLost (s : State) : State :=
  let s : State := match s.standIn.bind StandIn.waiter with
    | some f => if s.future f = .pending then { s with futures := s.futures.set f .failed } else s
    | none => s
  -- a stand-in passes it on
  { s with told := s.told ++ [.connectionLost] }

/-- `pause_writing`, of whichever protocol the transport has. -/
def State.pauseWriting (s : State) : State :=
  match s.standIn with
  | none => { s with told := s.told ++ [.pauseWriting] }
  | some p =>
    match p.waiter with
    | none =>
      { s with
        standIn := some { p with waiter := some s.futures.length }
        futures := s.futures ++ [.pending] }
    | some _ => s

/-- `resume_writing`, of whichever protocol the transport has. `set_result` raises
`InvalidStateError` on a waiter that is done. -/
def State.resumeWriting (s : State) : State :=
  match s.standIn with
  | none => { s with told := s.told ++ [.resumeWriting] }
  | some p =>
    match p.waiter with
    | none => s
    | some f =>
      if s.future f = .pending then
        { s with standIn := some { p with waiter := none }, futures := s.futures.set f .finished }
      else { s with raised := s.raised ++ [.resumeWriting] }

/-- `drain`, until it returns or awaits the waiter. A waiter that has failed fails it at once. -/
def State.drain (s : State) : State :=
  if s.transport.closing then { s with task := .unwinding }
  else
    match s.standIn.bind StandIn.waiter with
    | none => s
    | some f =>
      match s.future f with
      | .pending => { s with task := .draining f }
      | .finished => s
      | .failed | .cancelled => { s with task := .unwinding }

/-- `drain`, from where its waiter is done. -/
def State.wake (s : State) (f : ℕ) : State :=
  if s.future f = .finished ∧ s.mustCancel = false then { s with task := .running }
  else { s with task := .unwinding }

/-- `Task.cancel`, of a task in `drain`. -/
def State.cancel (s : State) (f : ℕ) : State :=
  if s.future f = .pending then { s with futures := s.futures.set f .cancelled }
  else { s with mustCancel := true }

/-- `restore` -/
def State.restore (s : State) (p : StandIn) : State :=
  let s : State := { s with
    standIn := none
    transport := { s.transport with reading := s.transport.reading || p.shouldResumeReading }
    futures := match p.waiter with
      | some f => if s.future f = .pending then s.futures.set f .cancelled else s.futures
      | none => s.futures
    task := .idle }
  if p.shouldResumeWriting ∧ s.transport.paused = false then
    { s with told := s.told ++ [.resumeWriting] }
  else s

/-! ## The machine -/

/-- What can happen next. -/
inductive Label
  /-- The transport calls `pause_writing`. -/
  | pauseWriting
  /-- The transport calls `resume_writing`. -/
  | resumeWriting
  /-- The transport begins to close. -/
  | close
  /-- The transport calls `connection_lost`. -/
  | connectionLost
  /-- `sendfile` creates the stand-in. -/
  | install
  /-- Its task calls `drain`. -/
  | drain
  /-- Its task is cancelled in `drain`. -/
  | cancel
  /-- Its task runs after its waiter is done. -/
  | wake
  /-- `sendfile` ends, in whatever way, and its task calls `restore`. -/
  | restore
  deriving DecidableEq

/-- One step. -/
def step (s : State) : Label → Option State
  | .pauseWriting =>
    if s.transport.paused = false ∧ s.transport.lost = false then
      some { s with transport := { s.transport with paused := true } }.pauseWriting
    else none
  | .resumeWriting =>
    if s.transport.paused = true ∧ s.transport.lost = false then
      some { s with transport := { s.transport with paused := false } }.resumeWriting
    else none
  | .close => some { s with transport := { s.transport with closing := true } }
  | .connectionLost =>
    if s.transport.lost = false then
      some { s with
        transport := { s.transport with closing := true, lost := true } }.connectionLost
    else none
  | .install =>
    -- `sendfile` refuses a transport that is closing
    if s.task = .idle ∧ s.transport.closing = false then some s.install else none
  | .drain => if s.task = .running then some s.drain else none
  | .cancel =>
    match s.task with
    | .draining f => some (s.cancel f)
    | _ => none
  | .wake =>
    match s.task with
    | .draining f => if s.future f = .pending then none else some (s.wake f)
    | _ => none
  | .restore =>
    if s.task = .running ∨ s.task = .unwinding then s.standIn.map s.restore else none

/-- An open transport that is not paused, and everything that can happen to it. -/
def machine : Machine State Label where
  init := ⟨⟨false, true, false, false⟩, none, [], .idle, false, [], []⟩
  step := step

/-- What the cancellation of a task does. -/
theorem step_cancel {s s' : State} (hstep : machine.step s .cancel = some s') :
    ∃ f, s.task = .draining f ∧ s' = s.cancel f := by
  simp only [machine, step] at hstep
  split at hstep
  · obtain ⟨⟩ := hstep
    exact ⟨_, ‹_›, rfl⟩
  · cases hstep

/-- When and how a task leaves `drain`. -/
theorem step_wake {s s' : State} (hstep : machine.step s .wake = some s') :
    ∃ f, s.task = .draining f ∧ s.future f ≠ .pending ∧ s' = s.wake f := by
  simp only [machine, step] at hstep
  split at hstep
  · obtain ⟨hf, ⟨⟩⟩ := Option.ite_none_left_eq_some.mp hstep
    exact ⟨_, ‹_›, hf, rfl⟩
  · cases hstep

/-! ## The waiter -/

/-- `_waiter`, of the stand-in there is. -/
def State.waiter (s : State) : Option ℕ := s.standIn.bind StandIn.waiter

/-- What holds of the waiter, whatever happens. -/
structure Inv (s : State) : Prop where
  /-- There is a stand-in while there is a task. -/
  installed : s.standIn = none ↔ s.task = .idle
  /-- The waiter has been created. -/
  created : ∀ f, s.waiter = some f → f < s.futures.length
  /-- What is awaited has been created. -/
  awaited : ∀ f, s.task = .draining f → f < s.futures.length
  /-- A task awaits the waiter of the stand-in, or a waiter that is done. -/
  current : ∀ f, s.task = .draining f → s.future f = .pending → s.waiter = some f
  /-- The waiter is given up when it is resolved. -/
  unresolved : ∀ f, s.waiter = some f → s.future f ≠ .finished
  /-- While the waiter is pending, the transport owes a call. -/
  owed : ∀ f, s.waiter = some f → s.future f = .pending →
    s.transport.paused = true ∧ s.transport.lost = false
  /-- Only the loss of the connection fails the waiter. -/
  failed : ∀ f, s.waiter = some f → s.future f = .failed → s.transport.lost = true
  /-- A lost connection is closing. -/
  closing : s.transport.lost = true → s.transport.closing = true

variable {s s' : State} {f : ℕ} {l : Label}

namespace Inv

theorem init : Inv machine.init := by
  constructor <;> simp [machine, State.waiter]

/-- A waiter that `pause_writing` creates is owed a call. -/
theorem pauseWriting (h : Inv s) (hl : s.transport.lost = false) :
    Inv { s with transport := { s.transport with paused := true } }.pauseWriting := by
  obtain ⟨hinst, hcr, haw, hcur, hun, how, hfail, hcl⟩ := h
  rw [State.pauseWriting]
  split
  · constructor <;> simp_all [State.waiter, State.future]
  split
  · -- the new waiter is the last future
    constructor <;> grind [State.waiter, State.future]
  · constructor <;> simp_all [State.waiter, State.future]

/-- After `resume_writing` no pending waiter is left. -/
theorem resumeWriting (h : Inv s) :
    Inv { s with transport := { s.transport with paused := false } }.resumeWriting := by
  obtain ⟨hinst, hcr, haw, hcur, hun, how, hfail, hcl⟩ := h
  rw [State.resumeWriting]
  constructor <;> grind [State.waiter, State.future]

theorem close (h : Inv s) :
    Inv { s with transport := { s.transport with closing := true } } := by
  obtain ⟨hinst, hcr, haw, hcur, hun, how, hfail, hcl⟩ := h
  constructor <;> simp_all [State.waiter, State.future]

/-- After `connection_lost` no pending waiter is left. -/
theorem connectionLost (h : Inv s) :
    Inv { s with
      transport := { s.transport with closing := true, lost := true } }.connectionLost := by
  obtain ⟨hinst, hcr, haw, hcur, hun, how, hfail, hcl⟩ := h
  rw [State.connectionLost]
  constructor <;> grind [State.waiter, State.future]

/-- A stand-in has a waiter from the start if the transport is paused. -/
theorem install (h : Inv s) (hc : s.transport.closing = false) :
    Inv s.install := by
  obtain ⟨hinst, hcr, haw, hcur, hun, how, hfail, hcl⟩ := h
  rw [State.install]
  constructor <;> grind [State.waiter, State.future]

/-- What a task begins to await is the waiter. -/
theorem drain (h : Inv s) (ht : s.task = .running) : Inv s.drain := by
  obtain ⟨hinst, hcr, haw, hcur, hun, how, hfail, hcl⟩ := h
  rw [State.drain]
  constructor <;> grind [State.waiter, State.future]

/-- A cancelled waiter stays where it is. -/
theorem cancel (h : Inv s) (ht : s.task = .draining f) : Inv (s.cancel f) := by
  obtain ⟨hinst, hcr, haw, hcur, hun, how, hfail, hcl⟩ := h
  rw [State.cancel]
  constructor <;> grind [State.waiter, State.future]

theorem wake (h : Inv s) (ht : s.task = .draining f) : Inv (s.wake f) := by
  obtain ⟨hinst, hcr, haw, hcur, hun, how, hfail, hcl⟩ := h
  rw [State.wake]
  constructor <;> grind [State.waiter, State.future]

/-- No waiter is left without a stand-in. -/
theorem restore (h : Inv s) (p : StandIn) : Inv (s.restore p) := by
  obtain ⟨hinst, hcr, haw, hcur, hun, how, hfail, hcl⟩ := h
  rw [State.restore]
  constructor <;> grind [State.waiter, State.future]

/-- Every step keeps the invariant. -/
theorem step (h : Inv s) (hstep : machine.step s l = some s') : Inv s' := by
  cases l with
  | pauseWriting =>
    obtain ⟨hp, ⟨⟩⟩ := Option.ite_none_right_eq_some.mp hstep
    exact h.pauseWriting hp.2
  | resumeWriting =>
    obtain ⟨-, ⟨⟩⟩ := Option.ite_none_right_eq_some.mp hstep
    exact h.resumeWriting
  | close =>
    obtain ⟨⟩ := hstep
    exact h.close
  | connectionLost =>
    obtain ⟨-, ⟨⟩⟩ := Option.ite_none_right_eq_some.mp hstep
    exact h.connectionLost
  | install =>
    obtain ⟨hp, ⟨⟩⟩ := Option.ite_none_right_eq_some.mp hstep
    exact h.install hp.2
  | drain =>
    obtain ⟨ht, ⟨⟩⟩ := Option.ite_none_right_eq_some.mp hstep
    exact h.drain ht
  | cancel =>
    obtain ⟨f, ht, ⟨⟩⟩ := step_cancel hstep
    exact h.cancel ht
  | wake =>
    obtain ⟨f, ht, -, ⟨⟩⟩ := step_wake hstep
    exact h.wake ht
  | restore =>
    obtain ⟨-, hm⟩ := Option.ite_none_right_eq_some.mp hstep
    obtain ⟨p, -, ⟨⟩⟩ := Option.map_eq_some_iff.mp hm
    exact h.restore p

end Inv

/-- The invariant holds whatever happens. -/
theorem inv_of_reachable {ok : State → Label → Prop} (h : machine.Reachable ok s) : Inv s :=
  h.invariant Inv.init fun _ _ _ _ hi _ hstep => hi.step hstep

/-! ## What raises, and who is released -/

/-- No `resume_writing` between the cancellation of a task in `drain` and its `restore`. -/
def Timely (s : State) (l : Label) : Prop :=
  l = .resumeWriting → s.waiter.map s.future ≠ some .cancelled

instance : DecidableRel Timely := fun s l => by
  unfold Timely
  infer_instance

/-- A waiter that is neither pending nor cancelled has failed, and the transport calls nothing
any more. -/
theorem Inv.cancelled (h : Inv s) (hl : s.transport.lost = false) (hw : s.waiter = some f)
    (hf : s.future f ≠ .pending) : s.future f = .cancelled := by
  cases hx : s.future f with
  | pending => exact absurd hx hf
  | finished => exact absurd hx (h.unresolved f hw)
  | failed => simp [h.failed f hw hx] at hl
  | cancelled => rfl

/-! The methods leave the transport as it is, and only `resume_writing` raises. -/

@[simp]
theorem transport_pauseWriting : s.pauseWriting.transport = s.transport := by
  rw [State.pauseWriting]
  split
  · rfl
  split <;> rfl

@[simp]
theorem transport_resumeWriting : s.resumeWriting.transport = s.transport := by
  rw [State.resumeWriting]
  grind

@[simp]
theorem transport_connectionLost : s.connectionLost.transport = s.transport := by
  rw [State.connectionLost]
  grind

@[simp]
theorem transport_drain : s.drain.transport = s.transport := by
  rw [State.drain]
  grind

@[simp]
theorem transport_cancel : (s.cancel f).transport = s.transport := by
  rw [State.cancel]
  split <;> rfl

@[simp]
theorem transport_wake : (s.wake f).transport = s.transport := by
  rw [State.wake]
  split <;> rfl

@[simp]
theorem closing_restore (p : StandIn) :
    (s.restore p).transport.closing = s.transport.closing := by
  simp only [State.restore]
  split <;> rfl

@[simp]
theorem raised_pauseWriting : s.pauseWriting.raised = s.raised := by
  rw [State.pauseWriting]
  split
  · rfl
  split <;> rfl

@[simp]
theorem raised_connectionLost : s.connectionLost.raised = s.raised := by
  rw [State.connectionLost]
  grind

@[simp]
theorem raised_drain : s.drain.raised = s.raised := by
  rw [State.drain]
  grind

@[simp]
theorem raised_cancel : (s.cancel f).raised = s.raised := by
  rw [State.cancel]
  split <;> rfl

@[simp]
theorem raised_wake : (s.wake f).raised = s.raised := by
  rw [State.wake]
  split <;> rfl

@[simp]
theorem raised_restore (p : StandIn) : (s.restore p).raised = s.raised := by
  simp only [State.restore]
  split <;> rfl

/-- `resume_writing` raises on a waiter that is done. -/
theorem raised_resumeWriting :
    s.resumeWriting.raised = s.raised ↔ ∀ f, s.waiter = some f → s.future f = .pending := by
  rw [State.resumeWriting]
  cases hs : s.standIn with
  | none => simp [State.waiter, hs]
  | some p =>
    cases hw : p.waiter with
    | none => simp [State.waiter, hs, hw]
    | some f =>
      by_cases hf : s.future f = .pending <;> simp [State.waiter, hs, hw, hf]

/-- A step raises exactly if it is `resume_writing` of a cancelled waiter. -/
theorem raised_iff (h : Inv s) (hstep : machine.step s l = some s') :
    s'.raised = s.raised ↔ Timely s l := by
  cases l with
  | resumeWriting =>
    obtain ⟨⟨-, hl⟩, ⟨⟩⟩ := Option.ite_none_right_eq_some.mp hstep
    rw [raised_resumeWriting, Timely]
    constructor
    · rintro hpend - hcan
      obtain ⟨f, hw, hf⟩ := Option.map_eq_some_iff.mp hcan
      exact absurd (hf.symm.trans (hpend f hw)) (by decide)
    · intro hcan f hw
      by_contra hf
      exact hcan rfl (Option.map_eq_some_iff.mpr ⟨f, hw, h.cancelled hl hw hf⟩)
  | pauseWriting =>
    obtain ⟨-, ⟨⟩⟩ := Option.ite_none_right_eq_some.mp hstep
    simp [Timely]
  | close =>
    obtain ⟨⟩ := hstep
    simp [Timely]
  | connectionLost =>
    obtain ⟨-, ⟨⟩⟩ := Option.ite_none_right_eq_some.mp hstep
    simp [Timely]
  | install =>
    obtain ⟨-, ⟨⟩⟩ := Option.ite_none_right_eq_some.mp hstep
    simp [Timely, State.install]
  | drain =>
    obtain ⟨-, ⟨⟩⟩ := Option.ite_none_right_eq_some.mp hstep
    simp [Timely]
  | cancel =>
    obtain ⟨f, -, ⟨⟩⟩ := step_cancel hstep
    simp [Timely]
  | wake =>
    obtain ⟨f, -, -, ⟨⟩⟩ := step_wake hstep
    simp [Timely]
  | restore =>
    obtain ⟨-, hm⟩ := Option.ite_none_right_eq_some.mp hstep
    obtain ⟨p, -, ⟨⟩⟩ := Option.map_eq_some_iff.mp hm
    simp [Timely]

/-- Nothing has raised in a run of timely steps. -/
theorem raised_nil (h : machine.Reachable Timely s) : s.raised = [] := by
  refine h.invariant (I := fun s => s.raised = []) rfl fun s s' l hs hi hok hstep => ?_
  rw [(raised_iff (inv_of_reachable hs) hstep).mpr hok, hi]

/-- A future that has been changed, and the others. -/
theorem future_set {n : ℕ} (x : Fut) (hn : n < s.futures.length) (g : ℕ) :
    (s.futures.set n x).getD g .pending = if n = g then x else s.future g := by
  rw [State.future, List.getD_eq_getElem?_getD, List.getElem?_set, List.getD_eq_getElem?_getD]
  split
  · simp
  · rfl

/-- What the transport owes a task in `drain`, and a cancellation, make its waiter done. -/
theorem released (h : Inv s) (ht : s.task = .draining f) (hf : s.future f = .pending)
    (hl : l = .resumeWriting ∨ l = .connectionLost ∨ l = .cancel) :
    ∃ s', machine.step s l = some s' ∧ s'.future f ≠ .pending := by
  have hw := h.current f ht hf
  obtain ⟨hp, hlost⟩ := h.owed f hw hf
  obtain ⟨p, hs, hpw⟩ := Option.bind_eq_some_iff.mp hw
  have hlen := h.awaited f ht
  rcases hl with rfl | rfl | rfl
  · refine ⟨_, if_pos ⟨hp, hlost⟩, ?_⟩
    rw [State.resumeWriting]
    simp only [hs, hpw]
    rw [if_pos (by exact hf), State.future, future_set _ hlen]
    simp
  · refine ⟨_, if_pos hlost, ?_⟩
    simp only [State.connectionLost, hs, Option.bind_some, hpw]
    rw [if_pos (by exact hf), State.future, future_set _ hlen]
    simp
  · refine ⟨s.cancel f, by simp [machine, step, ht], ?_⟩
    rw [State.cancel, if_pos hf, State.future, future_set _ hlen]
    simp

/-- A task whose waiter is done leaves `drain`. -/
theorem leaves (ht : s.task = .draining f) (hf : s.future f ≠ .pending) :
    ∃ s', machine.step s .wake = some s' ∧ ∀ g, s'.task ≠ .draining g := by
  refine ⟨s.wake f, by simp [machine, step, ht, hf], ?_⟩
  rw [State.wake]
  split <;> simp

/-- While no `resume_writing` comes between the cancellation of a task in `drain` and `restore`, no
callback raises. A task in `drain` is waiting for a transport that is paused and not lost, is
released by `resume_writing`, by `connection_lost` and by its cancellation, and leaves `drain` when
it is released. -/
theorem callbacks_quiet (h : machine.Reachable Timely s) :
    s.raised = [] ∧
    ∀ f, s.task = .draining f →
      (s.future f = .pending →
        (s.transport.paused = true ∧ s.transport.lost = false) ∧
        ∀ l, l = .resumeWriting ∨ l = .connectionLost ∨ l = .cancel →
          ∃ s', machine.step s l = some s' ∧ s'.future f ≠ .pending) ∧
      (s.future f ≠ .pending →
        ∃ s', machine.step s .wake = some s' ∧ ∀ g, s'.task ≠ .draining g) := by
  have hi := inv_of_reachable h
  refine ⟨raised_nil h, fun f ht => ⟨fun hf => ⟨?_, fun l => released hi ht hf⟩, leaves ht⟩⟩
  exact hi.owed f (hi.current f ht hf) hf

/-- A transport is paused in `drain`, the task is cancelled, the transport resumes. -/
def cancelledInDrain : List Label := [.install, .pauseWriting, .drain, .cancel]

theorem callbacks_quiet_cancelled :
    ∃ s, machine.Reachable Timely s ∧ s.task = .draining 0 ∧ s.future 0 = .cancelled ∧
      s.raised = [] ∧ ∃ s', machine.step s .wake = some s' ∧ ∀ g, s'.task ≠ .draining g := by
  obtain ⟨s, hs⟩ : ∃ s, machine.play Timely cancelledInDrain machine.init = some s ∧
      s.task = .draining 0 ∧ s.future 0 = .cancelled := by
    refine ⟨_, rfl, rfl, rfl⟩
  have hr := Machine.Reachable.init.play hs.1
  have hq := callbacks_quiet hr
  exact ⟨s, hr, hs.2.1, hs.2.2, hq.1, (hq.2 0 hs.2.1).2 (by simp [hs.2.2])⟩

/-- A callback raises: `resume_writing`, on the waiter of a task that was cancelled. -/
theorem not_callbacks_quiet :
    ¬ ∀ s, machine.Reachable (fun _ _ => True) s → s.raised = [] := by
  intro h
  have hplay : ∃ s, machine.play (fun _ _ => True) (cancelledInDrain ++ [.resumeWriting])
      machine.init = some s ∧ s.raised = [.resumeWriting] := ⟨_, rfl, rfl⟩
  obtain ⟨s, hs, hraised⟩ := hplay
  simp [h s (Machine.Reachable.init.play hs)] at hraised

/-! ## What the original protocol believes -/

/-- What a protocol believes after a call: the loss of the connection says nothing of pausing. -/
def Told.believed (b : Bool) : Told → Bool
  | .pauseWriting => true
  | .resumeWriting => false
  | .connectionLost => b

/-- What a protocol that has been told this believes: that its transport is paused, or not. -/
def believes (told : List Told) : Bool := told.foldl Told.believed false

/-- Every `resume_writing` follows a `pause_writing`. -/
def Matched (told : List Told) : Prop :=
  ∀ before after, told = before ++ .resumeWriting :: after → believes before = true

@[simp]
theorem believes_append (told : List Told) (t : Told) :
    believes (told ++ [t]) = t.believed (believes told) := by
  simp [believes]

/-- One more call. -/
theorem matched_append (told : List Told) (t : Told) :
    Matched (told ++ [t]) ↔ Matched told ∧ (t = .resumeWriting → believes told = true) := by
  constructor
  · intro h
    refine ⟨fun before after heq => h before (after ++ [t]) (by simp [heq]), ?_⟩
    rintro rfl
    exact h told [] rfl
  · rintro ⟨h, ht⟩ before after heq
    rcases List.eq_nil_or_concat after with rfl | ⟨after, x, rfl⟩
    · obtain ⟨rfl, hx⟩ := List.append_inj' heq rfl
      exact ht (by simpa using hx)
    · rw [List.concat_eq_append, ← List.cons_append, ← List.append_assoc] at heq
      exact h before after (List.append_inj' heq rfl).1

/-- `restore` finds an open transport paused only if it was paused when the stand-in came. -/
def Replayed (s : State) (l : Label) : Prop :=
  l = .restore → s.transport.closing = false → s.transport.paused = true →
    s.standIn.map StandIn.shouldResumeWriting = some true

instance : DecidableRel Replayed := fun s l => by
  unfold Replayed
  infer_instance

/-- What the original protocol believes while the transport is open: what is the case when it is
the protocol of the transport, and what was the case when it was replaced otherwise. -/
structure Belief (s : State) : Prop where
  original : s.standIn = none → believes s.told = s.transport.paused
  replaced : ∀ p, s.standIn = some p → believes s.told = p.shouldResumeWriting
  matched : Matched s.told

namespace Belief

/-- The transport pauses. -/
theorem pauseWriting (h : Belief s) :
    Belief { s with transport := { s.transport with paused := true } }.pauseWriting := by
  rw [State.pauseWriting]
  cases hs : s.standIn with
  | none => constructor <;> simp [Told.believed, matched_append, h.matched]
  | some p =>
    have hb := h.replaced p hs
    cases hw : p.waiter <;> constructor <;> simp [hw, hb, h.matched]

/-- The transport resumes. -/
theorem resumeWriting (h : Belief s) (hp : s.transport.paused = true) :
    Belief { s with transport := { s.transport with paused := false } }.resumeWriting := by
  rw [State.resumeWriting]
  cases hs : s.standIn with
  | none =>
    constructor <;> simp [Told.believed, matched_append, h.matched, h.original hs, hp]
  | some p =>
    have hb := h.replaced p hs
    cases hw : p.waiter with
    | none => constructor <;> simp [hw, hb, h.matched]
    | some f =>
      simp only [hw]
      split <;> constructor <;> simp [hb, h.matched]

/-- `sendfile` begins: what is believed is remembered. -/
theorem install (h : Belief s) (hs : s.standIn = none) : Belief s.install := by
  constructor <;> simp [State.install, h.original hs, h.matched]

theorem drain (h : Belief s) : Belief s.drain := by
  rw [State.drain]
  obtain ⟨ho, hr, hm⟩ := h
  constructor <;> grind

theorem cancel (h : Belief s) : Belief (s.cancel f) := by
  rw [State.cancel]
  split <;> exact ⟨h.original, h.replaced, h.matched⟩

theorem wake (h : Belief s) : Belief (s.wake f) := by
  rw [State.wake]
  split <;> exact ⟨h.original, h.replaced, h.matched⟩

/-- What is remembered is replayed. -/
theorem restore (h : Belief s) {p : StandIn} (hs : s.standIn = some p)
    (hok : s.transport.paused = true → p.shouldResumeWriting = true) : Belief (s.restore p) := by
  have hb := h.replaced p hs
  simp only [State.restore]
  split
  · rename_i hr
    constructor <;> simp [Told.believed, matched_append, h.matched, hb, hr]
  · rename_i hr
    refine ⟨fun _ => ?_, by simp, h.matched⟩
    -- it was paused at the start exactly if it is paused now
    cases hp : s.transport.paused with
    | true => simp [hb, hok hp]
    | false => simp_all

end Belief

/-- A step that meets the condition keeps the belief of an open transport. -/
theorem belief_step (hi : Inv s) (h : s.transport.closing = false → Belief s) (hok : Replayed s l)
    (hstep : machine.step s l = some s') (hc : s'.transport.closing = false) : Belief s' := by
  cases l with
  | pauseWriting =>
    obtain ⟨-, ⟨⟩⟩ := Option.ite_none_right_eq_some.mp hstep
    exact (h (by simpa using hc)).pauseWriting
  | resumeWriting =>
    obtain ⟨hp, ⟨⟩⟩ := Option.ite_none_right_eq_some.mp hstep
    exact (h (by simpa using hc)).resumeWriting hp.1
  | close =>
    obtain ⟨⟩ := hstep
    cases hc
  | connectionLost =>
    obtain ⟨-, ⟨⟩⟩ := Option.ite_none_right_eq_some.mp hstep
    simp at hc
  | install =>
    obtain ⟨hp, ⟨⟩⟩ := Option.ite_none_right_eq_some.mp hstep
    exact (h hp.2).install (hi.installed.mpr hp.1)
  | drain =>
    obtain ⟨-, ⟨⟩⟩ := Option.ite_none_right_eq_some.mp hstep
    exact (h (by simpa using hc)).drain
  | cancel =>
    obtain ⟨f, -, ⟨⟩⟩ := step_cancel hstep
    exact (h (by simpa using hc)).cancel
  | wake =>
    obtain ⟨f, -, -, ⟨⟩⟩ := step_wake hstep
    exact (h (by simpa using hc)).wake
  | restore =>
    obtain ⟨-, hm⟩ := Option.ite_none_right_eq_some.mp hstep
    obtain ⟨p, hs, ⟨⟩⟩ := Option.map_eq_some_iff.mp hm
    have hc : s.transport.closing = false := by simpa using hc
    refine (h hc).restore hs fun hp => ?_
    simpa [hs] using hok rfl hc hp

/-- If `restore` finds an open transport paused only where it was paused at the start, then after
it the original protocol believes what is the case, and it is never told to resume writing without
having been told to pause. -/
theorem belief_restored (h : machine.Reachable Replayed s) (hc : s.transport.closing = false) :
    (s.task = .idle → believes s.told = s.transport.paused) ∧ Matched s.told := by
  have hb : Belief s := by
    refine h.invariant (I := fun s => s.transport.closing = false → Belief s) (fun _ => ?_)
      (fun s s' l hs hi hok hstep => belief_step (inv_of_reachable hs) hi hok hstep) hc
    refine ⟨fun _ => rfl, by simp [machine], fun before after heq => ?_⟩
    simp [machine] at heq
  exact ⟨fun ht => hb.original ((inv_of_reachable h).installed.mpr ht), hb.matched⟩

theorem belief_restored_paused :
    ∃ s, machine.Reachable Replayed s ∧ s.task = .idle ∧ believes s.told = true ∧
      s.transport.paused = true := by
  obtain ⟨s, hs⟩ : ∃ s, machine.play Replayed [.pauseWriting, .install, .drain, .cancel, .wake,
      .restore] machine.init = some s ∧ s.task = .idle ∧ s.transport.paused = true ∧
      s.transport.closing = false := ⟨_, rfl, rfl, rfl, rfl⟩
  have hr := Machine.Reachable.init.play hs.1
  have hb := belief_restored hr hs.2.2.2
  exact ⟨s, hr, hs.2.1, (hb.1 hs.2.1).trans hs.2.2.1, hs.2.2.1⟩

/-- The transport is paused during `sendfile` and still is when it ends: the original protocol does
not know, and is told to resume what it never paused. -/
theorem not_belief_restored :
    ¬ ∀ s, machine.Reachable (fun _ _ => True) s → s.transport.closing = false →
      (s.task = .idle → believes s.told = s.transport.paused) ∧ Matched s.told := by
  intro h
  obtain ⟨s, hs⟩ : ∃ s, machine.play (fun _ _ => True) [.install, .pauseWriting, .restore]
      machine.init = some s ∧ s.task = .idle ∧ s.transport.closing = false ∧
      s.transport.paused = true ∧ s.told = [] := ⟨_, rfl, rfl, rfl, rfl, rfl⟩
  have hb := (h s (Machine.Reachable.init.play hs.1) hs.2.2.1).1 hs.2.1
  simp [hs.2.2.2, believes] at hb

end Zuvloop.Sendfile
