import Zuvloop.Loop.State
import Zuvloop.Reentrant.Machine

/-!
# Reserved capacity of the ready queue

`pushAssumeCapacity` asserts that there is room, and in a release build overwrites the first handle
if there is none. Two functions call it: `drainThreadsafe` of `zig/loop.zig`, which drops the
reference of `threadsafe_candidate` between reserving and pushing, and `makeTransport` of
`zig/transport.zig`. Dropping a last reference runs finalizers, which may schedule callbacks.

The programs of this module are those that touch the ready queue, the inbox or the candidate.
Handles have reference counts, and Python code runs wherever an object is created or a last
reference is dropped. Allocations fail as they like. Python code that clears a loop as garbage
(`tp_clear`) is left out, and so is untracking a candidate, which keeps the references.

## Main definitions

* `Ready.Op`, `Ready.runAll`: sequences of operations on a ring buffer.
* `State`, `system`, `env`: the ready queue, the inbox and the candidate, and what may happen.
* `Inv`: the candidate is the last handle of the inbox, and every reference is counted.

## Main results

* `ready_refines_fifo`: a ring buffer is a list appended to at the tail and popped at the front, and
  no assertion of `pushAssumeCapacity` fails.
-/

namespace Zuvloop

/-! ## Sequences of operations on a ring buffer -/

namespace Ready

variable {α : Type}

/-- An operation; `alloc` says whether an allocation succeeds. -/
inductive Op (α : Type) where
  /-- `push`. -/
  | push (alloc : Bool) (item : α)
  /-- `pop`. -/
  | pop
  /-- `ensureUnusedCapacity`. -/
  | ensureUnusedCapacity (alloc : Bool) (additional : ℕ)
  /-- `pushAssumeCapacity`. -/
  | pushAssumeCapacity (item : α)

/-- What an operation returns. -/
inductive Out (α : Type) where
  /-- Nothing. -/
  | done
  /-- `error.OutOfMemory`. -/
  | outOfMemory
  /-- An optional item. -/
  | item (x : Option α)

/-- Perform an operation; `none` if the assertion of `pushAssumeCapacity` fails. -/
def exec (r : Ready α) : Op α → Option (Out α × Ready α)
  | .push alloc item =>
    match r.push alloc item with
    | some r' => some (.done, r')
    | none => some (.outOfMemory, r)
  | .pop => some (.item r.pop.1, r.pop.2)
  | .ensureUnusedCapacity alloc additional =>
    match r.ensureUnusedCapacity alloc additional with
    | some r' => some (.done, r')
    | none => some (.outOfMemory, r)
  | .pushAssumeCapacity item =>
    if r.len < r.cap then some (.done, r.pushAssumeCapacity item) else none

/-- Perform operations one after the other. -/
def runAll : List (Op α) → Ready α → Option (List (Out α) × Ready α)
  | [], r => some ([], r)
  | op :: ops, r =>
    (r.exec op).bind fun x => (runAll ops x.2).map fun y => (x.1 :: y.1, y.2)

/-- What an operation may do to a list: append at the tail, pop at the front, or, if its allocation
fails, nothing. -/
def Fifo : Op α → List α → Out α → List α → Prop
  | .push alloc item, l, out, l' =>
    out = .done ∧ l' = l ++ [item] ∨ out = .outOfMemory ∧ alloc = false ∧ l' = l
  | .pop, l, out, l' => out = .item l.head? ∧ l' = l.tail
  | .ensureUnusedCapacity alloc _, l, out, l' =>
    (out = .done ∨ out = .outOfMemory ∧ alloc = false) ∧ l' = l
  | .pushAssumeCapacity item, l, out, l' => out = .done ∧ l' = l ++ [item]

/-- What operations may do to a list, one after the other. -/
def FifoRun : List (Op α) → List α → List (Out α) → List α → Prop
  | [], l, outs, l' => outs = [] ∧ l' = l
  | op :: ops, l, outs, l' => ∃ out outs' l₁, outs = out :: outs' ∧ Fifo op l out l₁ ∧
      FifoRun ops l₁ outs' l'

theorem ensureUnusedCapacity_some {r r' : Ready α} {alloc : Bool} {additional : ℕ} (h : r.WF)
    (hr : r.ensureUnusedCapacity alloc additional = some r') :
    r'.WF ∧ r'.toList = r.toList ∧ r'.len = r.len ∧ r.len + additional ≤ r'.cap := by
  have hspec := ensureUnusedCapacity_spec alloc h additional
  rw [hr] at hspec
  exact hspec

theorem ensureUnusedCapacity_none {r : Ready α} {alloc : Bool} {additional : ℕ} (h : r.WF)
    (hr : r.ensureUnusedCapacity alloc additional = none) : alloc = false := by
  have hspec := ensureUnusedCapacity_spec alloc h additional
  rw [hr] at hspec
  exact hspec

/-- One operation keeps the ring well formed, and does to the list of its handles what it may. -/
theorem exec_spec {r r' : Ready α} {op : Op α} {out : Out α} (h : r.WF)
    (hexec : r.exec op = some (out, r')) : r'.WF ∧ Fifo op r.toList out r'.toList := by
  cases op with
  | push alloc item =>
    rw [exec, push] at hexec
    cases hensure : r.ensureUnusedCapacity alloc 1 with
    | none =>
      rw [hensure] at hexec
      obtain ⟨rfl, rfl⟩ := Prod.mk.inj (Option.some.inj hexec)
      exact ⟨h, .inr ⟨rfl, ensureUnusedCapacity_none h hensure, rfl⟩⟩
    | some r₁ =>
      rw [hensure] at hexec
      obtain ⟨rfl, rfl⟩ := Prod.mk.inj (Option.some.inj hexec)
      obtain ⟨hwf, hlist, hlen, hcap⟩ := ensureUnusedCapacity_some h hensure
      obtain ⟨hwf', hlist'⟩ := pushAssumeCapacity_spec hwf (by omega) item
      exact ⟨hwf', .inl ⟨rfl, hlist'.trans (by rw [hlist])⟩⟩
  | pop =>
    obtain ⟨rfl, rfl⟩ := Prod.mk.inj (Option.some.inj hexec)
    obtain ⟨hwf, hhead, htail⟩ := pop_spec h
    exact ⟨hwf, congrArg Out.item hhead, htail⟩
  | ensureUnusedCapacity alloc additional =>
    rw [exec] at hexec
    cases hensure : r.ensureUnusedCapacity alloc additional with
    | none =>
      rw [hensure] at hexec
      obtain ⟨rfl, rfl⟩ := Prod.mk.inj (Option.some.inj hexec)
      exact ⟨h, .inr ⟨rfl, ensureUnusedCapacity_none h hensure⟩, rfl⟩
    | some r₁ =>
      rw [hensure] at hexec
      obtain ⟨rfl, rfl⟩ := Prod.mk.inj (Option.some.inj hexec)
      obtain ⟨hwf, hlist, -, -⟩ := ensureUnusedCapacity_some h hensure
      exact ⟨hwf, .inl rfl, hlist⟩
  | pushAssumeCapacity item =>
    rw [exec] at hexec
    split at hexec
    · next hroom =>
      obtain ⟨rfl, rfl⟩ := Prod.mk.inj (Option.some.inj hexec)
      obtain ⟨hwf, hlist⟩ := pushAssumeCapacity_spec h hroom item
      exact ⟨hwf, rfl, hlist⟩
    · cases hexec

/-- So do several operations. -/
theorem runAll_spec {ops : List (Op α)} {r r' : Ready α} {outs : List (Out α)} (h : r.WF)
    (hrun : runAll ops r = some (outs, r')) : r'.WF ∧ FifoRun ops r.toList outs r'.toList := by
  induction ops generalizing r outs with
  | nil =>
    obtain ⟨rfl, rfl⟩ := Prod.mk.inj (Option.some.inj hrun)
    exact ⟨h, rfl, rfl⟩
  | cons op ops ih =>
    obtain ⟨⟨out, r₁⟩, hexec, hrest⟩ := Option.bind_eq_some_iff.mp hrun
    obtain ⟨⟨outs', r₂⟩, htail, heq⟩ := Option.map_eq_some_iff.mp hrest
    obtain ⟨rfl, rfl⟩ := Prod.mk.inj heq
    obtain ⟨hwf, hfifo⟩ := exec_spec h hexec
    obtain ⟨hwf', hrun'⟩ := ih hwf htail
    exact ⟨hwf', out, outs', r₁.toList, rfl, hfifo, hrun'⟩

end Ready

namespace Loop.Reservation

open Reentrant

/-! ## The state -/

/-- The queues of the loop and the references to its handles. Handles are numbered in the order
they are created. -/
structure State where
  /-- The ready queue. -/
  ready : Queue ℕ
  /-- The inbox of `call_soon_threadsafe`. -/
  threadsafeReady : Queue ℕ
  /-- The last handle of the inbox, as long as nothing has shown that only the inbox holds it. -/
  threadsafeCandidate : Option ℕ
  /-- The reference count of a handle. -/
  refs : ℕ → ℕ
  /-- The references to a handle that Python code holds. -/
  python : ℕ → ℕ
  /-- The number of the next handle. -/
  fresh : ℕ
  /-- The loop has been closed. -/
  closed : Bool
  /-- An assertion of the source failed. -/
  panicked : Bool

namespace State

/-- A loop that has just been created. -/
def init : State :=
  { ready := .empty, threadsafeReady := .empty, threadsafeCandidate := none, refs := fun _ => 0,
    python := fun _ => 0, fresh := 0, closed := false, panicked := false }

/-- Create a handle, with one reference. -/
def create (s : State) : State :=
  { s with refs := Function.update s.refs s.fresh 1, fresh := s.fresh + 1 }

/-- `Py_INCREF`. -/
def incref (s : State) (h : ℕ) : State :=
  { s with refs := Function.update s.refs h (s.refs h + 1) }

/-- `Py_DECREF`, without what follows when the last reference is gone. -/
def dropRef (s : State) (h : ℕ) : State :=
  { s with refs := Function.update s.refs h (s.refs h - 1) }

/-- Python code comes to hold a reference that native code held. -/
def handOver (s : State) (h : ℕ) : State :=
  { s with python := Function.update s.python h (s.python h + 1) }

/-- Python code gives up a reference. -/
def takeOver (s : State) (h : ℕ) : State :=
  { s with python := Function.update s.python h (s.python h - 1) }

/-- Replace the ready queue. -/
def setReady (s : State) (ready : Queue ℕ) : State := { s with ready }

/-- Replace the inbox. -/
def setInbox (s : State) (threadsafeReady : Queue ℕ) : State := { s with threadsafeReady }

/-- Replace the candidate. -/
def setCandidate (s : State) (threadsafeCandidate : Option ℕ) : State :=
  { s with threadsafeCandidate }

/-- Mark the loop as closed. -/
def close (s : State) : State := { s with closed := true }

/-- Abort on a failed assertion. -/
def panic (s : State) : State := { s with panicked := true }

end State

/-! ## The signature -/

/-- Questions. -/
inductive Request where
  /-- Is there memory for an allocation? -/
  | alloc
  /-- Do `uv_tcp_init` and `uv_tcp_open`, or `uv_pipe_init` and `uv_pipe_open`, succeed? -/
  | adopt
deriving DecidableEq

/-- Python code. -/
inductive Callback where
  /-- Finalizers of what a reference was the last one to, or of garbage that an allocation had
  collected. -/
  | finalizer
  /-- The attributes of the protocol. -/
  | attributes
  /-- The callback of a handle. -/
  | callback (h : ℕ)
deriving DecidableEq

/-- The loops over queues that Python code may change meanwhile. -/
inductive Proc where
  /-- `deinit` of the ready queue, from the `i`-th handle on. -/
  | deinitReady (i : ℕ)
  /-- `deinit` of the inbox, from the `i`-th handle on. -/
  | deinitInbox (i : ℕ)

/-- The entry points. -/
inductive Op where
  /-- `call_soon`. -/
  | callSoon
  /-- `call_soon_threadsafe`. -/
  | callSoonThreadsafe
  /-- The async handle's callback. -/
  | onWake
  /-- A batch of the ready queue. -/
  | runReady
  /-- `_make_transport`, which queues `connection_made` and as many other callbacks. -/
  | makeTransport (others : ℕ)
  /-- A timer, a poller, a process or a transport queues a handle. -/
  | schedule
  /-- `_make_datagram_transport` and `_spawn` make room for a handle. -/
  | reserve
  /-- `close` of the loop. -/
  | close
  /-- Python code copies a reference to a handle. -/
  | hold (h : ℕ)
  /-- Python code drops a reference to a handle. -/
  | drop (h : ℕ)
deriving DecidableEq

/-- The signature of the programs. -/
abbrev sig : Signature where
  State := State
  Request := Request
  Answer := Bool
  Callback := Callback
  Result := Unit
  Proc := Proc
  Op := Op

/-- A program. -/
abbrev P (α : Type) : Type := Prog sig α

/-! ## The programs -/

/-- The state. -/
def getState : P State := Prog.read

/-- Change the state. -/
def update (f : State → State) : P Unit := Prog.modify f

/-- Whether an allocation succeeds. -/
def alloc : P Bool := Prog.request (S := sig) .alloc

/-- Run Python code. -/
def python (c : Callback) : P Unit := Prog.foreign (S := sig) c

/-- `Py_DECREF`. -/
def decref (h : ℕ) : P Unit := do
  update fun s => s.dropRef h
  let s ← getState
  if s.refs h = 0 then python .finalizer

/-- Drop several references. -/
def decrefAll : List ℕ → P Unit
  | [] => return
  | h :: hs => do
    decref h
    decrefAll hs

/-- Create a handle. The allocation may collect garbage. -/
def create : P (Option ℕ) := do
  python .finalizer
  let ok ← alloc
  if ok then
    let s ← getState
    update State.create
    return some s.fresh
  else return none

/-- Create several handles, or none. -/
def createAll : ℕ → List ℕ → P (Option (List ℕ))
  | 0, hs => return some hs
  | n + 1, hs => do
    match ← create with
    | some h => createAll n (hs ++ [h])
    | none =>
      decrefAll hs
      return none

/-- `clearThreadsafeCandidate`. -/
def clearThreadsafeCandidate : P Unit := do
  let s ← getState
  match s.threadsafeCandidate with
  | none => return
  | some candidate =>
    update fun s => s.setCandidate none
    decref candidate

/-- `drainThreadsafe`; whether there was memory. -/
def drainThreadsafe : P Bool := do
  let s ← getState
  let ok ← alloc
  match s.ready.ensureUnusedCapacity ok s.threadsafeReady.len with
  | none => return false
  | some ready =>
    update fun s => s.setReady ready
    clearThreadsafeCandidate
    let s ← getState
    match Loop.State.drainLoop s.threadsafeReady.len s.ready s.threadsafeReady with
    | none => update State.panic
    | some (ready, inbox) => update fun s => (s.setReady ready).setInbox inbox
    return true

/-- Append a handle whose reference the queue takes over; whether there was memory. -/
def push (h : ℕ) : P Bool := do
  let s ← getState
  let ok ← alloc
  match s.ready.push ok h with
  | none => return false
  | some ready =>
    update fun s => s.setReady ready
    return true

/-- Append a handle to a queue that has room for it. -/
def pushAssumeCapacity (h : ℕ) : P Unit := do
  let s ← getState
  match s.ready.pushAssumeCapacity h with
  | none => update State.panic
  | some ready => update fun s => s.setReady ready

/-- Append several. -/
def pushAll : List ℕ → P Unit
  | [] => return
  | h :: hs => do
    pushAssumeCapacity h
    pushAll hs

/-- `call_soon`. -/
def callSoon : P Unit := do
  match ← create with
  | none => return
  | some h =>
    let s ← getState
    if s.closed then decref h
    else
      let drained ← drainThreadsafe
      if !drained then decref h
      else
        update fun s => s.incref h
        let pushed ← push h
        if pushed then update fun s => s.handOver h
        else
          decref h
          decref h

/-- `call_soon_threadsafe`. -/
def callSoonThreadsafe : P Unit := do
  let s ← getState
  if s.closed then return
  clearThreadsafeCandidate
  match ← create with
  | none => return
  | some h =>
    update fun s => s.incref h
    let s ← getState
    let ok ← alloc
    match s.threadsafeReady.push ok h with
    | none =>
      decref h
      decref h
    | some inbox =>
      update fun s => s.setInbox inbox
      update fun s => s.incref h
      update fun s => s.setCandidate (some h)
      update fun s => s.handOver h

/-- `onWake`. Running out of memory is fatal, which does not touch the queues. -/
def onWake : P Unit := do
  let _ ← drainThreadsafe
  return

/-- The loop of `runReady`. -/
def runReadyLoop : ℕ → P Unit
  | 0 => return
  | remaining + 1 => do
    let s ← getState
    match s.ready.pop with
    | (none, _) => return
    | (some h, ready) =>
      update fun s => s.setReady ready
      python (.callback h)
      decref h
      runReadyLoop remaining

/-- `runReady`. -/
def runReady : P Unit := do
  let s ← getState
  runReadyLoop s.ready.len

/-- `makeTransport`, as far as the ready queue is concerned. -/
def makeTransport (others : ℕ) : P Unit := do
  let s ← getState
  if s.closed then return
  python .attributes
  match ← createAll (1 + others) [] with
  | none => return
  | some hs =>
    let s ← getState
    let ok ← alloc
    match s.ready.ensureUnusedCapacity ok hs.length with
    | none => decrefAll hs
    | some ready =>
      update fun s => s.setReady ready
      let adopted ← Prog.request (S := sig) .adopt
      if adopted then pushAll hs
      else decrefAll hs

/-- Queue a handle for native code. -/
def schedule : P Unit := do
  let s ← getState
  if s.closed then return
  match ← create with
  | none => return
  | some h =>
    let pushed ← push h
    if !pushed then decref h

/-- Make room for a handle. -/
def reserve : P Unit := do
  let s ← getState
  if s.closed then return
  let ok ← alloc
  match s.ready.ensureUnusedCapacity ok 1 with
  | none => return
  | some ready => update fun s => s.setReady ready

/-- The loop of `deinit`, and what follows it. -/
def deinitBody (queue : State → Queue ℕ) (clear : State → State) (next : ℕ → Proc) (i : ℕ) :
    P Unit := do
  let s ← getState
  match (queue s).toList[i]? with
  | some h =>
    decref h
    Prog.invoke (S := sig) (next (i + 1))
  | none => update clear

/-- `close` of the loop, as far as the queues are concerned. -/
def close : P Unit := do
  let s ← getState
  if s.closed then return
  update State.close
  clearThreadsafeCandidate
  Prog.invoke (S := sig) (.deinitReady 0)
  Prog.invoke (S := sig) (.deinitInbox 0)

/-- Python code copies a reference. -/
def hold (h : ℕ) : P Unit := update fun s => (s.incref h).handOver h

/-- Python code drops a reference. -/
def drop (h : ℕ) : P Unit := do
  update fun s => s.takeOver h
  decref h

/-- The procedures. -/
def body : Proc → P Unit
  | .deinitReady i => deinitBody State.ready (fun s => s.setReady .empty) .deinitReady i
  | .deinitInbox i => deinitBody State.threadsafeReady (fun s => s.setInbox .empty) .deinitInbox i

/-- The entry points. -/
def entry : Op → P Unit
  | .callSoon => callSoon
  | .callSoonThreadsafe => callSoonThreadsafe
  | .onWake => onWake
  | .runReady => runReady
  | .makeTransport others => makeTransport others
  | .schedule => schedule
  | .reserve => reserve
  | .close => close
  | .hold h => hold h
  | .drop h => drop h

/-- The system. -/
def system : System sig where
  body := body
  entry := entry
  init := State.init

/-- libuv calls back only while the loop is open, and Python code copies and drops only references
that it holds. -/
def Startable (s : State) : Op → Prop
  | .onWake | .runReady => s.closed = false
  | .hold h | .drop h => 0 < s.python h
  | _ => True

/-- Everything outside: allocations fail as they like, and Python code calls whatever it likes. -/
def env : Env sig where
  answers := fun _ _ _ => True
  returns := fun _ _ _ => True
  starts := fun _ s op => Startable s op

instance (s : State) (op : Op) : Decidable (Startable s op) :=
  match op with
  | .onWake | .runReady => inferInstanceAs (Decidable (s.closed = false))
  | .hold h | .drop h => inferInstanceAs (Decidable (0 < s.python h))
  | .callSoon | .callSoonThreadsafe | .makeTransport _ | .schedule | .reserve | .close =>
    .isTrue trivial

instance (c : Config sig) (l : Label sig) : Decidable (env.Allows c l) :=
  match l with
  | .tau => .isTrue trivial
  | .answer _ =>
    match h : c.running with
    | some (.ask _ _) => .isTrue (by simp [Env.Allows, env, h])
    | some (.ret _) | some (.get _) | some (.set _ _) | some (.yield _ _) | some (.call _ _)
    | none => .isFalse (by simp [Env.Allows, h])
  | .start op => inferInstanceAs (Decidable (Startable c.state op))
  | .resume _ =>
    match h : c.stack with
    | _ :: _ => .isTrue (by simp [Env.Allows, env, h])
    | [] => .isFalse (by simp [Env.Allows, h])

/-! ## The invariant -/

/-- The references to a handle that the queues, the candidate and Python code hold. -/
def State.owned (s : State) (h : ℕ) : ℕ :=
  s.ready.toList.count h + s.threadsafeReady.toList.count h +
    s.threadsafeCandidate.toList.count h + s.python h

/-- What holds as long as the loop is open. -/
structure Counted (s : State) : Prop where
  /-- Every reference is counted. -/
  counted : ∀ h, s.owned h ≤ s.refs h
  /-- Handles that have not been created are not referred to. -/
  unborn : ∀ h, s.fresh ≤ h → s.owned h = 0
  /-- The candidate is the last handle of the inbox. -/
  last : ∀ h, s.threadsafeCandidate = some h → s.threadsafeReady.toList.getLast? = some h

/-- What holds whenever Python code runs. -/
structure Inv (s : State) : Prop where
  /-- No assertion failed. -/
  sound : s.panicked = false
  /-- References are counted as long as the loop is open. -/
  counted : s.closed = false → Counted s

/-- What Python code leaves as it is: it does not give up references that native code holds. -/
structure Rely (s s' : State) : Prop where
  /-- A closed loop stays closed. -/
  closed : s.closed = true → s'.closed = true
  /-- Handles do not disappear. -/
  fresh : s.fresh ≤ s'.fresh
  /-- References that are held by nobody else are still there. -/
  slack : s'.closed = false → ∀ h < s.fresh, ∀ k, s.owned h + k ≤ s.refs h →
    s'.owned h + k ≤ s'.refs h

theorem Rely.refl (s : State) : Rely s s := ⟨id, Nat.le_refl _, fun _ _ _ _ h => h⟩

theorem Rely.trans {s₁ s₂ s₃ : State} (h₁ : Rely s₁ s₂) (h₂ : Rely s₂ s₃) : Rely s₁ s₃ where
  closed := fun h => h₂.closed (h₁.closed h)
  fresh := Nat.le_trans h₁.fresh h₂.fresh
  slack := fun hopen h hh k hk => by
    have hopen₂ : s₂.closed = false := by
      by_contra hclosed
      exact absurd (h₂.closed (Bool.not_eq_false _ ▸ hclosed)) (by simp [hopen])
    exact h₂.slack hopen h (Nat.lt_of_lt_of_le hh h₁.fresh) k (h₁.slack hopen₂ h hh k hk)

/-! ## Accounting -/

/-- The books of an open loop, while native code that started in `s` holds the references `hs`. -/
structure Books (hs : List ℕ) (s s' : State) : Prop where
  /-- Every reference is counted. -/
  counted : ∀ g, s'.owned g + hs.count g ≤ s'.refs g
  /-- Handles that have not been created are not referred to. -/
  unborn : ∀ g, s'.fresh ≤ g → s'.owned g + hs.count g = 0
  /-- The candidate is the last handle of the inbox. -/
  last : ∀ g, s'.threadsafeCandidate = some g → s'.threadsafeReady.toList.getLast? = some g
  /-- References that were held by nobody else are still there. -/
  slack : ∀ g < s.fresh, ∀ k, s.owned g + k ≤ s.refs g → s'.owned g + (k + hs.count g) ≤ s'.refs g

/-- What holds while native code that started in `s` is in `s'` and holds the references `hs`. -/
structure Holds (hs : List ℕ) (s s' : State) : Prop where
  /-- No assertion failed. -/
  sound : s'.panicked = false
  /-- A closed loop stays closed. -/
  closed : s.closed = true → s'.closed = true
  /-- Handles do not disappear. -/
  fresh : s.fresh ≤ s'.fresh
  /-- The books of an open loop. -/
  books : s'.closed = false → Books hs s s'

section Accounting

variable {hs hs' : List ℕ} {s s₁ s₂ : State} {h : ℕ}

theorem Holds.start (hinv : Inv s) : Holds [] s s where
  sound := hinv.sound
  closed := id
  fresh := Nat.le_refl _
  books := fun hopen =>
    { counted := (hinv.counted hopen).counted
      unborn := (hinv.counted hopen).unborn
      last := (hinv.counted hopen).last
      slack := fun _ _ _ hk => hk }

theorem Holds.inv (hh : Holds hs s s₁) : Inv s₁ where
  sound := hh.sound
  counted := fun hopen =>
    { counted := fun g => Nat.le_trans (Nat.le_add_right _ _) ((hh.books hopen).counted g)
      unborn := fun g hg => Nat.eq_zero_of_add_eq_zero_right ((hh.books hopen).unborn g hg)
      last := (hh.books hopen).last }

theorem Holds.rely (hh : Holds hs s s₁) : Rely s s₁ where
  closed := hh.closed
  fresh := hh.fresh
  slack := fun hopen g hg k hk =>
    Nat.le_trans (Nat.add_le_add_left (Nat.le_add_right _ _) _) ((hh.books hopen).slack g hg k hk)

/-- Python code runs. -/
theorem Holds.yield (hh : Holds hs s s₁) (hrely : Rely s₁ s₂) (hinv : Inv s₂) :
    Holds hs s s₂ where
  sound := hinv.sound
  closed := fun hclosed => hrely.closed (hh.closed hclosed)
  fresh := Nat.le_trans hh.fresh hrely.fresh
  books := fun hopen => by
    have hopen₁ : s₁.closed = false := by
      by_contra hclosed
      exact absurd (hrely.closed (Bool.not_eq_false _ ▸ hclosed)) (by simp [hopen])
    have hbooks := hh.books hopen₁
    have hcounted := hinv.counted hopen
    have hborn : ∀ g, hs.count g ≠ 0 → g < s₁.fresh := fun g hg => by
      by_contra hle
      exact hg (Nat.eq_zero_of_add_eq_zero_left (hbooks.unborn g (Nat.le_of_not_lt hle)))
    refine ⟨fun g => ?_, fun g hg => ?_, hcounted.last, fun g hg k hk => ?_⟩
    · by_cases hg : hs.count g = 0
      · rw [hg]
        exact hcounted.counted g
      · exact hrely.slack hopen g (hborn g hg) _ (hbooks.counted g)
    · have hnone : hs.count g = 0 := by
        by_contra hne
        exact absurd (hborn g hne) (Nat.not_lt.mpr (Nat.le_trans hrely.fresh hg))
      rw [hnone, hcounted.unborn g hg]
    · exact hrely.slack hopen g (Nat.lt_of_lt_of_le hg hh.fresh) _ (hbooks.slack g hg k hk)

/-- References move between the queues, the candidate, Python code and native code, and are copied
and dropped. -/
theorem Holds.move (hh : Holds hs s s₁) (hpanicked : s₂.panicked = s₁.panicked)
    (hclosed : s₂.closed = s₁.closed) (hfresh : s₂.fresh = s₁.fresh)
    (hbalance : s₁.closed = false →
      ∀ g, s₂.owned g + hs'.count g + s₁.refs g ≤ s₁.owned g + hs.count g + s₂.refs g)
    (hborn : s₁.closed = false →
      ∀ g, s₁.owned g + hs.count g = 0 → s₂.owned g + hs'.count g = 0)
    (hlast : s₁.closed = false → ∀ g, s₂.threadsafeCandidate = some g →
      s₂.threadsafeReady.toList.getLast? = some g) : Holds hs' s s₂ where
  sound := hpanicked.trans hh.sound
  closed := fun h => hclosed.trans (hh.closed h)
  fresh := hfresh ▸ hh.fresh
  books := fun hopen => by
    have hopen₁ := hclosed.symm.trans hopen
    have hbooks := hh.books hopen₁
    refine ⟨fun g => ?_, fun g hg => hborn hopen₁ g (hbooks.unborn g (hfresh ▸ hg)),
      hlast hopen₁, fun g hg k hk => ?_⟩
    · have hb := hbalance hopen₁ g
      have hc := hbooks.counted g
      omega
    · have hb := hbalance hopen₁ g
      have hk' := hbooks.slack g hg k hk
      omega

/-- A handle that native code holds, and one that is referred to, exists. -/
theorem Holds.count_ne_zero (h : ℕ) (hs : List ℕ) : (h :: hs).count h ≠ 0 := by
  rw [List.count_cons_self]
  exact Nat.succ_ne_zero _

theorem Holds.create (hh : Holds hs s s₁) : Holds (s₁.fresh :: hs) s s₁.create where
  sound := hh.sound
  closed := hh.closed
  fresh := Nat.le_succ_of_le hh.fresh
  books := fun hopen => by
    have hbooks := hh.books hopen
    have howned : ∀ g, s₁.create.owned g = s₁.owned g := fun _ => rfl
    have hrefs : ∀ g, g ≠ s₁.fresh → s₁.create.refs g = s₁.refs g :=
      fun g hg => Function.update_of_ne hg _ _
    have hself : s₁.create.refs s₁.fresh = 1 := Function.update_self _ _ _
    have hzero := hbooks.unborn s₁.fresh (Nat.le_refl _)
    refine ⟨fun g => ?_, fun g hg => ?_, hbooks.last, fun g hg k hk => ?_⟩
    · rcases eq_or_ne g s₁.fresh with rfl | hne
      · rw [howned, hself, List.count_cons_self]
        omega
      · rw [howned, hrefs g hne, List.count_cons_of_ne hne.symm]
        exact hbooks.counted g
    · have hlt : s₁.fresh < g := hg
      rw [howned, List.count_cons_of_ne hlt.ne]
      exact hbooks.unborn g hlt.le
    · have hlt : g < s₁.fresh := Nat.lt_of_lt_of_le hg hh.fresh
      rw [howned, hrefs g hlt.ne, List.count_cons_of_ne hlt.ne']
      exact hbooks.slack g hg k hk

/-- Native code copies a reference that it holds. -/
theorem Holds.incref (hh : Holds (h :: hs) s s₁) : Holds (h :: h :: hs) s (s₁.incref h) := by
  refine hh.move rfl rfl rfl (fun _ g => ?_) (fun _ g hg => ?_) fun hopen => (hh.books hopen).last
  · change s₁.owned g + _ + s₁.refs g ≤
      s₁.owned g + _ + Function.update s₁.refs h (s₁.refs h + 1) g
    rcases eq_or_ne g h with rfl | hne
    · rw [Function.update_self, List.count_cons_self, List.count_cons_self]
      omega
    · rw [Function.update_of_ne hne, List.count_cons_of_ne hne.symm]
  · change s₁.owned g + _ = 0
    rcases eq_or_ne g h with rfl | hne
    · exact absurd (Nat.eq_zero_of_add_eq_zero_left hg) (Holds.count_ne_zero g hs)
    · rwa [List.count_cons_of_ne hne.symm]

/-- Native code drops a reference that it holds. -/
theorem Holds.dropRef (hh : Holds (h :: hs) s s₁) : Holds hs s (s₁.dropRef h) := by
  refine hh.move rfl rfl rfl (fun hopen g => ?_) (fun _ g hg => ?_)
    fun hopen => (hh.books hopen).last
  · have hcounted := (hh.books hopen).counted g
    change s₁.owned g + _ + s₁.refs g ≤
      s₁.owned g + _ + Function.update s₁.refs h (s₁.refs h - 1) g
    rcases eq_or_ne g h with rfl | hne
    · rw [List.count_cons_self] at hcounted ⊢
      rw [Function.update_self]
      omega
    · rw [Function.update_of_ne hne, List.count_cons_of_ne hne.symm]
  · change s₁.owned g + _ = 0
    rcases eq_or_ne g h with rfl | hne
    · exact absurd (Nat.eq_zero_of_add_eq_zero_left hg) (Holds.count_ne_zero g hs)
    · rwa [List.count_cons_of_ne hne.symm] at hg

/-- The order of the references that native code holds does not matter. -/
theorem Holds.perm (hh : Holds hs s s₁) (hperm : hs.Perm hs') : Holds hs' s s₁ :=
  hh.move rfl rfl rfl (fun _ g => by rw [hperm.count_eq g]) (fun _ g hg => by
    rwa [← hperm.count_eq g]) fun hopen => (hh.books hopen).last

/-- The ready queue changes: what it held and what native code held are the same as before. -/
theorem Holds.setReady (hh : Holds hs s s₁) {q : Queue ℕ}
    (hq : ∀ g, q.toList.count g + hs'.count g = s₁.ready.toList.count g + hs.count g) :
    Holds hs' s (s₁.setReady q) := by
  have howned : ∀ g, (s₁.setReady q).owned g + hs'.count g = s₁.owned g + hs.count g := fun g => by
    have := hq g
    simp only [State.owned, State.setReady]
    omega
  exact hh.move rfl rfl rfl (fun _ g => by rw [howned]; exact Nat.le_refl _)
    (fun _ g hg => (howned g).trans hg) fun hopen => (hh.books hopen).last

/-- A handle is appended to the inbox, and becomes the candidate. A candidate that Python code left
meanwhile is forgotten, with its reference. -/
theorem Holds.toInbox (hh : Holds (h :: h :: hs) s s₁) {q : Queue ℕ}
    (hq : q.toList = s₁.threadsafeReady.toList ++ [h]) :
    Holds hs s ((s₁.setInbox q).setCandidate (some h)) := by
  have howned : ∀ g, ((s₁.setInbox q).setCandidate (some h)).owned g + hs.count g ≤
      s₁.owned g + (h :: h :: hs).count g := fun g => by
    simp only [State.owned, State.setInbox, State.setCandidate, hq, List.count_append]
    rcases eq_or_ne g h with rfl | hne
    · simp
      omega
    · simp [List.count_cons_of_ne hne.symm]
  refine hh.move rfl rfl rfl (fun _ g => Nat.add_le_add_right (howned g) _)
    (fun _ g hg => Nat.eq_zero_of_le_zero (hg ▸ howned g)) fun _ g hg => ?_
  obtain rfl := Option.some.inj hg
  change q.toList.getLast? = _
  rw [hq, List.getLast?_concat]

/-- The candidate's reference is left to native code. -/
theorem Holds.fromCandidate (hh : Holds hs s s₁) (hsome : s₁.threadsafeCandidate = some h) :
    Holds (h :: hs) s (s₁.setCandidate none) := by
  have howned : ∀ g, (s₁.setCandidate none).owned g + (h :: hs).count g =
      s₁.owned g + hs.count g := fun g => by
    simp only [State.owned, State.setCandidate, hsome]
    rcases eq_or_ne g h with rfl | hne
    · simp
      omega
    · simp [List.count_cons_of_ne hne.symm]
  exact hh.move rfl rfl rfl (fun _ g => by rw [howned]; exact Nat.le_refl _)
    (fun _ g hg => (howned g).trans hg) fun _ g hg => absurd hg (by simp [State.setCandidate])

/-- A reference that native code holds is handed to Python code. -/
theorem Holds.handOver (hh : Holds (h :: hs) s s₁) : Holds hs s (s₁.handOver h) := by
  have howned : ∀ g, (s₁.handOver h).owned g + hs.count g = s₁.owned g + (h :: hs).count g :=
    fun g => by
      simp only [State.owned, State.handOver]
      rcases eq_or_ne g h with rfl | hne
      · rw [Function.update_self, List.count_cons_self]
        omega
      · rw [Function.update_of_ne hne, List.count_cons_of_ne hne.symm]
  exact hh.move rfl rfl rfl (fun _ g => by rw [howned]; exact Nat.le_refl _)
    (fun _ g hg => (howned g).trans hg) fun hopen => (hh.books hopen).last

/-- A reference that Python code holds is given up. -/
theorem Holds.takeOver (hh : Holds hs s s₁) (hpos : 0 < s₁.python h) :
    Holds (h :: hs) s (s₁.takeOver h) := by
  have howned : ∀ g, (s₁.takeOver h).owned g + (h :: hs).count g = s₁.owned g + hs.count g :=
    fun g => by
      simp only [State.owned, State.takeOver]
      rcases eq_or_ne g h with rfl | hne
      · rw [Function.update_self, List.count_cons_self]
        omega
      · rw [Function.update_of_ne hne, List.count_cons_of_ne hne.symm]
  exact hh.move rfl rfl rfl (fun _ g => by rw [howned]; exact Nat.le_refl _)
    (fun _ g hg => (howned g).trans hg) fun hopen => (hh.books hopen).last

/-- In a closed loop nothing is accounted for. -/
theorem Holds.of_closed (hh : Holds hs s s₁) (hclosed : s₂.closed = true)
    (hpanicked : s₂.panicked = s₁.panicked) (hfresh : s₂.fresh = s₁.fresh) : Holds hs' s s₂ where
  sound := hpanicked.trans hh.sound
  closed := fun _ => hclosed
  fresh := hfresh ▸ hh.fresh
  books := fun hopen => absurd (hclosed.symm.trans hopen) (by simp)

end Accounting

/-! ## The programs -/

/-- Every program keeps the invariant and gives up no reference of others. -/
def spec : Spec sig where
  inv := Inv
  rely := Rely
  pre := fun _ s => Inv s ∧ s.closed = true
  post := fun _ s s' => Inv s' ∧ Rely s s'

/-- What holds of the results and final states of a program. -/
abbrev WP {α : Type} (p : P α) (Q : α → State → Prop) (s : State) : Prop := p.wp env spec Q s

section Programs

variable {hs : List ℕ} {s s₁ s₂ : State} {h : ℕ}

theorem wp_getState {Q : State → State → Prop} (hQ : Q s₁ s₁) : WP getState Q s₁ := hQ

theorem wp_update {f : State → State} {Q : Unit → State → Prop} (hQ : Q () (f s₁)) :
    WP (update f) Q s₁ := hQ

theorem wp_alloc {Q : Bool → State → Prop} (hQ : ∀ ok, Q ok s₁) : WP alloc Q s₁ :=
  fun ok _ => hQ ok

theorem WP.bind {α β : Type} {p : P α} {f : α → P β} {Q : β → State → Prop}
    (hp : WP p (fun a s₂ => WP (f a) Q s₂) s₁) : WP (p >>= f) Q s₁ :=
  (Prog.wp_bind _ _ _ _).mpr hp

theorem wp_python {c : Callback} {Q : Unit → State → Prop} (hh : Holds hs s s₁)
    (hQ : ∀ s₂, Holds hs s s₂ → Q () s₂) : WP (python c) Q s₁ :=
  Prog.wp_foreign (Rely.refl s₁) hh.inv fun _ s₂ hrely hinv => hQ s₂ (hh.yield hrely hinv)

theorem wp_decref {Q : Unit → State → Prop} (hh : Holds (h :: hs) s s₁)
    (hQ : ∀ s₂, Holds hs s s₂ → Q () s₂) : WP (decref h) Q s₁ := by
  refine WP.bind (wp_update (WP.bind (wp_getState ?_)))
  split
  · exact wp_python hh.dropRef hQ
  · exact hQ _ hh.dropRef

theorem wp_decrefAll {hs' : List ℕ} {Q : Unit → State → Prop} (hh : Holds (hs' ++ hs) s s₁)
    (hQ : ∀ s₂, Holds hs s s₂ → Q () s₂) : WP (decrefAll hs') Q s₁ := by
  induction hs' generalizing s₁ with
  | nil => exact hQ s₁ hh
  | cons h hs' ih => exact WP.bind (wp_decref hh fun s₂ hh₂ => ih hh₂)

theorem wp_create {Q : Option ℕ → State → Prop} (hh : Holds hs s s₁)
    (hnone : ∀ s₂, Holds hs s s₂ → Q none s₂)
    (hsome : ∀ h s₂, Holds (h :: hs) s s₂ → Q (some h) s₂) : WP create Q s₁ := by
  refine WP.bind (wp_python hh fun s₂ hh₂ => WP.bind (wp_alloc fun ok => ?_))
  split
  · exact WP.bind (wp_getState (WP.bind (wp_update (hsome _ _ hh₂.create))))
  · exact hnone s₂ hh₂

theorem wp_createAll (n : ℕ) {hs' : List ℕ} {Q : Option (List ℕ) → State → Prop}
    (hh : Holds (hs' ++ hs) s s₁) (hnone : ∀ s₂, Holds hs s s₂ → Q none s₂)
    (hsome : ∀ hs'' s₂, Holds (hs'' ++ hs) s s₂ → Q (some hs'') s₂) :
    WP (createAll n hs') Q s₁ := by
  induction n generalizing hs' s₁ with
  | zero => exact hsome hs' s₁ hh
  | succ n ih =>
    refine WP.bind (wp_create hh (fun s₂ hh₂ => ?_) fun h s₂ hh₂ => ?_)
    · exact WP.bind (wp_decrefAll hh₂ fun s₃ hh₃ => hnone s₃ hh₃)
    · refine ih (hh₂.perm ?_)
      rw [List.append_assoc]
      exact List.perm_middle.symm

/-- While the loop is open, the inbox holds a reference to the candidate, so that dropping the
candidate runs no Python code. -/
theorem wp_clearThreadsafeCandidate {Q : Unit → State → Prop} (hopen : s₁.closed = false)
    (hh : Holds hs s s₁)
    (hQ : ∀ s₂, Holds hs s s₂ → s₂.ready = s₁.ready → s₂.threadsafeReady = s₁.threadsafeReady →
      s₂.threadsafeCandidate = none → s₂.closed = false → Q () s₂) :
    WP clearThreadsafeCandidate Q s₁ := by
  refine WP.bind (wp_getState ?_)
  cases hcandidate : s₁.threadsafeCandidate with
  | none => exact hQ s₁ hh rfl rfl hcandidate hopen
  | some h =>
    have hdropped : Holds hs s ((s₁.setCandidate none).dropRef h) :=
      (hh.fromCandidate hcandidate).dropRef
    have hmem : h ∈ s₁.threadsafeReady.toList :=
      List.mem_of_mem_getLast? ((hh.books hopen).last h hcandidate)
    have hreferred : ((s₁.setCandidate none).dropRef h).refs h ≠ 0 := by
      have hcounted := (hdropped.books hopen).counted h
      have hinbox : 0 < s₁.threadsafeReady.toList.count h := List.count_pos_iff.mpr hmem
      have howned : s₁.threadsafeReady.toList.count h ≤
          ((s₁.setCandidate none).dropRef h).owned h := by
        change _ ≤ s₁.ready.toList.count h + s₁.threadsafeReady.toList.count h + _ + s₁.python h
        omega
      omega
    refine WP.bind (wp_update (WP.bind (wp_update (WP.bind (wp_getState ?_)))))
    rw [if_neg hreferred]
    exact hQ _ hdropped rfl rfl rfl hopen

/-- What making room leaves and achieves. -/
theorem room_of_ensureUnusedCapacity {ok : Bool} {additional : ℕ} {q q' : Queue ℕ}
    (h : q.ensureUnusedCapacity ok additional = some q') :
    q'.len = q.len ∧ q.len + additional ≤ q'.cap := by
  unfold Queue.ensureUnusedCapacity at h
  split at h
  · cases h
  · next r hr =>
    obtain rfl := Option.some.inj h
    exact (Ready.ensureUnusedCapacity_some q.wf hr).2.2

/-- The inbox fits into the room reserved for it. -/
theorem wp_drainThreadsafe {Q : Bool → State → Prop} (hopen : s₁.closed = false)
    (hh : Holds hs s s₁) (hQ : ∀ drained s₂, Holds hs s s₂ → Q drained s₂) :
    WP drainThreadsafe Q s₁ := by
  refine WP.bind (wp_getState (WP.bind (wp_alloc fun ok => ?_)))
  cases hensure : s₁.ready.ensureUnusedCapacity ok s₁.threadsafeReady.len with
  | none => exact hQ false s₁ hh
  | some ready =>
    obtain ⟨hlen, hcap⟩ := room_of_ensureUnusedCapacity hensure
    have hlist := Queue.toList_of_ensureUnusedCapacity hensure
    have hready : Holds hs s (s₁.setReady ready) := hh.setReady fun g => by rw [hlist]
    refine WP.bind (wp_update (WP.bind (wp_clearThreadsafeCandidate hopen hready
      fun s₂ hh₂ hready₂ hinbox₂ hnone₂ _ => WP.bind (wp_getState ?_))))
    have hready₂ : s₂.ready = ready := hready₂
    have hinbox₂ : s₂.threadsafeReady = s₁.threadsafeReady := hinbox₂
    obtain ⟨ready', inbox', hdrain, hready', hinbox'⟩ :=
      Loop.State.drainLoop_spec s₂.threadsafeReady.len s₂.ready s₂.threadsafeReady (Nat.le_refl _)
        (by rw [hready₂, hinbox₂, hlen]; exact hcap)
    rw [hdrain]
    refine WP.bind (wp_update (hQ true _ (hh₂.move rfl rfl rfl (fun _ g => ?_)
      (fun _ g hg => ?_) fun _ g hg => ?_)))
    · simp only [State.owned, State.setReady, State.setInbox, hready', hinbox', List.count_append,
        List.count_nil]
      omega
    · simp only [State.owned] at hg
      simp only [State.owned, State.setReady, State.setInbox, hready', hinbox', List.count_append,
        List.count_nil]
      omega
    · exact absurd (hnone₂.symm.trans hg) (by simp)

theorem wp_push {Q : Bool → State → Prop} (hh : Holds (h :: hs) s s₁)
    (hfull : Q false s₁) (hpushed : ∀ s₂, Holds hs s s₂ → Q true s₂) : WP (push h) Q s₁ := by
  refine WP.bind (wp_getState (WP.bind (wp_alloc fun ok => ?_)))
  cases hpush : s₁.ready.push ok h with
  | none => exact hfull
  | some ready =>
    refine WP.bind (wp_update (hpushed _ (hh.setReady fun g => ?_)))
    rw [Queue.toList_of_push hpush, List.count_append, List.count_cons, List.count_cons,
      List.count_nil]
    omega

/-- Appending to a queue that has room for it. -/
theorem wp_pushAll {hs' : List ℕ} {Q : Unit → State → Prop} (hh : Holds (hs' ++ hs) s s₁)
    (hroom : s₁.ready.len + hs'.length ≤ s₁.ready.cap) (hQ : ∀ s₂, Holds hs s s₂ → Q () s₂) :
    WP (pushAll hs') Q s₁ := by
  induction hs' generalizing s₁ with
  | nil => exact hQ s₁ hh
  | cons h hs' ih =>
    rw [List.length_cons] at hroom
    obtain ⟨q, hq, hlist, hcap, hlen⟩ :=
      Queue.pushAssumeCapacity_of_lt (by omega : s₁.ready.len < s₁.ready.cap) h
    have hpushed : Holds (hs' ++ hs) s (s₁.setReady q) := hh.setReady fun g => by
      rw [hlist, List.count_append, List.cons_append, List.count_cons, List.count_cons,
        List.count_nil]
      omega
    have hone : WP (pushAssumeCapacity h) (fun _ s₂ => s₂ = s₁.setReady q) s₁ := by
      refine WP.bind (wp_getState ?_)
      rw [hq]
      exact wp_update rfl
    refine WP.bind (Prog.wp_mono hone fun _ s₂ hs₂ => ?_)
    subst hs₂
    refine ih hpushed ?_
    change q.len + hs'.length ≤ q.cap
    omega

/-! ## The entry points -/

/-- What an entry point has to do. -/
abbrev Fine (p : P Unit) (s : State) : Prop := WP p (fun _ s' => Inv s' ∧ Rely s s') s

theorem Holds.fine (hh : Holds hs s s₁) : Inv s₁ ∧ Rely s s₁ := ⟨hh.inv, hh.rely⟩

theorem fine_callSoon (hinv : Inv s) : Fine callSoon s := by
  refine WP.bind (wp_create (Holds.start hinv) (fun _ hh => hh.fine) fun h s₁ hh => ?_)
  refine WP.bind (wp_getState ?_)
  split
  · exact wp_decref hh fun _ hh => hh.fine
  next hopen =>
  refine WP.bind (wp_drainThreadsafe (Bool.eq_false_iff.mpr hopen) hh fun drained s₂ hh₂ => ?_)
  split
  · exact wp_decref hh₂ fun _ hh => hh.fine
  · refine WP.bind (wp_update (WP.bind (wp_push hh₂.incref ?_ fun s₃ hh₃ => ?_)))
    · exact WP.bind (wp_decref hh₂.incref fun s₃ hh₃ => wp_decref hh₃ fun _ hh => hh.fine)
    · exact wp_update hh₃.handOver.fine

theorem fine_callSoonThreadsafe (hinv : Inv s) : Fine callSoonThreadsafe s := by
  refine WP.bind (wp_getState ?_)
  split
  · exact (Holds.start hinv).fine
  next hopen =>
  refine WP.bind (wp_clearThreadsafeCandidate (Bool.eq_false_iff.mpr hopen) (Holds.start hinv)
    fun s₁ hh₁ _ _ _ _ => ?_)
  refine WP.bind (wp_create hh₁ (fun _ hh => hh.fine) fun h s₂ hh₂ => ?_)
  refine WP.bind (wp_update (WP.bind (wp_getState (WP.bind (wp_alloc fun ok => ?_)))))
  cases hpush : (s₂.incref h).threadsafeReady.push ok h with
  | none =>
    exact WP.bind (wp_decref hh₂.incref fun s₃ hh₃ => wp_decref hh₃ fun _ hh => hh.fine)
  | some inbox =>
    have hqueued : Holds [h] s
        ((((s₂.incref h).incref h).setInbox inbox).setCandidate (some h)) :=
      hh₂.incref.incref.toInbox (Queue.toList_of_push hpush)
    exact WP.bind (wp_update (WP.bind (wp_update (WP.bind (wp_update
      (wp_update hqueued.handOver.fine))))))

theorem fine_onWake (hinv : Inv s) (hopen : s.closed = false) : Fine onWake s :=
  WP.bind (wp_drainThreadsafe hopen (Holds.start hinv) fun _ _ hh => hh.fine)

/-- The handle of a callback that runs is held by the loop. -/
theorem fine_runReadyLoop (n : ℕ) (hh : Holds [] s s₁) :
    WP (runReadyLoop n) (fun _ s' => Inv s' ∧ Rely s s') s₁ := by
  induction n generalizing s₁ with
  | zero => exact hh.fine
  | succ n ih =>
    refine WP.bind (wp_getState ?_)
    have hfst := s₁.ready.pop_fst
    have hsnd := s₁.ready.toList_pop
    rcases hpop : s₁.ready.pop with ⟨- | h, ready⟩
    · exact hh.fine
    · rw [hpop] at hfst hsnd
      have hlist : s₁.ready.toList = h :: ready.toList := by
        rw [hsnd]
        exact (List.cons_head?_tail hfst.symm).symm
      have hpopped : Holds [h] s (s₁.setReady ready) := hh.setReady fun g => by
        rw [hlist, List.count_cons, List.count_cons, List.count_nil]
        omega
      exact WP.bind (wp_update (WP.bind (wp_python hpopped fun s₂ hh₂ =>
        WP.bind (wp_decref hh₂ fun s₃ hh₃ => ih hh₃))))

theorem fine_makeTransport (others : ℕ) (hinv : Inv s) : Fine (makeTransport others) s := by
  refine WP.bind (wp_getState ?_)
  split
  · exact (Holds.start hinv).fine
  refine WP.bind (wp_python (Holds.start hinv) fun s₁ hh₁ => ?_)
  refine WP.bind (wp_createAll (1 + others) hh₁ (fun _ hh => hh.fine) fun hs s₂ hh₂ => ?_)
  refine WP.bind (wp_getState (WP.bind (wp_alloc fun ok => ?_)))
  cases hensure : s₂.ready.ensureUnusedCapacity ok hs.length with
  | none => exact wp_decrefAll hh₂ fun _ hh => hh.fine
  | some ready =>
    obtain ⟨hlen, hcap⟩ := room_of_ensureUnusedCapacity hensure
    have hready : Holds (hs ++ []) s (s₂.setReady ready) := hh₂.setReady fun g => by
      rw [Queue.toList_of_ensureUnusedCapacity hensure]
    refine WP.bind (wp_update (WP.bind fun adopted _ => ?_))
    change WP (if adopted = true then _ else _) _ _
    split
    · refine wp_pushAll hready ?_ fun _ hh => hh.fine
      change ready.len + _ ≤ ready.cap
      rw [hlen]
      exact hcap
    · exact wp_decrefAll hready fun _ hh => hh.fine

theorem fine_schedule (hinv : Inv s) : Fine schedule s := by
  refine WP.bind (wp_getState ?_)
  split
  · exact (Holds.start hinv).fine
  refine WP.bind (wp_create (Holds.start hinv) (fun _ hh => hh.fine) fun h s₁ hh => ?_)
  exact WP.bind (wp_push hh (wp_decref hh fun _ hh => hh.fine) fun _ hh => hh.fine)

theorem fine_reserve (hinv : Inv s) : Fine reserve s := by
  refine WP.bind (wp_getState ?_)
  split
  · exact (Holds.start hinv).fine
  refine WP.bind (wp_alloc fun ok => ?_)
  cases hensure : s.ready.ensureUnusedCapacity ok 1 with
  | none => exact (Holds.start hinv).fine
  | some ready =>
    have hready : Holds [] s (s.setReady ready) := (Holds.start hinv).setReady fun g => by
      rw [Queue.toList_of_ensureUnusedCapacity hensure]
    exact wp_update hready.fine

/-- In a closed loop the queues are released one handle after the other. -/
theorem fine_deinitBody {queue : State → Queue ℕ} {clear : State → State} {next : ℕ → Proc} (i : ℕ)
    (hclear : ∀ s, (clear s).closed = s.closed ∧ (clear s).panicked = s.panicked ∧
      (clear s).fresh = s.fresh) (hinv : Inv s) (hclosed : s.closed = true) :
    Fine (deinitBody queue clear next i) s := by
  refine WP.bind (wp_getState ?_)
  cases (queue s).toList[i]? with
  | none =>
    obtain ⟨hclosed', hpanicked, hfresh⟩ := hclear s
    have hcleared : Holds [] s (clear s) :=
      (Holds.start hinv).of_closed (hclosed'.trans hclosed) hpanicked hfresh
    exact wp_update hcleared.fine
  | some h =>
    have hheld : Holds [h] s s := (Holds.start hinv).of_closed hclosed rfl rfl
    refine WP.bind (wp_decref hheld fun s₁ hh₁ => ?_)
    refine ⟨⟨hh₁.inv, hh₁.closed hclosed⟩, fun s₂ hpost => ?_⟩
    exact ⟨hpost.1, hh₁.rely.trans hpost.2⟩

theorem fine_close (hinv : Inv s) : Fine close s := by
  refine WP.bind (wp_getState ?_)
  split
  · exact (Holds.start hinv).fine
  have hclosed : ∀ hs', Holds hs' s s.close :=
    fun _ => (Holds.start hinv).of_closed rfl rfl rfl
  have hdeinit : ∀ s₁, Holds [] s s₁ → s₁.closed = true → WP (do
      Prog.invoke (S := sig) (.deinitReady 0)
      Prog.invoke (S := sig) (.deinitInbox 0)) (fun _ s' => Inv s' ∧ Rely s s') s₁ :=
    fun s₁ hh₁ hc₁ => ⟨⟨hh₁.inv, hc₁⟩, fun s₂ hpost₂ =>
      ⟨⟨hpost₂.1, hpost₂.2.closed hc₁⟩, fun s₃ hpost₃ =>
        ⟨hpost₃.1, hh₁.rely.trans (hpost₂.2.trans hpost₃.2)⟩⟩⟩
  refine WP.bind (wp_update (WP.bind (WP.bind (wp_getState ?_))))
  cases s.close.threadsafeCandidate with
  | none => exact hdeinit _ (hclosed []) rfl
  | some h =>
    have hheld : Holds [h] s.close (s.close.setCandidate none) :=
      Holds.of_closed (Holds.start (hclosed []).inv) rfl rfl rfl
    refine WP.bind (wp_update (wp_decref hheld fun s₁ hh₁ => ?_))
    exact hdeinit s₁ ((hclosed []).yield hh₁.rely hh₁.inv) (hh₁.closed rfl)

theorem fine_hold (hinv : Inv s) (hpos : 0 < s.python h) : Fine (hold h) s := by
  have howned : ∀ g, ((s.incref h).handOver h).owned g + s.refs g =
      s.owned g + ((s.incref h).handOver h).refs g := fun g => by
    simp only [State.owned, State.handOver, State.incref]
    rcases eq_or_ne g h with rfl | hne
    · rw [Function.update_self, Function.update_self]
      omega
    · rw [Function.update_of_ne hne, Function.update_of_ne hne]
  have hheld : Holds [] s ((s.incref h).handOver h) := by
    refine (Holds.start hinv).move rfl rfl rfl (fun _ g => ?_) (fun _ g hg => ?_)
      fun hopen => (hinv.counted hopen).last
    · rw [List.count_nil, Nat.add_zero, Nat.add_zero]
      exact (howned g).le
    · -- a handle that Python code holds a reference to exists
      have hne : g ≠ h := by
        rintro rfl
        simp only [State.owned, List.count_nil] at hg
        omega
      have hrefs : ((s.incref h).handOver h).refs g = s.refs g := Function.update_of_ne hne _ _
      have hsum := howned g
      rw [hrefs] at hsum
      rw [Nat.add_right_cancel hsum]
      exact hg
  exact wp_update hheld.fine

theorem fine_drop (hinv : Inv s) (hpos : 0 < s.python h) : Fine (drop h) s :=
  WP.bind (wp_update (wp_decref ((Holds.start hinv).takeOver hpos) fun _ hh => hh.fine))

end Programs

/-- Everything keeps the invariant. -/
theorem verified : Verified system env spec where
  rely_refl := Rely.refl
  rely_trans := fun _ _ _ => Rely.trans
  init := ⟨rfl, fun _ => ⟨fun _ => Nat.le_refl _, fun _ _ => rfl, fun _ h => by cases h⟩⟩
  body := by
    rintro f s ⟨hinv, hclosed⟩
    cases f with
    | deinitReady i => exact fine_deinitBody i (fun _ => ⟨rfl, rfl, rfl⟩) hinv hclosed
    | deinitInbox i => exact fine_deinitBody i (fun _ => ⟨rfl, rfl, rfl⟩) hinv hclosed
  entry := by
    intro stack s op hstart hinv _
    cases op with
    | callSoon => exact fine_callSoon hinv
    | callSoonThreadsafe => exact fine_callSoonThreadsafe hinv
    | onWake => exact fine_onWake hinv hstart
    | runReady => exact WP.bind (wp_getState (fine_runReadyLoop _ (Holds.start hinv)))
    | makeTransport others => exact fine_makeTransport others hinv
    | schedule => exact fine_schedule hinv
    | reserve => exact fine_reserve hinv
    | close => exact fine_close hinv
    | hold h => exact fine_hold hinv hstart
    | drop h => exact fine_drop hinv hstart

/-- No Python code is kept from calling the loop. -/
theorem not_quiet (c : Callback) : ¬ env.Quiet c := fun hquiet =>
  hquiet [] State.init .callSoon trivial

/-- Whatever operations are performed, a ring buffer is a list that is appended to at the tail and
popped at the front, whose capacity is `0` or a power of two from 64 on and whose head is one of its
slots. And whatever happens to a loop, `drainThreadsafe` and `makeTransport` only append where they
have reserved room: no assertion of `pushAssumeCapacity` has failed, and the candidate is the last
handle of the inbox as long as the loop is open. -/
theorem ready_refines_fifo :
    (∀ (α : Type) (ops : List (Ready.Op α)) (outs : List (Ready.Out α)) (r : Ready α),
      Ready.runAll ops .empty = some (outs, r) → r.WF ∧ Ready.FifoRun ops [] outs r.toList) ∧
    ∀ (s : State) (stack : List (Callback × (Unit → P Unit))),
      system.Reachable env ⟨s, none, stack⟩ → s.panicked = false ∧
        (s.closed = false → ∀ h, s.threadsafeCandidate = some h →
          s.threadsafeReady.toList.getLast? = some h) := by
  refine ⟨fun α ops outs r hrun => Ready.runAll_spec Ready.wf_empty hrun, fun s stack hr => ?_⟩
  have hinv : Inv s := verified.in_foreign not_quiet hr
  exact ⟨hinv.sound, fun hopen => (hinv.counted hopen).last⟩

/-- Two handles from another thread, and one whose `call_soon` drains them. -/
def twoInbox : List (Label sig) :=
  [.start .callSoonThreadsafe, .resume (), .answer true, .answer true,
    .start .callSoonThreadsafe, .resume (), .answer true, .answer true]

/-- The third push finds room and needs no memory, and the candidate is the last handle of an inbox
of two. -/
theorem ready_refines_fifo_two :
    (∃ outs r, Ready.runAll [.push true 1, .push true 2, .pop, .push false 3] .empty =
        some (outs, r) ∧ r.WF ∧ r.toList = [2, 3]) ∧
      ∃ s : State, s.threadsafeCandidate = some 1 ∧ s.threadsafeReady.toList.getLast? = some 1 ∧
        s.panicked = false := by
  constructor
  · have hrun : ∃ outs r, Ready.runAll [.push true 1, .push true 2, .pop, .push false 3] .empty =
        some (outs, r) ∧ r.toList = [2, 3] := ⟨_, _, rfl, rfl⟩
    obtain ⟨outs, r, hrun, hlist⟩ := hrun
    exact ⟨outs, r, hrun, (ready_refines_fifo.1 ℕ _ outs r hrun).1, hlist⟩
  · have hplay : ∃ s stack, system.play env 50 twoInbox system.initial = some ⟨s, none, stack⟩ ∧
        s.threadsafeCandidate = some 1 ∧ s.closed = false := ⟨_, _, rfl, rfl, rfl⟩
    obtain ⟨s, stack, hplay, hcandidate, hopen⟩ := hplay
    obtain ⟨hsound, hlast⟩ := ready_refines_fifo.2 s stack (System.Reachable.initial.play hplay)
    exact ⟨s, hcandidate, hlast hopen 1 hcandidate, hsound⟩

end Loop.Reservation

end Zuvloop
