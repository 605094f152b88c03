import Zuvloop.Polling.Safety

/-!
# The watchers of `sock_*` operations

A `sock_*` operation that has to wait registers a callback through `_watch`, and takes it back
through `_unwatch` when its future is done or its task is cancelled, which may be a turn later. By
then the registration may be somebody else's, so both go by a token in `_sock_watchers`. A token
tells operations apart, but nothing tells an operation from a direct call of `add_reader` or
`add_writer`: these leave the table alone.

Tokens are numbers, in the order in which they are created. `_watch` and `_unwatch` are single
steps: the interpreter runs nothing else before the callback is registered or removed, and what
runs when a superseded handle is released comes after that.

## Main definitions

* `Sockets`: the registry with `_sock_watchers` and the operations that wait.
* `Sockets.watch`, `Sockets.unwatch`: the functions.
* `sockets`: operations, direct calls, events and everything else, in any order.
* `Undisturbed`: no direct call supersedes an operation, and no registration fails over one.

## Main results

* `sock_cleanup_own`: an operation takes back its own registration and nothing else.
* `not_sock_cleanup_own`: it takes back what was registered directly meanwhile.
-/

namespace Zuvloop.Polling

open Transition

variable {s s' : State} {fd g : Fd} {p q : Poller} {d d' : Direction} {h token : ℕ} {ok : Bool}
  {l : Label}

/-! ## What is registered where -/

/-- The handle that is registered for a descriptor and a direction. -/
def State.registration (s : State) (fd : Fd) (d : Direction) : Option ℕ :=
  (s.pollers.lookup fd).bind fun p => p.slot d

theorem registration_of_some (hl : s.pollers.lookup fd = some p) (d : Direction) :
    s.registration fd d = p.slot d := by
  rw [State.registration, hl, Option.bind_some]

theorem registration_of_none (hl : s.pollers.lookup fd = none) (d : Direction) :
    s.registration fd d = none := by
  rw [State.registration, hl, Option.bind_none]

theorem registration_congr (hp : s'.pollers = s.pollers) (fd : Fd) (d : Direction) :
    s'.registration fd d = s.registration fd d := by
  rw [State.registration, State.registration, hp]

/-- After `rearm` the handles of the poller are registered, also if there are none. -/
theorem registration_rearm (hp : p.interest = .none → p.events ≠ .none) (d : Direction) :
    (s.rearm fd p ok).registration fd d = p.slot d := by
  rw [State.registration, lookup_rearm hp]
  split
  · rename_i hnone
    rw [Option.bind_none, Poller.interest_eq_none.mp hnone d]
  · rw [Option.bind_some]
    cases d <;> rfl

theorem registration_rearm_ne (hg : g ≠ fd) (d : Direction) :
    (s.rearm fd p ok).registration g d = s.registration g d := by
  rw [State.registration, State.registration, lookup_rearm_ne hg]

/-- `add` registers a new handle. -/
theorem registration_add (s : State) (fd : Fd) (d : Direction) (ok : Bool) :
    (s.add fd d ok).registration fd d = some s.nextHandle := by
  have hput (t : State) (q : Poller) :
      (t.rearm fd (q.setSlot d (some s.nextHandle)) ok).registration fd d = some s.nextHandle := by
    have hslot : (q.setSlot d (some s.nextHandle)).slot d = some s.nextHandle :=
      Poller.slot_setSlot_self
    rw [registration_rearm fun hnone => absurd hnone (Poller.interest_ne_none hslot)]
    exact hslot
  rw [State.add]
  dsimp only
  split
  · exact hput _ _
  · exact hput _ _

/-- `add` leaves the other registrations alone. -/
theorem registration_add_ne (hne : (g, d') ≠ (fd, d)) :
    (s.add fd d ok).registration g d' = s.registration g d' := by
  have hput (t : State) (q : Poller) (hother : g ≠ fd → t.registration g d' = s.registration g d')
      (hself : g = fd → q.slot d' = s.registration g d') :
      (t.rearm fd (q.setSlot d (some s.nextHandle)) ok).registration g d' =
        s.registration g d' := by
    by_cases hg : g = fd
    · have hd : d' ≠ d := fun heq => hne (by rw [hg, heq])
      have hslot : (q.setSlot d (some s.nextHandle)).slot d = some s.nextHandle :=
        Poller.slot_setSlot_self
      have hevents (hnone : (q.setSlot d (some s.nextHandle)).interest = .none) :
          (q.setSlot d (some s.nextHandle)).events ≠ .none :=
        absurd hnone (Poller.interest_ne_none hslot)
      rw [← hself hg, hg, registration_rearm hevents, Poller.slot_setSlot_ne hd]
    · rw [registration_rearm_ne hg, hother hg]
  cases hl : s.pollers.lookup fd with
  | none =>
    rw [State.add_of_none hl]
    apply hput
    · intro _
      rw [State.get_of_none (by exact hl)]
      rfl
    · rintro rfl
      rw [registration_of_none hl]
      cases d' <;> rfl
  | some p =>
    cases hd : p.slot d with
    | none =>
      rw [State.add_of_some hl hd]
      apply hput
      · exact fun _ => rfl
      · rintro rfl
        rw [registration_of_some hl]
    | some old =>
      rw [State.add_of_superseded hl hd]
      apply hput
      · exact fun _ => rfl
      · rintro rfl
        rw [registration_of_some hl]

/-- `remove` takes back what is registered, whoever registered it. -/
theorem registration_remove (hi : Inv s) : (s.remove fd d ok).registration fd d = none := by
  cases hl : s.pollers.lookup fd with
  | none =>
    rw [State.remove, hl]
    exact registration_of_none hl d
  | some p =>
    cases hd : p.slot d with
    | none =>
      simp only [State.remove, hl, hd]
      rw [registration_of_some hl, hd]
    | some x =>
      rw [State.remove_of_some hl hd]
      refine (registration_rearm (hi.pending_remove hl hd).events d).trans ?_
      exact Poller.slot_setSlot_self

/-- `remove` leaves the other registrations alone. -/
theorem registration_remove_ne (hi : Inv s) (hne : (g, d') ≠ (fd, d)) :
    (s.remove fd d ok).registration g d' = s.registration g d' := by
  cases hl : s.pollers.lookup fd with
  | none =>
    rw [State.remove, hl]
  | some p =>
    cases hd : p.slot d with
    | none => simp only [State.remove, hl, hd]
    | some x =>
      rw [State.remove_of_some hl hd]
      by_cases hg : g = fd
      · have hdd : d' ≠ d := fun heq => hne (by rw [hg, heq])
        subst hg
        refine (registration_rearm (hi.pending_remove hl hd).events d').trans ?_
        rw [Poller.slot_setSlot_ne hdd, registration_of_some hl]
      · exact registration_rearm_ne hg d'

/-- Nothing is registered that was not registered before. -/
structure Fewer (s s' : State) : Prop where
  /-- Handles are still new. -/
  nextHandle : s.nextHandle ≤ s'.nextHandle
  /-- A registration is left alone or taken back. -/
  registration : ∀ fd d, s'.registration fd d = s.registration fd d ∨ s'.registration fd d = none

theorem fewer_act (a : Action) (todo : List Action) :
    Fewer s (State.act { s with todo } a) := by
  refine ⟨(calm_act (s := { s with todo }) a).nextHandle, fun fd d => ?_⟩
  cases a with
  | release h => exact .inl rfl
  | cancelRelease h => exact .inl rfl
  | destroyAll fds =>
    cases fds with
    | nil => exact .inr (registration_of_none (AList.lookup_empty fd) d)
    | cons g fds =>
      rw [State.act]
      split
      · exact .inl rfl
      · rename_i p hl
        by_cases hg : fd = g
        · -- the poller of this descriptor loses its handles
          subst hg
          refine .inr ((registration_of_some (AList.lookup_insert _) d).trans ?_)
          cases d <;> rfl
        · refine .inl ?_
          rw [State.registration, State.registration]
          exact congrArg (Option.bind · _) (AList.lookup_insert_ne hg)

/-- Only `add` registers anything. -/
theorem fewer_step (hi : Inv s) (hstep : machine.step s l = some s')
    (hl : ∀ fd d ok, l ≠ .add fd d ok) : Fewer s s' := by
  cases l with
  | add fd d ok => exact absurd rfl (hl fd d ok)
  | remove fd d ok =>
    obtain ⟨⟩ := hstep
    refine ⟨calm_remove.nextHandle, fun g d' => ?_⟩
    by_cases hne : (g, d') = (fd, d)
    · cases hne
      exact .inr (registration_remove hi)
    · exact .inl (registration_remove_ne hi hne)
  | event fd events =>
    obtain ⟨p, -, -, rfl⟩ := step_event hstep
    refine ⟨(calm_onPoll events).nextHandle, fun g d' => .inl (registration_congr ?_ g d')⟩
    rw [State.onPoll]
    split
    · split
      · rw [pollers_schedule, pollers_schedule]
      · rw [pollers_schedule]
    · split
      · rw [pollers_schedule]
      · rfl
  | error fd ok =>
    obtain ⟨p, hlookup, hc, rfl⟩ := step_error hstep
    refine ⟨calm_onPollError.nextHandle, fun g d' => .inl ?_⟩
    rw [State.onPollError]
    by_cases hg : g = fd
    · subst hg
      have hne : Poller.interest { p with events := .none } ≠ .none := hi.live hc g p hlookup
      rw [registration_rearm fun hnone => absurd hnone hne, registration_of_some hlookup]
      cases d' <;> rfl
    · rw [registration_rearm_ne hg]
      exact registration_congr (by rw [pollers_schedule, pollers_schedule]; rfl) g d'
  | run =>
    obtain ⟨x, rest, -, -, rfl⟩ := step_run hstep
    simp only [State.runReady]
    split
    · exact ⟨le_rfl, fun _ _ => .inl rfl⟩
    · exact ⟨le_rfl, fun _ _ => .inl rfl⟩
  | close fds =>
    obtain ⟨-, ⟨⟩⟩ := Option.ite_none_right_eq_some.mp hstep
    exact ⟨le_rfl, fun _ _ => .inl rfl⟩
  | next =>
    obtain ⟨a, todo, -, rfl⟩ := step_next hstep
    exact fewer_act a todo

/-! ## Operations -/

/-- How far a `sock_*` operation has come that has registered a callback. -/
inductive Phase where
  /-- It waits for its future. -/
  | waiting
  /-- The future is done, or the task is cancelled; the cleanup is yet to come. -/
  | settled
  /-- It is over. -/
  | over
deriving DecidableEq, Repr

/-- A `sock_*` operation that has registered a callback. -/
structure Operation where
  /-- Its descriptor. -/
  fd : Fd
  /-- Whether it reads or writes. -/
  d : Direction
  /-- The handle it has registered. -/
  handle : ℕ
  /-- How far it has come. -/
  phase : Phase
deriving DecidableEq, Repr

/-- How `add_reader` or `add_writer` ends within `_watch`. -/
inductive Outcome where
  /-- It returns. -/
  | added
  /-- It raises since `uv_poll_start` fails, with the handle registered. The vendored libuv has no
  such case (see `FailedStart`). -/
  | notStarted
  /-- It raises before it registers anything. -/
  | refused
deriving DecidableEq, Repr

/-- The loop, as far as `sock_*` operations go. -/
structure Sockets where
  /-- The readers and writers. -/
  registry : State
  /-- `_sock_watchers` -/
  watchers : Fd × Direction → Option ℕ
  /-- The operations that have registered a callback, by their tokens. -/
  operations : ℕ → Option Operation
  /-- The next token. -/
  nextToken : ℕ

namespace Sockets

/-- Enter or change an operation. -/
def setOperation (s : Sockets) (token : ℕ) (op : Operation) : Sockets :=
  { s with operations := Function.update s.operations token (some op) }

/-- Enter or delete a token. -/
def setWatcher (s : Sockets) (fd : Fd) (d : Direction) (token : Option ℕ) : Sockets :=
  { s with watchers := Function.update s.watchers (fd, d) token }

section update

variable (t : Sockets) (fd : Fd) (d : Direction) (op : Operation) (entry : Option ℕ)
  {k : Fd × Direction} {i token : ℕ}

@[simp]
theorem operations_setOperation_self :
    (t.setOperation token op).operations token = some op := Function.update_self ..

theorem operations_setOperation_ne (hi : i ≠ token) :
    (t.setOperation token op).operations i = t.operations i := Function.update_of_ne hi ..

@[simp]
theorem watchers_setWatcher_self : (t.setWatcher fd d entry).watchers (fd, d) = entry :=
  Function.update_self ..

theorem watchers_setWatcher_ne (hk : k ≠ (fd, d)) :
    (t.setWatcher fd d entry).watchers k = t.watchers k := Function.update_of_ne hk ..

end update

/-- `_watch`: the token is entered first, and stays when the registration fails. Then there is
nothing to clean up, since the operation has not come to its `try`. -/
def watch (s : Sockets) (fd : Fd) (d : Direction) (outcome : Outcome) : Sockets :=
  let token := s.nextToken
  let handle := s.registry.nextHandle
  let s := { s with nextToken := token + 1 }.setWatcher fd d (some token)
  match outcome with
  | .added =>
    { s with registry := s.registry.add fd d true }.setOperation token ⟨fd, d, handle, .waiting⟩
  | .notStarted =>
    { s with registry := s.registry.add fd d false }.setOperation token ⟨fd, d, handle, .over⟩
  | .refused => s

section watch

variable (t : Sockets) (fd : Fd) (d : Direction) (outcome : Outcome) {k : Fd × Direction}
  {token : ℕ}

theorem watchers_watch_self : (t.watch fd d outcome).watchers (fd, d) = some t.nextToken := by
  cases outcome <;> exact Function.update_self ..

theorem watchers_watch_ne (hk : k ≠ (fd, d)) :
    (t.watch fd d outcome).watchers k = t.watchers k := by
  cases outcome <;> exact Function.update_of_ne hk ..

theorem operations_watch_self : (t.watch fd d .added).operations t.nextToken =
    some ⟨fd, d, t.registry.nextHandle, .waiting⟩ := Function.update_self ..

theorem operations_watch_ne (htoken : token ≠ t.nextToken) :
    (t.watch fd d outcome).operations token = t.operations token := by
  cases outcome
  case refused => rfl
  all_goals exact Function.update_of_ne htoken ..

end watch

/-- `_unwatch`, at the end of an operation; `ok` is what `uv_poll_start` returns, if `remove_reader`
or `remove_writer` comes to it. -/
def unwatch (s : Sockets) (token : ℕ) (op : Operation) (ok : Bool) : Sockets :=
  let s := s.setOperation token { op with phase := .over }
  if s.watchers (op.fd, op.d) = some token then
    { s.setWatcher op.fd op.d none with registry := s.registry.remove op.fd op.d ok }
  else s

end Sockets

/-- What can happen next. -/
inductive SockLabel where
  /-- An operation registers a callback. -/
  | watch (fd : Fd) (d : Direction) (outcome : Outcome)
  /-- The future of an operation is done, or its task is cancelled. -/
  | settle (token : ℕ)
  /-- The cleanup of an operation. -/
  | unwatch (token : ℕ) (ok : Bool)
  /-- Anything else: a direct call, an event, a finalizer, the end of the loop. -/
  | other (l : Label)
deriving DecidableEq

/-- One step. -/
def sockStep (s : Sockets) : SockLabel → Option Sockets
  | .watch fd d outcome =>
    if s.registry.closed ∧ outcome ≠ .refused then none else some (s.watch fd d outcome)
  | .settle token =>
    match s.operations token with
    | some op =>
      if op.phase = .waiting then some (s.setOperation token { op with phase := .settled })
      else none
    | none => none
  | .unwatch token ok =>
    match s.operations token with
    | some op => if op.phase = .settled then some (s.unwatch token op ok) else none
    | none => none
  | .other l => (machine.step s.registry l).map fun registry => { s with registry }

/-- A new loop, with its `sock_*` operations. -/
def sockets : Machine Sockets SockLabel where
  init := ⟨machine.init, fun _ => none, fun _ => none, 0⟩
  step := sockStep

/-- The operation that `_sock_watchers` has for a descriptor, unless it is over. -/
def Sockets.watched (s : Sockets) (fd : Fd) (d : Direction) : Option Operation :=
  ((s.watchers (fd, d)).bind s.operations).filter fun op => op.phase ≠ .over

/-- No direct call of `add_reader` or `add_writer` is made while an operation has its token in the
table for the same descriptor; and a registration within `_watch` does not fail half way, which
libuv sees to, nor while such an operation has its callback registered. -/
def Undisturbed (s : Sockets) : SockLabel → Prop
  | .other (.add fd d _) => s.watched fd d = none
  | .watch _ _ .notStarted => False
  | .watch fd d .refused =>
    ∀ op ∈ s.watched fd d, s.registry.registration fd d ≠ some op.handle
  | .watch _ _ .added | .settle _ | .unwatch _ _ | .other _ => True

instance : DecidableRel Undisturbed := fun s l => by
  unfold Undisturbed
  split <;> infer_instance

/-! ## The invariant -/

/-- What holds as long as nothing disturbs the operations. -/
structure SockInv (s : Sockets) : Prop where
  /-- The registry is in order. -/
  registry : Inv s.registry
  /-- The tokens in use. -/
  operations : ∀ token op, s.operations token = some op →
    token < s.nextToken ∧ op.handle < s.registry.nextHandle
  /-- The tokens in the table. -/
  watchers : ∀ fd d token, s.watchers (fd, d) = some token → token < s.nextToken
  /-- An operation whose callback is still registered has its token in the table. -/
  current : ∀ token op, s.operations token = some op →
    s.registry.registration op.fd op.d = some op.handle →
      s.watchers (op.fd, op.d) = some token ∧ op.phase ≠ .over
  /-- An operation that has its token in the table is alone with its descriptor. -/
  own : ∀ token op, s.operations token = some op → op.phase ≠ .over →
    s.watchers (op.fd, op.d) = some token →
      s.registry.registration op.fd op.d = none ∨
        s.registry.registration op.fd op.d = some op.handle

variable {t t' : Sockets} {op : Operation} {k : SockLabel}

/-- An operation that has its token in the table is the one that is watched. -/
theorem watched_of_watchers (hop : t.operations token = some op) (hphase : op.phase ≠ .over)
    (hwatch : t.watchers (op.fd, op.d) = some token) : t.watched op.fd op.d = some op := by
  rw [Sockets.watched, hwatch, Option.bind_some, hop, Option.filter_some]
  exact if_pos (decide_eq_true hphase)

namespace SockInv

/-- What registers nothing keeps the invariant. -/
theorem fewer (hi : SockInv t) {registry : State} (hinv : Inv registry)
    (hf : Fewer t.registry registry) : SockInv { t with registry } := by
  refine ⟨hinv, fun token op hop => ?_, hi.watchers, fun token op hop hreg => ?_,
    fun token op hop hphase hwatch => ?_⟩
  · exact (hi.operations token op hop).imp_right fun hlt => Nat.lt_of_lt_of_le hlt hf.nextHandle
  · refine hi.current token op hop ?_
    rcases hf.registration op.fd op.d with hsame | hnone
    · exact hsame.symm.trans hreg
    · exact absurd (hreg.symm.trans hnone) (Option.some_ne_none _)
  · rcases hf.registration op.fd op.d with hsame | hnone
    · rw [hsame]
      exact hi.own token op hop hphase hwatch
    · exact .inl hnone

/-- A direct call of `add_reader` or `add_writer` that supersedes no operation. -/
theorem add (hi : SockInv t) (hc : t.registry.closed = false) (hok : t.watched fd d = none) :
    SockInv { t with registry := t.registry.add fd d ok } := by
  have hnext : (t.registry.add fd d ok).nextHandle = t.registry.nextHandle + 1 := added.nextHandle
  refine ⟨hi.registry.add hc fd d ok, fun token op hop => ?_, hi.watchers,
    fun token op hop hreg => ?_, fun token op hop hphase hwatch => ?_⟩
  · obtain ⟨htoken, hlt⟩ := hi.operations token op hop
    exact ⟨htoken, by rw [hnext]; exact Nat.lt_succ_of_lt hlt⟩
  · by_cases hplace : (op.fd, op.d) = (fd, d)
    · -- the operation has an older handle
      cases hplace
      rw [registration_add, Option.some.injEq] at hreg
      exact absurd hreg.symm (Nat.ne_of_lt (hi.operations token op hop).2)
    · exact hi.current token op hop ((registration_add_ne hplace).symm.trans hreg)
  · by_cases hplace : (op.fd, op.d) = (fd, d)
    · cases hplace
      have hwatched : t.watched op.fd op.d = some op := watched_of_watchers hop hphase hwatch
      exact absurd (hwatched.symm.trans hok) (Option.some_ne_none _)
    · rw [registration_add_ne hplace]
      exact hi.own token op hop hphase hwatch

/-- Tokens in the table after `_watch`. -/
theorem watchers_watch (hi : SockInv t) {outcome : Outcome}
    (hwatch : (t.watch fd d outcome).watchers (g, d') = some token) : token < t.nextToken + 1 := by
  by_cases hplace : (g, d') = (fd, d)
  · rw [hplace, Sockets.watchers_watch_self, Option.some.injEq] at hwatch
    exact hwatch ▸ Nat.lt_succ_self _
  · rw [Sockets.watchers_watch_ne _ _ _ _ hplace] at hwatch
    exact Nat.lt_succ_of_lt (hi.watchers g d' token hwatch)

/-- An older operation does not have its token in the table where one has just registered. -/
theorem place_ne (hi : SockInv t) {outcome : Outcome} (hop : t.operations token = some op)
    (hwatch : (t.watch fd d outcome).watchers (op.fd, op.d) = some token) :
    (op.fd, op.d) ≠ (fd, d) := by
  intro hplace
  rw [hplace, Sockets.watchers_watch_self, Option.some.injEq] at hwatch
  exact Nat.lt_irrefl _ (hwatch ▸ (hi.operations token op hop).1)

/-- An operation registers its callback, whatever was registered before. -/
theorem watch_added (hi : SockInv t) (hc : t.registry.closed = false) :
    SockInv (t.watch fd d .added) := by
  have hnext : (t.registry.add fd d true).nextHandle = t.registry.nextHandle + 1 :=
    added.nextHandle
  have hold (token : ℕ) (op : Operation)
      (hop : (t.watch fd d .added).operations token = some op) :
      token = t.nextToken ∧ op = ⟨fd, d, t.registry.nextHandle, .waiting⟩ ∨
        t.operations token = some op := by
    by_cases htoken : token = t.nextToken
    · rw [htoken, Sockets.operations_watch_self, Option.some.injEq] at hop
      exact .inl ⟨htoken, hop.symm⟩
    · rw [Sockets.operations_watch_ne _ _ _ _ htoken] at hop
      exact .inr hop
  refine ⟨hi.registry.add hc fd d true, fun token op hop => ?_, fun g d' token hwatch => ?_,
    fun token op hop hreg => ?_, fun token op hop hphase hwatch => ?_⟩
  · rcases hold token op hop with ⟨rfl, rfl⟩ | hop₀
    · exact ⟨Nat.lt_succ_self _, hnext ▸ Nat.lt_succ_self _⟩
    · obtain ⟨htoken, hlt⟩ := hi.operations token op hop₀
      exact ⟨Nat.lt_succ_of_lt htoken, hnext ▸ Nat.lt_succ_of_lt hlt⟩
  · exact hi.watchers_watch hwatch
  · rcases hold token op hop with ⟨rfl, rfl⟩ | hop₀
    · exact ⟨t.watchers_watch_self .., nofun⟩
    · have hplace : (op.fd, op.d) ≠ (fd, d) := by
        intro hplace
        cases hplace
        -- the new handle is registered in the place of the old one
        have hnew := (registration_add t.registry op.fd op.d true).symm.trans hreg
        exact absurd (Option.some.inj hnew).symm (Nat.ne_of_lt (hi.operations token op hop₀).2)
      rw [Sockets.watchers_watch_ne _ _ _ _ hplace]
      exact hi.current token op hop₀ ((registration_add_ne hplace).symm.trans hreg)
  · rcases hold token op hop with ⟨rfl, rfl⟩ | hop₀
    · exact .inr (registration_add t.registry fd d true)
    · have hplace := hi.place_ne hop₀ hwatch
      have hsame : (t.watch fd d .added).registry.registration op.fd op.d =
          t.registry.registration op.fd op.d := registration_add_ne hplace
      rw [Sockets.watchers_watch_ne _ _ _ _ hplace] at hwatch
      rw [hsame]
      exact hi.own token op hop₀ hphase hwatch

/-- A registration that is refused leaves its token in the table, in the place of an operation that
is not registered any more. -/
theorem watch_refused (hi : SockInv t)
    (hok : ∀ op ∈ t.watched fd d, t.registry.registration fd d ≠ some op.handle) :
    SockInv (t.watch fd d .refused) := by
  refine ⟨hi.registry, fun token op hop => ?_, fun g d' token hwatch => ?_,
    fun token op hop hreg => ?_, fun token op hop hphase hwatch => ?_⟩
  · exact (hi.operations token op hop).imp_left Nat.lt_succ_of_lt
  · exact hi.watchers_watch hwatch
  · obtain ⟨hwatch, hphase⟩ := hi.current token op hop hreg
    have hplace : (op.fd, op.d) ≠ (fd, d) := by
      intro hplace
      cases hplace
      exact hok op (watched_of_watchers hop hphase hwatch) hreg
    exact ⟨(t.watchers_watch_ne fd d _ hplace).trans hwatch, hphase⟩
  · have hplace := hi.place_ne hop hwatch
    rw [Sockets.watchers_watch_ne _ _ _ _ hplace] at hwatch
    exact hi.own token op hop hphase hwatch

/-- The phase of an operation that is not over changes. -/
theorem settle (hi : SockInv t) (hop : t.operations token = some op)
    (hphase : op.phase = .waiting) :
    SockInv (t.setOperation token { op with phase := .settled }) := by
  have hold (i : ℕ) (op' : Operation)
      (hop' : (t.setOperation token { op with phase := .settled }).operations i = some op') :
      ∃ op₀, t.operations i = some op₀ ∧ op'.fd = op₀.fd ∧ op'.d = op₀.d ∧
        op'.handle = op₀.handle ∧ (op'.phase ≠ .over ↔ op₀.phase ≠ .over) := by
    by_cases hi : i = token
    · subst hi
      rw [Sockets.operations_setOperation_self, Option.some.injEq] at hop'
      subst hop'
      exact ⟨op, hop, rfl, rfl, rfl, by simp [hphase]⟩
    · rw [Sockets.operations_setOperation_ne _ _ hi] at hop'
      exact ⟨op', hop', rfl, rfl, rfl, Iff.rfl⟩
  refine ⟨hi.registry, fun i op' hop' => ?_, hi.watchers, fun i op' hop' hreg => ?_,
    fun i op' hop' hphase' hwatch => ?_⟩
  · obtain ⟨op₀, hop₀, -, -, hhandle, -⟩ := hold i op' hop'
    rw [hhandle]
    exact hi.operations i op₀ hop₀
  · obtain ⟨op₀, hop₀, hfd, hd, hhandle, hp⟩ := hold i op' hop'
    rw [hfd, hd, hhandle] at hreg
    rw [hfd, hd, hp]
    exact hi.current i op₀ hop₀ hreg
  · obtain ⟨op₀, hop₀, hfd, hd, hhandle, hp⟩ := hold i op' hop'
    rw [hfd, hd] at hwatch
    rw [hfd, hd, hhandle]
    exact hi.own i op₀ hop₀ (hp.mp hphase') hwatch

/-- The cleanup of an operation. -/
theorem unwatch (hi : SockInv t) (hop : t.operations token = some op) (ok : Bool) :
    SockInv (t.unwatch token op ok) := by
  have hold (i : ℕ) (op' : Operation)
      (hop' : (t.setOperation token { op with phase := .over }).operations i = some op') :
      (i = token ∧ op' = { op with phase := .over }) ∨ i ≠ token ∧ t.operations i = some op' := by
    by_cases hi : i = token
    · subst hi
      rw [Sockets.operations_setOperation_self, Option.some.injEq] at hop'
      exact .inl ⟨rfl, hop'.symm⟩
    · rw [Sockets.operations_setOperation_ne _ _ hi] at hop'
      exact .inr ⟨hi, hop'⟩
  have hbound (i : ℕ) (op' : Operation)
      (hop' : (t.setOperation token { op with phase := .over }).operations i = some op') :
      i < t.nextToken ∧ op'.handle < t.registry.nextHandle := by
    rcases hold i op' hop' with ⟨rfl, rfl⟩ | ⟨-, hop'⟩
    · exact hi.operations i op hop
    · exact hi.operations i op' hop'
  rw [Sockets.unwatch]
  dsimp only
  split
  · have hnone : (t.registry.remove op.fd op.d ok).registration op.fd op.d = none :=
      registration_remove hi.registry
    -- the token leaves the table
    have hgone : (t.setWatcher op.fd op.d none).watchers (op.fd, op.d) = none :=
      t.watchers_setWatcher_self ..
    have hother {place : Fd × Direction} (hplace : place ≠ (op.fd, op.d)) :
        (t.setWatcher op.fd op.d none).watchers place = t.watchers place :=
      t.watchers_setWatcher_ne _ _ _ hplace
    refine ⟨hi.registry.remove op.fd op.d ok, fun i op' hop' => ?_, fun g d' i hwatch => ?_,
      fun i op' hop' hreg => ?_, fun i op' hop' hphase hwatch => ?_⟩
    · exact (hbound i op' hop').imp_right
        fun hlt => Nat.lt_of_lt_of_le hlt calm_remove.nextHandle
    · by_cases hplace : (g, d') = (op.fd, op.d)
      · rw [hplace] at hwatch
        exact absurd (hgone.symm.trans hwatch).symm (Option.some_ne_none _)
      · exact hi.watchers g d' i ((hother hplace).symm.trans hwatch)
    · have hplace : (op'.fd, op'.d) ≠ (op.fd, op.d) := by
        intro hplace
        obtain ⟨hfd, hd⟩ := Prod.mk.inj hplace
        rw [hfd, hd] at hreg
        exact absurd (hreg.symm.trans hnone) (Option.some_ne_none _)
      rcases hold i op' hop' with ⟨rfl, rfl⟩ | ⟨-, hop'⟩
      · exact absurd rfl hplace
      · obtain ⟨hwatch, hphase⟩ := hi.current i op' hop'
          ((registration_remove_ne hi.registry hplace).symm.trans hreg)
        exact ⟨(hother hplace).trans hwatch, hphase⟩
    · have hplace : (op'.fd, op'.d) ≠ (op.fd, op.d) := by
        intro hplace
        rw [hplace] at hwatch
        exact absurd (hgone.symm.trans hwatch).symm (Option.some_ne_none _)
      rcases hold i op' hop' with ⟨rfl, rfl⟩ | ⟨-, hop'⟩
      · exact absurd rfl hplace
      · have hsame : (t.registry.remove op.fd op.d ok).registration op'.fd op'.d =
            t.registry.registration op'.fd op'.d := registration_remove_ne hi.registry hplace
        have hown := hi.own i op' hop' hphase ((hother hplace).symm.trans hwatch)
        exact hsame.symm ▸ hown
  · rename_i hne
    refine ⟨hi.registry, hbound, hi.watchers, fun i op' hop' hreg => ?_,
      fun i op' hop' hphase hwatch => ?_⟩
    · rcases hold i op' hop' with ⟨rfl, rfl⟩ | ⟨-, hop'⟩
      · -- a callback that is still registered has its token in the table
        exact absurd (hi.current i op hop hreg).1 hne
      · exact hi.current i op' hop' hreg
    · rcases hold i op' hop' with ⟨rfl, rfl⟩ | ⟨-, hop'⟩
      · exact absurd rfl hphase
      · exact hi.own i op' hop' hphase hwatch

/-- Every step that disturbs no operation keeps the invariant. -/
theorem step (hi : SockInv t) (hok : Undisturbed t k) (hstep : sockets.step t k = some t') :
    SockInv t' := by
  cases k with
  | watch fd d outcome =>
    obtain ⟨hc, ⟨⟩⟩ := Option.ite_none_left_eq_some.mp hstep
    cases outcome with
    | added =>
      apply hi.watch_added
      rw [not_and, Decidable.not_not] at hc
      by_contra hclosed
      cases hc (Bool.not_eq_false _ ▸ hclosed)
    | notStarted => exact hok.elim
    | refused => exact hi.watch_refused hok
  | settle token =>
    simp only [sockets, sockStep] at hstep
    split at hstep
    · obtain ⟨hphase, ⟨⟩⟩ := Option.ite_none_right_eq_some.mp hstep
      exact hi.settle ‹_› hphase
    · cases hstep
  | unwatch token ok =>
    simp only [sockets, sockStep] at hstep
    split at hstep
    · obtain ⟨-, ⟨⟩⟩ := Option.ite_none_right_eq_some.mp hstep
      exact hi.unwatch ‹_› ok
    · cases hstep
  | other l =>
    obtain ⟨registry, hl, ⟨⟩⟩ := Option.map_eq_some_iff.mp hstep
    cases l with
    | add fd d ok =>
      obtain ⟨hc, rfl⟩ := step_add hl
      exact hi.add hc hok
    | _ => exact hi.fewer (hi.registry.step hl) (fewer_step hi.registry hl fun _ _ _ => nofun)

end SockInv

theorem sockInv_of_reachable {s : Sockets} (h : sockets.Reachable Undisturbed s) : SockInv s := by
  refine h.invariant ?_ fun s s' l _ hi hok hstep => hi.step hok hstep
  refine ⟨Inv.init, fun token op hop => ?_, fun fd d token hwatch => ?_,
    fun token op hop => ?_, fun token op hop => ?_⟩
  · cases hop
  · cases hwatch
  · cases hop
  · cases hop

/-! ## Whose registration an operation takes back -/

/-- An operation that is over is registered nowhere, and a cleanup takes back what the operation
has registered, if it is still registered, and nothing else. -/
def CleanupOwn (s : Sockets) : Prop :=
  (∀ token op, s.operations token = some op → op.phase = .over →
    s.registry.registration op.fd op.d ≠ some op.handle) ∧
  ∀ token op ok s', s.operations token = some op →
    sockets.step s (.unwatch token ok) = some s' →
      s'.registry.registration op.fd op.d ≠ some op.handle ∧
        ∀ fd d, s.registry.registration fd d ≠ some op.handle →
          s'.registry.registration fd d = s.registry.registration fd d

/-- The registrations after a cleanup. -/
theorem SockInv.registration_unwatch (hi : SockInv t) (hop : t.operations token = some op)
    (hphase : op.phase ≠ .over) (ok : Bool) (hreg : t.registry.registration fd d ≠ some op.handle) :
    (t.unwatch token op ok).registry.registration fd d = t.registry.registration fd d := by
  rw [Sockets.unwatch]
  dsimp only
  split
  · rename_i hwatch
    change (t.registry.remove op.fd op.d ok).registration fd d = _
    by_cases hplace : (fd, d) = (op.fd, op.d)
    · -- the token is there, and so nobody else is
      obtain ⟨rfl, rfl⟩ := Prod.mk.inj hplace
      rw [registration_remove hi.registry]
      exact ((hi.own token op hop hphase hwatch).resolve_right hreg).symm
    · exact registration_remove_ne hi.registry hplace
  · rfl

/-- As long as nobody disturbs them, the operations take back their own registrations and leave
those of others alone, however late they do so. -/
theorem sock_cleanup_own {s : Sockets} (h : sockets.Reachable Undisturbed s) : CleanupOwn s := by
  have hi := sockInv_of_reachable h
  refine ⟨fun token op hop hover hreg => (hi.current token op hop hreg).2 hover,
    fun token op ok s' hop hstep => ?_⟩
  have hi' : SockInv s' := hi.step (k := .unwatch token ok) trivial hstep
  obtain ⟨hphase, rfl⟩ : op.phase = .settled ∧ s.unwatch token op ok = s' := by
    simpa [sockets, sockStep, hop] using hstep
  have hnot : op.phase ≠ .over := by simp [hphase]
  refine ⟨fun hreg => ?_, fun fd d hreg => hi.registration_unwatch hop hnot ok hreg⟩
  -- afterwards the operation is over
  have hafter : (s.unwatch token op ok).operations token = some { op with phase := .over } := by
    rw [Sockets.unwatch]
    dsimp only
    split <;> exact Sockets.operations_setOperation_self ..
  exact (hi'.current token _ hafter hreg).2 rfl

/-- The second operation is registered when the first one, which is cancelled, cleans up. -/
theorem sock_cleanup_own_late : ∃ s s', sockets.play Undisturbed [.watch 5 .reader .added,
      .settle 0, .watch 5 .reader .added] sockets.init = some s ∧
    sockets.step s (.unwatch 0 true) = some s' ∧
      s'.registry.registration 5 .reader = some 1 := by
  obtain ⟨s, s', hs, hs', hop, hreg⟩ : ∃ s s', sockets.play Undisturbed
      [.watch 5 .reader .added, .settle 0, .watch 5 .reader .added] sockets.init = some s ∧
      sockets.step s (.unwatch 0 true) = some s' ∧
      s.operations 0 = some ⟨5, .reader, 0, .settled⟩ ∧
      s.registry.registration 5 .reader = some 1 := ⟨_, _, rfl, rfl, rfl, rfl⟩
  have hown := (sock_cleanup_own (Machine.Reachable.init.play hs)).2 0 _ true s' hop hs'
  refine ⟨s, s', hs, hs', (hown.2 5 .reader ?_).trans hreg⟩
  rw [hreg]
  decide

/-- A callback that `add_reader` registers while an operation waits is taken back with it. -/
theorem not_sock_cleanup_own :
    ¬∀ s, sockets.Reachable (fun _ _ => True) s → CleanupOwn s := by
  intro h
  obtain ⟨s, s', hs, hs', hop, hreg, hreg'⟩ : ∃ s s', sockets.play (fun _ _ => True)
      [.watch 5 .reader .added, .other (.add 5 .reader true), .settle 0] sockets.init = some s ∧
      sockets.step s (.unwatch 0 true) = some s' ∧
      s.operations 0 = some ⟨5, .reader, 0, .settled⟩ ∧
      s.registry.registration 5 .reader = some 1 ∧
      s'.registry.registration 5 .reader = none := ⟨_, _, rfl, rfl, rfl, rfl, rfl⟩
  have hown := (h s (Machine.Reachable.init.play hs)).2 0 _ true s' hop hs'
  have hsame := hown.2 5 .reader (by rw [hreg]; decide)
  rw [hreg, hreg'] at hsame
  cases hsame

end Zuvloop.Polling
