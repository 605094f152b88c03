import Mathlib.Data.List.Nodup
import Mathlib.Order.Nat
import Zuvloop.Transition

/-!
# The process reaper

`ProcessReaper` of `zuvloop/_process.py`, the thread that polls every child started through
`subprocess.Popen`, with what else polls a child, `send_signal` on a loop's thread, and the kernel,
which may give the pid of a reaped child to a new one.

Children are numbered in the order they are spawned. `poll` finds a child running, reaps it, or
returns what an earlier poll has stored; while another thread is inside `poll` it finds out nothing.
That `waitpid` and the assignment of `returncode` come in one step is an assumption: in between, the
pid is free already, and another child could be started and registered under it. The pause between
two scans is left out, since a scan may start at any time.

## Main definitions

* `State.set`, `State.delete`: the registry, a dictionary in insertion order.
* `machine`: what the threads and the kernel do, one lock section or one poll at a time.
* `Unclobbered`: no child is registered over one that the reaper would not get to.

## Main results

* `exits_delivered`: the exits of children that were not registered over are delivered, once.
* `exit_lost`: that of a child reaped by `send_signal` and then registered over never is.
-/

namespace Zuvloop.Process

open Transition

/-! ## Children -/

/-- The life of a child. -/
inductive Life where
  /-- It runs. -/
  | running
  /-- It has terminated, and nobody has waited for it. -/
  | exited (code : Int)
  /-- It has been waited for: `returncode` is set and the pid is free. -/
  | reaped (code : Int)
deriving DecidableEq

/-- The exit code of a child that has terminated. -/
def Life.code? : Life → Option Int
  | running => none
  | exited code | reaped code => some code

/-- The child has been waited for. -/
def Life.isReaped : Life → Bool
  | reaped _ => true
  | _ => false

/-- A child process, with its wrapper. -/
structure Child where
  /-- The process id. -/
  pid : ℕ
  /-- The loop of the wrapper. -/
  loop : ℕ
  /-- The life of the process. -/
  life : Life
  /-- `register` has been called. -/
  registered : Bool

/-- A call of `call_soon_threadsafe(wrapper.exited, returncode)`. -/
structure Call where
  /-- The child of the wrapper. -/
  child : ℕ
  /-- The exit code. -/
  code : Int
  /-- The loop took it, as it was open. -/
  taken : Bool
deriving DecidableEq

/-! ## The registry -/

/-- `processes`: a dictionary from pids to children, in insertion order. -/
abbrev Registry := List (ℕ × ℕ)

namespace Registry

/-- `processes[pid] = c`. A pid that is there keeps its place. -/
def set (r : Registry) (pid c : ℕ) : Registry :=
  if r.any (·.1 = pid) then r.map fun e => if e.1 = pid then (pid, c) else e else r ++ [(pid, c)]

/-- `processes.get(pid)`. -/
def get (r : Registry) (pid : ℕ) : Option ℕ := (r.find? (·.1 = pid)).map Prod.snd

/-- `del processes[pid]`. -/
def delete (r : Registry) (pid : ℕ) : Registry := r.filter (·.1 ≠ pid)

variable {r : Registry} {pid c : ℕ}

theorem mem_set {e : ℕ × ℕ} : e ∈ r.set pid c ↔ e = (pid, c) ∨ e ∈ r ∧ e.1 ≠ pid := by
  unfold set
  split
  · rename_i hany
    rw [List.mem_map]
    constructor
    · rintro ⟨e', he', rfl⟩
      split
      · exact .inl rfl
      · rename_i hne
        exact .inr ⟨he', hne⟩
    · rintro (rfl | ⟨he, hne⟩)
      · obtain ⟨e', he', hpid⟩ := List.any_eq_true.mp hany
        exact ⟨e', he', if_pos (of_decide_eq_true hpid)⟩
      · exact ⟨e, he, if_neg hne⟩
  · rename_i hany
    rw [List.mem_append, List.mem_singleton, or_comm]
    refine or_congr_right ⟨fun he => ⟨he, fun hpid => hany ?_⟩, And.left⟩
    exact List.any_eq_true.mpr ⟨e, he, decide_eq_true hpid⟩

theorem mem_delete {e : ℕ × ℕ} : e ∈ r.delete pid ↔ e ∈ r ∧ e.1 ≠ pid := by
  rw [delete, List.mem_filter, decide_eq_true_iff]

/-- A dictionary has every key once. -/
def Valid (r : Registry) : Prop := (r.map Prod.fst).Nodup

theorem Valid.eq_of_fst (h : Valid r) {e e' : ℕ × ℕ} (he : e ∈ r) (he' : e' ∈ r)
    (hfst : e.1 = e'.1) : e = e' := List.inj_on_of_nodup_map h he he' hfst

theorem Valid.set (h : Valid r) (pid c : ℕ) : Valid (r.set pid c) := by
  unfold Valid Registry.set
  split
  · have hkeys : (r.map fun e => if e.1 = pid then (pid, c) else e).map Prod.fst =
        r.map Prod.fst := by
      rw [List.map_map]
      refine List.map_congr_left fun e _ => ?_
      by_cases hpid : e.1 = pid
      · simp [hpid]
      · simp [hpid]
    rw [hkeys]
    exact h
  · rename_i hany
    rw [List.map_append, List.nodup_append']
    refine ⟨h, List.nodup_singleton _, fun p hp hpid => hany ?_⟩
    obtain ⟨e, he, rfl⟩ := List.mem_map.mp hp
    exact List.any_eq_true.mpr ⟨e, he, decide_eq_true (List.mem_singleton.mp hpid)⟩

theorem Valid.delete (h : Valid r) (pid : ℕ) : Valid (r.delete pid) :=
  h.sublist (List.filter_sublist.map _)

theorem Valid.get_eq_some (h : Valid r) : r.get pid = some c ↔ (pid, c) ∈ r := by
  rw [get, Option.map_eq_some_iff]
  constructor
  · rintro ⟨e, hfind, rfl⟩
    have hpid : e.1 = pid := by simpa using List.find?_some hfind
    subst hpid
    exact List.mem_of_find?_eq_some hfind
  · intro hmem
    have hsome : (r.find? (·.1 = pid)).isSome = true :=
      List.find?_isSome.mpr ⟨(pid, c), hmem, decide_eq_true rfl⟩
    obtain ⟨e, hfind⟩ := Option.isSome_iff_exists.mp hsome
    have hpid : e.1 = pid := by simpa using List.find?_some hfind
    exact ⟨e, hfind, congrArg Prod.snd (h.eq_of_fst (List.mem_of_find?_eq_some hfind) hmem hpid)⟩

end Registry

/-! ## The threads -/

/-- Where the reaper is. -/
inductive Reaper where
  /-- It has not started, waits for a child, or pauses. -/
  | waiting
  /-- It goes through a snapshot of the registry. -/
  | scanning (rest : Registry)
  /-- It has got the exit code of a child. -/
  | polled (pid c : ℕ) (code : Int) (rest : Registry)
  /-- It has dealt with the registry, and is about to call the loop. -/
  | removed (c : ℕ) (code : Int) (rest : Registry)

namespace Reaper

/-- What is left of the snapshot. -/
def rest : Reaper → Registry
  | waiting => []
  | scanning rest | polled _ _ _ rest | removed _ _ rest => rest

/-- The children that the reaper will get to in this scan. -/
def pending : Reaper → List ℕ
  | waiting => []
  | scanning rest => rest.map Prod.snd
  | polled _ c _ rest | removed c _ rest => c :: rest.map Prod.snd

theorem mem_pending_rest {r : Reaper} {e : ℕ × ℕ} (h : e ∈ r.rest) : e.2 ∈ r.pending := by
  have hmem : e.2 ∈ r.rest.map Prod.snd := List.mem_map_of_mem h
  cases r with
  | waiting => cases h
  | scanning rest => exact hmem
  | polled | removed => exact List.mem_cons_of_mem _ hmem

theorem mem_pending_polled {r : Reaper} {pid c : ℕ} {code : Int} {rest : Registry}
    (h : r = polled pid c code rest) : c ∈ r.pending := h ▸ List.mem_cons_self

theorem mem_pending_removed {r : Reaper} {c : ℕ} {code : Int} {rest : Registry}
    (h : r = removed c code rest) : c ∈ r.pending := h ▸ List.mem_cons_self

end Reaper

/-- The children, the registry and the reaper. -/
structure State where
  /-- The children. -/
  children : ℕ → Child
  /-- The number of children spawned so far. -/
  spawned : ℕ
  /-- `processes`. -/
  registry : Registry
  /-- The reaper. -/
  reaper : Reaper
  /-- The loops that have been closed. -/
  closed : ℕ → Bool
  /-- The calls of `call_soon_threadsafe`, oldest first. -/
  calls : List Call

/-- What happens next. -/
inductive Label where
  /-- The kernel starts a child. -/
  | spawn (pid loop : ℕ)
  /-- `ProcessReaper.register`. -/
  | register (c : ℕ)
  /-- A child terminates. -/
  | exit (c : ℕ) (code : Int)
  /-- `send_signal`, which polls the child first. -/
  | sendSignal (c : ℕ)
  /-- A loop is closed. -/
  | closeLoop (l : ℕ)
  /-- The reaper takes a snapshot of the registry. -/
  | scan
  /-- It polls the next child. -/
  | poll
  /-- It polls the next child while another thread does. -/
  | busy
  /-- It takes the child out of the registry, if it is still there. -/
  | remove
  /-- It calls the loop. -/
  | call
  /-- It is through with its snapshot. -/
  | finish

/-- The reaper does this, undisturbed. -/
def Label.isReaper : Label → Bool
  | .scan | .poll | .remove | .call | .finish => true
  | _ => false

namespace State

variable (s : State)

/-- Change a child. -/
def setChild (c : ℕ) (child : Child) : State :=
  { s with children := Function.update s.children c child }

/-- Set the life of a child. -/
def setLife (c : ℕ) (life : Life) : State := s.setChild c { s.children c with life }

variable {s} in
@[simp]
theorem children_setChild_self {c : ℕ} {child : Child} : (s.setChild c child).children c = child :=
  Function.update_self ..

variable {s} in
theorem children_setChild_of_ne {c d : ℕ} {child : Child} (hne : d ≠ c) :
    (s.setChild c child).children d = s.children d := Function.update_of_ne hne ..

/-- The kernel has no process with this id. -/
def pidFree (pid : ℕ) : Bool :=
  (List.range s.spawned).all fun c =>
    decide ((s.children c).pid ≠ pid) || (s.children c).life.isReaped

/-- `poll` returns an exit code, or none. -/
def pollChild (c : ℕ) : Option Int × State :=
  match (s.children c).life with
  | .running => (none, s)
  | .exited code => (some code, s.setLife c (.reaped code))
  | .reaped code => (some code, s)

/-- `poll` finds the child running, or knows its exit code afterwards. -/
theorem pollChild_cases (c : ℕ) :
    s.pollChild c = (none, s) ∧ (s.children c).life = .running ∨
      ∃ code s', s.pollChild c = (some code, s') ∧ (s'.children c).life = .reaped code ∧
        s'.reaper = s.reaper := by
  unfold pollChild
  split
  · rename_i hlife
    exact .inl ⟨rfl, hlife⟩
  · rename_i code _
    exact .inr ⟨code, _, rfl, congrArg Child.life children_setChild_self, rfl⟩
  · rename_i code hlife
    exact .inr ⟨code, s, rfl, hlife, rfl⟩

end State

/-- A step; `none` if it cannot be taken. -/
def step (s : State) : Label → Option State
  | .spawn pid loop =>
    if s.pidFree pid then
      some { s.setChild s.spawned ⟨pid, loop, .running, false⟩ with spawned := s.spawned + 1 }
    else none
  | .register c =>
    if c < s.spawned ∧ (s.children c).registered = false then
      some { s.setChild c { s.children c with registered := true } with
        registry := s.registry.set (s.children c).pid c }
    else none
  | .exit c code =>
    if c < s.spawned ∧ (s.children c).life = .running then some (s.setLife c (.exited code))
    else none
  | .sendSignal c =>
    if c < s.spawned ∧ (s.children c).registered = true then some (s.pollChild c).2 else none
  | .closeLoop l => some { s with closed := Function.update s.closed l true }
  | .scan =>
    match s.reaper with
    | .waiting => if s.registry = [] then none else some { s with reaper := .scanning s.registry }
    | _ => none
  | .poll =>
    match s.reaper with
    | .scanning ((pid, c) :: rest) =>
      match s.pollChild c with
      | (none, s') => some { s' with reaper := .scanning rest }
      | (some code, s') => some { s' with reaper := .polled pid c code rest }
    | _ => none
  | .busy =>
    match s.reaper with
    | .scanning ((_, c) :: rest) =>
      if (s.children c).life.isReaped then none else some { s with reaper := .scanning rest }
    | _ => none
  | .remove =>
    match s.reaper with
    | .polled pid c code rest =>
      some { s with
        registry := if s.registry.get pid = some c then s.registry.delete pid else s.registry
        reaper := .removed c code rest }
    | _ => none
  | .call =>
    match s.reaper with
    | .removed c code rest =>
      some { s with
        calls := s.calls ++ [⟨c, code, !s.closed (s.children c).loop⟩]
        reaper := .scanning rest }
    | _ => none
  | .finish =>
    match s.reaper with
    | .scanning [] => some { s with reaper := .waiting }
    | _ => none

/-- The reaper, the loops' threads and the kernel. -/
def machine : Machine State Label where
  init :=
    { children := fun _ => ⟨0, 0, .running, false⟩, spawned := 0, registry := [], reaper := .waiting
      closed := fun _ => false, calls := [] }
  step := step

/-- No child is registered over one that the reaper would not get to in this scan. -/
def Unclobbered (s : State) : Label → Prop
  | .register c => ∀ e ∈ s.registry, e.1 = (s.children c).pid → e.2 ∈ s.reaper.pending
  | _ => True

instance (s : State) : ∀ l, Decidable (Unclobbered s l)
  | .register c =>
    inferInstanceAs
      (Decidable (∀ e ∈ s.registry, e.1 = (s.children c).pid → e.2 ∈ s.reaper.pending))
  | .spawn .. | .exit .. | .sendSignal _ | .closeLoop _ | .scan | .poll | .busy | .remove | .call
  | .finish => .isTrue trivial

/-! ## The invariant -/

/-- What holds as long as nothing is registered over. -/
structure Inv (s : State) : Prop where
  /-- The registry is a dictionary. -/
  keys : s.registry.Valid
  /-- Its entries are registered children under their pid. -/
  entry : ∀ e ∈ s.registry, e.2 < s.spawned ∧ (s.children e.2).registered = true ∧
    (s.children e.2).pid = e.1
  /-- So are those of the snapshot. -/
  snapshot : ∀ e ∈ s.reaper.rest, (s.children e.2).pid = e.1
  /-- The reaper polls registered children. -/
  pending : ∀ c ∈ s.reaper.pending, c < s.spawned ∧ (s.children c).registered = true
  /-- The snapshot has every child once. -/
  distinct : s.reaper.pending.Nodup
  /-- A pid is used again only once its child has been waited for. -/
  pids : ∀ c d, c < d → d < s.spawned → (s.children c).pid = (s.children d).pid →
    (s.children c).life.isReaped = true
  /-- Nobody waits for a child that is not registered. -/
  early : ∀ c < s.spawned, (s.children c).registered = false →
    (s.children c).life.isReaped = false
  /-- The reaper has the exit code of the child it is about to report. -/
  polled : ∀ pid c code rest, s.reaper = .polled pid c code rest →
    (s.children c).pid = pid ∧ (s.children c).life = .reaped code
  /-- That child is out of the registry by the time of the call. -/
  removed : ∀ c code rest, s.reaper = .removed c code rest →
    (s.children c).life = .reaped code ∧ ∀ e ∈ s.registry, e.2 ≠ c
  /-- A call passes the exit code of its child, unless the loop is closed. -/
  call : ∀ k ∈ s.calls, k.child < s.spawned ∧ (s.children k.child).registered = true ∧
    (s.children k.child).life = .reaped k.code ∧
    (k.taken = true ∨ s.closed (s.children k.child).loop = true)
  /-- There is one call for a child. -/
  once : (s.calls.map Call.child).Nodup
  /-- After it the reaper has no more to do with the child. -/
  apart : ∀ k ∈ s.calls, k.child ∉ s.reaper.pending ∧ ∀ e ∈ s.registry, e.2 ≠ k.child
  /-- Until then it will get to the child. -/
  kept : ∀ c < s.spawned, (s.children c).registered = true → (∃ k ∈ s.calls, k.child = c) ∨
    (∃ e ∈ s.registry, e.2 = c) ∨
    (c ∈ s.reaper.pending ∧ (s.children c).life.isReaped = true)

namespace Inv

variable {s s' : State}

theorem init : Inv machine.init where
  keys := List.nodup_nil
  entry := nofun
  snapshot := nofun
  pending := nofun
  distinct := List.nodup_nil
  pids := nofun
  early := nofun
  polled := nofun
  removed := nofun
  call := nofun
  once := List.nodup_nil
  apart := nofun
  kept := nofun

/-- The life of a child goes on, but not back from being waited for. -/
theorem setLife (h : Inv s) {c : ℕ} {life : Life} (hc : c < s.spawned)
    (hlife : ∀ code, (s.children c).life = .reaped code → life = .reaped code)
    (hearly : life.isReaped = true → (s.children c).registered = true) :
    Inv (s.setLife c life) := by
  have hself : (s.setLife c life).children c = { s.children c with life } :=
    State.children_setChild_self
  have hother : ∀ d, d ≠ c → (s.setLife c life).children d = s.children d :=
    fun d => State.children_setChild_of_ne
  have hchild : ∀ d, ((s.setLife c life).children d).pid = (s.children d).pid ∧
      ((s.setLife c life).children d).loop = (s.children d).loop ∧
      ((s.setLife c life).children d).registered = (s.children d).registered := by
    intro d
    rcases eq_or_ne d c with rfl | hne
    · rw [hself]
      exact ⟨rfl, rfl, rfl⟩
    · rw [hother d hne]
      exact ⟨rfl, rfl, rfl⟩
  -- what has been waited for stays so
  have hreaped : ∀ d code, (s.children d).life = .reaped code →
      ((s.setLife c life).children d).life = .reaped code := by
    intro d code hd
    rcases eq_or_ne d c with rfl | hne
    · rw [hself]
      exact hlife code hd
    · rw [hother d hne]
      exact hd
  have hkept : ∀ d, (s.children d).life.isReaped = true →
      ((s.setLife c life).children d).life.isReaped = true := by
    intro d hd
    cases hl : (s.children d).life with
    | reaped code =>
      rw [hreaped d code hl]
      rfl
    | running | exited _ =>
      rw [hl] at hd
      cases hd
  exact
    { keys := h.keys
      entry := fun e he => by
        rw [(hchild e.2).1, (hchild e.2).2.2]
        exact h.entry e he
      snapshot := fun e he => (hchild e.2).1.trans (h.snapshot e he)
      pending := fun d hd => by
        rw [(hchild d).2.2]
        exact h.pending d hd
      distinct := h.distinct
      pids := fun a b hab hb hpid => by
        rw [(hchild a).1, (hchild b).1] at hpid
        exact hkept a (h.pids a b hab hb hpid)
      early := fun d hd hreg => by
        rw [(hchild d).2.2] at hreg
        rcases eq_or_ne d c with rfl | hne
        · rw [hself, ← Bool.not_eq_true]
          exact fun hr => absurd (hreg.symm.trans (hearly hr)) Bool.false_ne_true
        · rw [hother d hne]
          exact h.early d hd hreg
      polled := fun pid d code rest heq => by
        rw [(hchild d).1]
        exact (h.polled pid d code rest heq).imp_right (hreaped d code)
      removed := fun d code rest heq => (h.removed d code rest heq).imp_left (hreaped d code)
      call := fun k hk => by
        obtain ⟨h₁, h₂, h₃, h₄⟩ := h.call k hk
        rw [(hchild k.child).2.1, (hchild k.child).2.2]
        exact ⟨h₁, h₂, hreaped k.child k.code h₃, h₄⟩
      once := h.once
      apart := h.apart
      kept := fun d hd hreg => by
        rw [(hchild d).2.2] at hreg
        exact (h.kept d hd hreg).imp_right (Or.imp_right fun hp => ⟨hp.1, hkept d hp.2⟩) }

/-- Polling a registered child. -/
theorem pollChild (h : Inv s) {c : ℕ} (hc : c < s.spawned)
    (hreg : (s.children c).registered = true) : Inv (s.pollChild c).2 := by
  unfold State.pollChild
  split
  · exact h
  · rename_i code hlife
    refine h.setLife hc (fun code' hr => ?_) fun _ => hreg
    rw [hlife] at hr
    cases hr
  · exact h

/-- The reaper goes on, and leaves out only children that it need not get to. -/
theorem setReaper (h : Inv s) {r : Reaper} (hsnapshot : ∀ e ∈ r.rest, (s.children e.2).pid = e.1)
    (hpending : ∀ c ∈ r.pending, c < s.spawned ∧ (s.children c).registered = true)
    (hdistinct : r.pending.Nodup)
    (hpolled : ∀ pid c code rest, r = .polled pid c code rest →
      (s.children c).pid = pid ∧ (s.children c).life = .reaped code)
    (hremoved : ∀ c code rest, r = .removed c code rest →
      (s.children c).life = .reaped code ∧ ∀ e ∈ s.registry, e.2 ≠ c)
    (hapart : ∀ k ∈ s.calls, k.child ∉ r.pending)
    (hkept : ∀ c ∈ s.reaper.pending, (s.children c).life.isReaped = true → c ∈ r.pending) :
    Inv { s with reaper := r } where
  keys := h.keys
  entry := h.entry
  snapshot := hsnapshot
  pending := hpending
  distinct := hdistinct
  pids := h.pids
  early := h.early
  polled := hpolled
  removed := hremoved
  call := h.call
  once := h.once
  apart := fun k hk => ⟨hapart k hk, (h.apart k hk).2⟩
  kept := fun c hc hreg => (h.kept c hc hreg).imp_right
    (Or.imp_right fun hp => ⟨hkept c hp.1 hp.2, hp.2⟩)

theorem spawn (h : Inv s) {pid loop : ℕ} (hfree : s.pidFree pid = true) :
    Inv { s.setChild s.spawned ⟨pid, loop, .running, false⟩ with spawned := s.spawned + 1 } := by
  have hother : ∀ c < s.spawned,
      (s.setChild s.spawned ⟨pid, loop, .running, false⟩).children c = s.children c :=
    fun c hc => State.children_setChild_of_ne hc.ne
  have hfree : ∀ c < s.spawned, (s.children c).pid = pid →
      (s.children c).life.isReaped = true := by
    intro c hc hpid
    have hall := List.all_eq_true.mp hfree c (List.mem_range.mpr hc)
    rw [Bool.or_eq_true, decide_eq_true_iff] at hall
    exact hall.resolve_left fun hne => hne hpid
  exact
    { keys := h.keys
      entry := fun e he => by
        obtain ⟨h₁, h₂⟩ := h.entry e he
        refine ⟨Nat.lt_succ_of_lt h₁, ?_⟩
        change ((s.setChild _ _).children e.2).registered = true ∧ _
        rw [hother e.2 h₁]
        exact h₂
      snapshot := fun e he => by
        have hc := (h.pending e.2 (Reaper.mem_pending_rest he)).1
        change ((s.setChild _ _).children e.2).pid = e.1
        rw [hother e.2 hc]
        exact h.snapshot e he
      pending := fun c hc => by
        obtain ⟨h₁, h₂⟩ := h.pending c hc
        refine ⟨Nat.lt_succ_of_lt h₁, ?_⟩
        change ((s.setChild _ _).children c).registered = true
        rw [hother c h₁]
        exact h₂
      distinct := h.distinct
      pids := fun c d hcd hd hpid => by
        change ((s.setChild _ _).children c).pid = ((s.setChild _ _).children d).pid at hpid
        change ((s.setChild _ _).children c).life.isReaped = true
        have hc : c < s.spawned := hcd.trans_le (Nat.le_of_lt_succ hd)
        rw [hother c hc] at hpid ⊢
        rcases Nat.lt_succ_iff_lt_or_eq.mp hd with hlt | rfl
        · rw [hother d hlt] at hpid
          exact h.pids c d hcd hlt hpid
        · rw [State.children_setChild_self] at hpid
          exact hfree c hc hpid
      early := fun c hc hreg => by
        change ((s.setChild _ _).children c).registered = false at hreg
        change ((s.setChild _ _).children c).life.isReaped = false
        rcases Nat.lt_succ_iff_lt_or_eq.mp hc with hlt | rfl
        · rw [hother c hlt] at hreg ⊢
          exact h.early c hlt hreg
        · rw [State.children_setChild_self]
          rfl
      polled := fun p c code rest heq => by
        have hc := (h.pending c (Reaper.mem_pending_polled heq)).1
        change ((s.setChild _ _).children c).pid = p ∧ ((s.setChild _ _).children c).life = _
        rw [hother c hc]
        exact h.polled p c code rest heq
      removed := fun c code rest heq => by
        have hc := (h.pending c (Reaper.mem_pending_removed heq)).1
        change ((s.setChild _ _).children c).life = _ ∧ _
        rw [hother c hc]
        exact h.removed c code rest heq
      call := fun k hk => by
        obtain ⟨h₁, h₂⟩ := h.call k hk
        refine ⟨Nat.lt_succ_of_lt h₁, ?_⟩
        change ((s.setChild _ _).children k.child).registered = true ∧
          ((s.setChild _ _).children k.child).life = _ ∧
          (_ ∨ s.closed ((s.setChild _ _).children k.child).loop = true)
        rw [hother k.child h₁]
        exact h₂
      once := h.once
      apart := h.apart
      kept := fun c hc hreg => by
        change ((s.setChild _ _).children c).registered = true at hreg
        change _ ∨ _ ∨ _ ∧ ((s.setChild _ _).children c).life.isReaped = true
        rcases Nat.lt_succ_iff_lt_or_eq.mp hc with hlt | rfl
        · rw [hother c hlt] at hreg ⊢
          exact h.kept c hlt hreg
        · rw [State.children_setChild_self] at hreg
          cases hreg }

/-- Registering a child. The one it may replace has been waited for, and is still to be polled. -/
theorem register (h : Inv s) {c : ℕ} (hc : c < s.spawned) (hnew : (s.children c).registered = false)
    (hok : Unclobbered s (.register c)) :
    Inv { s.setChild c { s.children c with registered := true } with
      registry := s.registry.set (s.children c).pid c } := by
  have hself : (s.setChild c { s.children c with registered := true }).children c =
      { s.children c with registered := true } := State.children_setChild_self
  have hother : ∀ d, d ≠ c →
      (s.setChild c { s.children c with registered := true }).children d = s.children d :=
    fun d => State.children_setChild_of_ne
  have hchild : ∀ d,
      ((s.setChild c { s.children c with registered := true }).children d).pid =
        (s.children d).pid ∧
      ((s.setChild c { s.children c with registered := true }).children d).loop =
        (s.children d).loop ∧
      ((s.setChild c { s.children c with registered := true }).children d).life =
        (s.children d).life ∧
      ((s.children d).registered = true →
        ((s.setChild c { s.children c with registered := true }).children d).registered =
          true) := by
    intro d
    rcases eq_or_ne d c with rfl | hne
    · rw [hself]
      exact ⟨rfl, rfl, rfl, fun _ => rfl⟩
    · rw [hother d hne]
      exact ⟨rfl, rfl, rfl, id⟩
  have hne : ∀ d, (s.children d).registered = true → d ≠ c := by
    rintro d hd rfl
    exact absurd (hnew.symm.trans hd) Bool.false_ne_true
  exact
    { keys := h.keys.set _ _
      entry := fun e he => by
        rcases Registry.mem_set.mp he with rfl | ⟨he, -⟩
        · exact ⟨hc, congrArg Child.registered hself, (hchild c).1⟩
        · obtain ⟨h₁, h₂, h₃⟩ := h.entry e he
          exact ⟨h₁, (hchild e.2).2.2.2 h₂, (hchild e.2).1.trans h₃⟩
      snapshot := fun e he => (hchild e.2).1.trans (h.snapshot e he)
      pending := fun d hd => (h.pending d hd).imp_right (hchild d).2.2.2
      distinct := h.distinct
      pids := fun a b hab hb hpid => by
        change ((s.setChild _ _).children a).pid = ((s.setChild _ _).children b).pid at hpid
        rw [(hchild a).1, (hchild b).1] at hpid
        rw [(hchild a).2.2.1]
        exact h.pids a b hab hb hpid
      early := fun d hd hreg => by
        rcases eq_or_ne d c with rfl | hdc
        · rw [(hchild d).2.2.1]
          exact h.early d hd hnew
        · change ((s.setChild _ _).children d).registered = false at hreg
          change ((s.setChild _ _).children d).life.isReaped = false
          rw [hother d hdc] at hreg ⊢
          exact h.early d hd hreg
      polled := fun p d code rest heq => by
        rw [(hchild d).1, (hchild d).2.2.1]
        exact h.polled p d code rest heq
      removed := fun d code rest heq => by
        have hd := h.pending d (Reaper.mem_pending_removed heq)
        obtain ⟨h₁, h₂⟩ := h.removed d code rest heq
        refine ⟨(hchild d).2.2.1.trans h₁, fun e he => ?_⟩
        rcases Registry.mem_set.mp he with rfl | ⟨he, -⟩
        · exact (hne d hd.2).symm
        · exact h₂ e he
      call := fun k hk => by
        obtain ⟨h₁, h₂, h₃, h₄⟩ := h.call k hk
        refine ⟨h₁, (hchild k.child).2.2.2 h₂, (hchild k.child).2.2.1.trans h₃, ?_⟩
        rw [(hchild k.child).2.1]
        exact h₄
      once := h.once
      apart := fun k hk => by
        refine ⟨(h.apart k hk).1, fun e he => ?_⟩
        rcases Registry.mem_set.mp he with rfl | ⟨he, -⟩
        · exact (hne k.child (h.call k hk).2.1).symm
        · exact (h.apart k hk).2 e he
      kept := fun d hd hreg => by
        rw [(hchild d).2.2.1]
        rcases eq_or_ne d c with rfl | hdc
        · exact .inr (.inl ⟨_, Registry.mem_set.mpr (.inl rfl), rfl⟩)
        change ((s.setChild _ _).children d).registered = true at hreg
        rw [hother d hdc] at hreg
        rcases h.kept d hd hreg with hcall | ⟨e, he, rfl⟩ | hp
        · exact .inl hcall
        · by_cases hpid : e.1 = (s.children c).pid
          · -- `e.2` is replaced: its pid is used again
            have hsame : (s.children e.2).pid = (s.children c).pid := (h.entry e he).2.2.trans hpid
            refine .inr (.inr ⟨hok e he hpid, ?_⟩)
            rcases lt_or_gt_of_ne hdc with hlt | hgt
            · exact h.pids e.2 c hlt hc hsame
            · have hreaped := h.pids c e.2 hgt hd hsame.symm
              exact absurd (hreaped.symm.trans (h.early c hc hnew)) Bool.true_eq_false.mp
          · exact .inr (.inl ⟨e, Registry.mem_set.mpr (.inr ⟨he, hpid⟩), rfl⟩)
        · exact .inr (.inr hp) }

/-- The snapshot is the registry. -/
theorem scan (h : Inv s) (hwaiting : s.reaper = .waiting) :
    Inv { s with reaper := .scanning s.registry } := by
  refine h.setReaper (fun e he => (h.entry e he).2.2) (fun c hc => ?_) ?_ nofun nofun
    (fun k hk hmem => ?_) (fun c hc => ?_)
  · obtain ⟨e, he, rfl⟩ := List.mem_map.mp hc
    obtain ⟨h₁, h₂, -⟩ := h.entry e he
    exact ⟨h₁, h₂⟩
  · refine (List.nodup_map_iff_inj_on (List.Nodup.of_map _ h.keys)).mpr fun e he e' he' heq => ?_
    refine h.keys.eq_of_fst he he' ?_
    rw [← (h.entry e he).2.2, ← (h.entry e' he').2.2, heq]
  · obtain ⟨e, he, heq⟩ := List.mem_map.mp hmem
    exact (h.apart k hk).2 e he heq
  · rw [hwaiting] at hc
    cases hc

/-- The reaper goes on to what is left of its snapshot. -/
theorem skip (h : Inv s) {e : ℕ × ℕ} {rest : Registry} (hscan : s.reaper = .scanning (e :: rest))
    (hlive : (s.children e.2).life.isReaped = false) :
    Inv { s with reaper := .scanning rest } := by
  have hpending : s.reaper.pending = e.2 :: rest.map Prod.snd := by
    rw [hscan]
    rfl
  have hdistinct := h.distinct
  rw [hpending, List.nodup_cons] at hdistinct
  refine h.setReaper (fun d hd => ?_) (fun c hc => ?_) hdistinct.2 nofun nofun
    (fun k hk hmem => ?_) (fun c hc hreaped => ?_)
  · exact h.snapshot d (hscan ▸ List.mem_cons_of_mem e hd)
  · exact h.pending c (hpending ▸ List.mem_cons_of_mem _ hc)
  · exact (h.apart k hk).1 (hpending ▸ List.mem_cons_of_mem _ hmem)
  · rw [hpending] at hc
    rcases List.mem_cons.mp hc with rfl | hc
    · exact absurd (hreaped.symm.trans hlive) Bool.true_eq_false.mp
    · exact hc

/-- The reaper has got the exit code of the next child. -/
theorem found (h : Inv s) {e : ℕ × ℕ} {rest : Registry} {code : Int}
    (hscan : s.reaper = .scanning (e :: rest)) (hlife : (s.children e.2).life = .reaped code) :
    Inv { s with reaper := .polled e.1 e.2 code rest } := by
  have hpending : (Reaper.polled e.1 e.2 code rest).pending = s.reaper.pending := by
    rw [hscan]
    rfl
  have hsnapshot : ∀ d ∈ e :: rest, (s.children d.2).pid = d.1 :=
    fun d hd => h.snapshot d (hscan ▸ hd)
  refine h.setReaper (fun d hd => hsnapshot d (List.mem_cons_of_mem _ hd)) ?_ ?_
    (fun p c k r heq => ?_) nofun ?_ ?_
  · rw [hpending]
    exact h.pending
  · rw [hpending]
    exact h.distinct
  · cases heq
    exact ⟨hsnapshot e List.mem_cons_self, hlife⟩
  · rw [hpending]
    exact fun k hk => (h.apart k hk).1
  · rw [hpending]
    exact fun c hc _ => hc

theorem remove (h : Inv s) {pid c : ℕ} {code : Int} {rest : Registry}
    (hpolled : s.reaper = .polled pid c code rest) :
    Inv { s with
      registry := if s.registry.get pid = some c then s.registry.delete pid else s.registry
      reaper := .removed c code rest } := by
  obtain ⟨hpid, hlife⟩ := h.polled pid c code rest hpolled
  have hpending : s.reaper.pending = (Reaper.removed c code rest).pending := by
    rw [hpolled]
    rfl
  -- only the entry of `c` goes
  have hsub : ∀ e, e ∈ (if s.registry.get pid = some c then s.registry.delete pid
      else s.registry) ↔ e ∈ s.registry ∧ e.2 ≠ c := by
    intro e
    split
    · rename_i hget
      have hmem := h.keys.get_eq_some.mp hget
      rw [Registry.mem_delete]
      refine and_congr_right fun he => not_congr ⟨fun heq => ?_, fun heq => ?_⟩
      · exact congrArg Prod.snd (h.keys.eq_of_fst he hmem heq)
      · rw [← (h.entry e he).2.2, heq, hpid]
    · rename_i hget
      refine ⟨fun he => ⟨he, fun heq => hget ?_⟩, And.left⟩
      refine h.keys.get_eq_some.mpr ?_
      rw [← heq, ← hpid, ← heq, (h.entry e he).2.2]
      exact he
  exact
    { keys := by
        change Registry.Valid (if _ then _ else _)
        split
        · exact h.keys.delete pid
        · exact h.keys
      entry := fun e he => h.entry e ((hsub e).mp he).1
      snapshot := fun e he => h.snapshot e (hpolled ▸ he)
      pending := fun d hd => h.pending d (hpending ▸ hd)
      distinct := hpending ▸ h.distinct
      pids := h.pids
      early := h.early
      polled := nofun
      removed := fun d k r heq => by
        cases heq
        exact ⟨hlife, fun e he => ((hsub e).mp he).2⟩
      call := h.call
      once := h.once
      apart := fun k hk =>
        ⟨hpending ▸ (h.apart k hk).1, fun e he => (h.apart k hk).2 e ((hsub e).mp he).1⟩
      kept := fun d hd hreg => by
        rcases h.kept d hd hreg with hcall | ⟨e, he, rfl⟩ | ⟨hp, hr⟩
        · exact .inl hcall
        · rcases eq_or_ne e.2 c with heq | hne
          · refine .inr (.inr ⟨List.mem_cons.mpr (.inl heq), ?_⟩)
            rw [heq, hlife]
            rfl
          · exact .inr (.inl ⟨e, (hsub e).mpr ⟨he, hne⟩, rfl⟩)
        · exact .inr (.inr ⟨hpending ▸ hp, hr⟩) }

/-- The call is the only one for its child. -/
theorem callLoop (h : Inv s) {c : ℕ} {code : Int} {rest : Registry}
    (hremoved : s.reaper = .removed c code rest) :
    Inv { s with
      calls := s.calls ++ [⟨c, code, !s.closed (s.children c).loop⟩]
      reaper := .scanning rest } := by
  obtain ⟨hlife, hout⟩ := h.removed c code rest hremoved
  have hpending : s.reaper.pending = c :: rest.map Prod.snd := by
    rw [hremoved]
    rfl
  have hc := h.pending c (hpending ▸ List.mem_cons_self)
  have hdistinct := h.distinct
  rw [hpending, List.nodup_cons] at hdistinct
  have hnew : ∀ k ∈ s.calls, k.child ≠ c := fun k hk heq =>
    (h.apart k hk).1 (hpending ▸ List.mem_cons.mpr (.inl heq))
  exact
    { keys := h.keys
      entry := h.entry
      snapshot := fun e he => h.snapshot e (hremoved ▸ he)
      pending := fun d hd => h.pending d (hpending ▸ List.mem_cons_of_mem _ hd)
      distinct := hdistinct.2
      pids := h.pids
      early := h.early
      polled := nofun
      removed := nofun
      call := fun k hk => by
        rcases List.mem_append.mp hk with hk | hk
        · exact h.call k hk
        · obtain rfl := List.mem_singleton.mp hk
          refine ⟨hc.1, hc.2, hlife, ?_⟩
          change (!s.closed (s.children c).loop) = true ∨ s.closed (s.children c).loop = true
          cases s.closed (s.children c).loop
          · exact .inl rfl
          · exact .inr rfl
      once := by
        rw [List.map_append, List.nodup_append']
        refine ⟨h.once, List.nodup_singleton _, fun d hd hdc => ?_⟩
        obtain ⟨k, hk, rfl⟩ := List.mem_map.mp hd
        exact hnew k hk (List.mem_singleton.mp hdc)
      apart := fun k hk => by
        rcases List.mem_append.mp hk with hk | hk
        · refine ⟨fun hmem => (h.apart k hk).1 ?_, (h.apart k hk).2⟩
          exact hpending ▸ List.mem_cons_of_mem _ hmem
        · obtain rfl := List.mem_singleton.mp hk
          exact ⟨hdistinct.1, hout⟩
      kept := fun d hd hreg => by
        rcases h.kept d hd hreg with ⟨k, hk, rfl⟩ | hentry | ⟨hp, hr⟩
        · exact .inl ⟨k, List.mem_append_left _ hk, rfl⟩
        · exact .inr (.inl hentry)
        · rw [hpending] at hp
          rcases List.mem_cons.mp hp with rfl | hp
          · exact .inl ⟨_, List.mem_append_right _ (List.mem_singleton.mpr rfl), rfl⟩
          · exact .inr (.inr ⟨hp, hr⟩) }

theorem closeLoop (h : Inv s) (l : ℕ) :
    Inv { s with closed := Function.update s.closed l true } where
  keys := h.keys
  entry := h.entry
  snapshot := h.snapshot
  pending := h.pending
  distinct := h.distinct
  pids := h.pids
  early := h.early
  polled := h.polled
  removed := h.removed
  call := fun k hk => by
    obtain ⟨h₁, h₂, h₃, h₄⟩ := h.call k hk
    refine ⟨h₁, h₂, h₃, h₄.imp_right fun hclosed => ?_⟩
    change Function.update s.closed l true _ = true
    rw [Function.update_apply]
    split
    · rfl
    · exact hclosed
  once := h.once
  apart := h.apart
  kept := h.kept

/-- Every step keeps the invariant, if it registers nothing over a child that would be lost. -/
theorem step (h : Inv s) {l : Label} (hok : Unclobbered s l) (hstep : Process.step s l = some s') :
    Inv s' := by
  cases l with
  | spawn pid loop =>
    simp only [Process.step, Option.ite_none_right_eq_some, Option.some.injEq] at hstep
    obtain ⟨hfree, rfl⟩ := hstep
    exact h.spawn hfree
  | register c =>
    simp only [Process.step, Option.ite_none_right_eq_some, Option.some.injEq] at hstep
    obtain ⟨⟨hc, hnew⟩, rfl⟩ := hstep
    exact h.register hc hnew hok
  | exit c code =>
    simp only [Process.step, Option.ite_none_right_eq_some, Option.some.injEq] at hstep
    obtain ⟨⟨hc, hlife⟩, rfl⟩ := hstep
    refine h.setLife hc (fun code' hr => ?_) nofun
    rw [hlife] at hr
    cases hr
  | sendSignal c =>
    simp only [Process.step, Option.ite_none_right_eq_some, Option.some.injEq] at hstep
    obtain ⟨⟨hc, hreg⟩, rfl⟩ := hstep
    exact h.pollChild hc hreg
  | closeLoop l =>
    obtain rfl := Option.some.inj hstep
    exact h.closeLoop l
  | scan =>
    simp only [Process.step] at hstep
    split at hstep
    · rename_i hwaiting
      simp only [Option.ite_none_left_eq_some, Option.some.injEq] at hstep
      obtain ⟨-, rfl⟩ := hstep
      exact h.scan hwaiting
    · cases hstep
  | poll =>
    simp only [Process.step] at hstep
    split at hstep
    swap
    · cases hstep
    rename_i pid c rest hscan
    obtain ⟨hc, hreg⟩ := h.pending c (by rw [hscan]; exact List.mem_cons_self)
    have hpoll := h.pollChild hc hreg
    rcases s.pollChild_cases c with ⟨heq, hlife⟩ | ⟨code, s₁, heq, hlife, hreaper⟩
    · rw [heq] at hstep
      obtain rfl := Option.some.inj hstep
      refine h.skip hscan ?_
      rw [hlife]
      rfl
    · rw [heq] at hstep hpoll
      obtain rfl := Option.some.inj hstep
      exact hpoll.found (e := (pid, c)) (hreaper.trans hscan) hlife
  | busy =>
    simp only [Process.step] at hstep
    split at hstep
    swap
    · cases hstep
    rename_i pid c rest hscan
    simp only [Option.ite_none_left_eq_some, Option.some.injEq] at hstep
    obtain ⟨hlive, rfl⟩ := hstep
    exact h.skip (e := (pid, c)) hscan (Bool.not_eq_true _ ▸ hlive)
  | remove =>
    simp only [Process.step] at hstep
    split at hstep
    · rename_i hpolled
      obtain rfl := Option.some.inj hstep
      exact h.remove hpolled
    · cases hstep
  | call =>
    simp only [Process.step] at hstep
    split at hstep
    · rename_i hremoved
      obtain rfl := Option.some.inj hstep
      exact h.callLoop hremoved
    · cases hstep
  | finish =>
    simp only [Process.step] at hstep
    split at hstep
    · rename_i hscan
      obtain rfl := Option.some.inj hstep
      refine h.setReaper nofun nofun List.nodup_nil nofun nofun nofun fun c hc => ?_
      rw [hscan] at hc
      cases hc
    · cases hstep

end Inv

theorem Reachable.inv {s : State} (h : machine.Reachable Unclobbered s) : Inv s :=
  h.invariant Inv.init fun _ _ _ _ hinv hok hstep => hinv.step hok hstep

/-! ## The reaper, left to itself -/

/-- What the reaper's own steps do not change. -/
structure Same (s s' : State) : Prop where
  /-- The children. -/
  spawned : s'.spawned = s.spawned
  /-- Which of them are registered. -/
  registered : ∀ c, (s'.children c).registered = (s.children c).registered
  /-- Their loops. -/
  loop : ∀ c, (s'.children c).loop = (s.children c).loop
  /-- Their exit codes. -/
  code : ∀ c, (s'.children c).life.code? = (s.children c).life.code?
  /-- The loops that are closed. -/
  closed : s'.closed = s.closed
  /-- The calls made before. -/
  calls : s.calls ⊆ s'.calls

theorem Same.refl (s : State) : Same s s :=
  ⟨rfl, fun _ => rfl, fun _ => rfl, fun _ => rfl, rfl, List.Subset.refl _⟩

theorem Same.trans {s₁ s₂ s₃ : State} (h₁ : Same s₁ s₂) (h₂ : Same s₂ s₃) : Same s₁ s₃ where
  spawned := h₂.spawned.trans h₁.spawned
  registered := fun c => (h₂.registered c).trans (h₁.registered c)
  loop := fun c => (h₂.loop c).trans (h₁.loop c)
  code := fun c => (h₂.code c).trans (h₁.code c)
  closed := h₂.closed.trans h₁.closed
  calls := List.Subset.trans h₁.calls h₂.calls

/-- The reaper goes from one state to another by steps of its own. -/
structure Reaps (s s' : State) : Prop where
  /-- The steps. -/
  run : ∃ ls, (∀ l ∈ ls, l.isReaper = true) ∧ machine.play (fun _ _ => True) ls s = some s'
  /-- What they do not change. -/
  same : Same s s'
  /-- The invariant holds. -/
  inv : Inv s'

theorem Reaps.refl {s : State} (h : Inv s) : Reaps s s := ⟨⟨[], nofun, rfl⟩, .refl s, h⟩

/-- One step. -/
theorem Reaps.one {s s' : State} {l : Label} (h : Inv s) (hl : l.isReaper = true)
    (hstep : step s l = some s') (hsame : Same s s') : Reaps s s' := by
  have hok : Unclobbered s l := by
    cases l
    case register => cases hl
    all_goals trivial
  refine ⟨⟨[l], List.forall_mem_singleton.mpr hl, ?_⟩, hsame, h.step hok hstep⟩
  rw [Machine.play, if_pos trivial]
  exact Option.bind_eq_some_iff.mpr ⟨s', hstep, rfl⟩

/-- One run after another. -/
theorem Reaps.trans {s₁ s₂ s₃ : State} (h₁ : Reaps s₁ s₂) (h₂ : Reaps s₂ s₃) : Reaps s₁ s₃ := by
  obtain ⟨ls, hls, hplay⟩ := h₁.run
  obtain ⟨ls', hls', hplay'⟩ := h₂.run
  refine ⟨⟨ls ++ ls', fun l hl => ?_, ?_⟩, h₁.same.trans h₂.same, h₂.inv⟩
  · exact (List.mem_append.mp hl).elim (hls l) (hls' l)
  · rw [Machine.play_append, hplay]
    exact hplay'

/-- A poll finds out what has happened; it changes nothing else. -/
theorem same_pollChild (s : State) (c : ℕ) : Same s (s.pollChild c).2 := by
  unfold State.pollChild
  split
  · exact .refl s
  · rename_i code hlife
    have hchild : ∀ d, (((s.setLife c (.reaped code)).children d).registered =
        (s.children d).registered) ∧ ((s.setLife c (.reaped code)).children d).loop =
        (s.children d).loop ∧ ((s.setLife c (.reaped code)).children d).life.code? =
        (s.children d).life.code? := by
      intro d
      rcases eq_or_ne d c with rfl | hne
      · rw [State.setLife, State.children_setChild_self, hlife]
        exact ⟨rfl, rfl, rfl⟩
      · rw [State.setLife, State.children_setChild_of_ne hne]
        exact ⟨rfl, rfl, rfl⟩
    exact ⟨rfl, fun d => (hchild d).1, fun d => (hchild d).2.1, fun d => (hchild d).2.2, rfl,
      List.Subset.refl _⟩
  · exact .refl s

/-- The reaper reports the child it has taken out of the registry. -/
theorem Inv.reaps_removed {s : State} (h : Inv s) {c : ℕ} {code : Int} {rest : Registry}
    (hremoved : s.reaper = .removed c code rest) :
    ∃ s', Reaps s s' ∧ s'.reaper = .scanning rest ∧ ∃ k ∈ s'.calls, k.child = c := by
  have hstep : Process.step s .call = some { s with
      calls := s.calls ++ [⟨c, code, !s.closed (s.children c).loop⟩]
      reaper := .scanning rest } := by
    simp only [Process.step, hremoved]
  refine ⟨_, .one h rfl hstep ?_, rfl, _, List.mem_append_right _ List.mem_cons_self, rfl⟩
  exact ⟨rfl, fun _ => rfl, fun _ => rfl, fun _ => rfl, rfl, List.subset_append_left ..⟩

/-- The reaper takes the child out of the registry and reports it. -/
theorem Inv.reaps_polled {s : State} (h : Inv s) {pid c : ℕ} {code : Int} {rest : Registry}
    (hpolled : s.reaper = .polled pid c code rest) :
    ∃ s', Reaps s s' ∧ s'.reaper = .scanning rest ∧ ∃ k ∈ s'.calls, k.child = c := by
  have hstep : Process.step s .remove = some { s with
      registry := if s.registry.get pid = some c then s.registry.delete pid else s.registry
      reaper := .removed c code rest } := by
    simp only [Process.step, hpolled]
  have hone := Reaps.one h rfl hstep ⟨rfl, fun _ => rfl, fun _ => rfl, fun _ => rfl, rfl,
    List.Subset.refl _⟩
  obtain ⟨s', hreaps, hscan, hcall⟩ := hone.inv.reaps_removed rfl
  exact ⟨s', hone.trans hreaps, hscan, hcall⟩

/-- The reaper polls the next child, and reports it if it has terminated. -/
theorem Inv.reaps_next {s : State} (h : Inv s) {e : ℕ × ℕ} {rest : Registry}
    (hscan : s.reaper = .scanning (e :: rest)) :
    ∃ s', Reaps s s' ∧ s'.reaper = .scanning rest ∧
      ((s.children e.2).life.code?.isSome = true → ∃ k ∈ s'.calls, k.child = e.2) := by
  obtain ⟨pid, c⟩ := e
  have hpoll := same_pollChild s c
  rcases s.pollChild_cases c with ⟨heq, hlife⟩ | ⟨code, s₁, heq, -, -⟩
  · have hstep : Process.step s .poll = some { s with reaper := .scanning rest } := by
      simp only [Process.step, hscan, heq]
    refine ⟨_, .one h rfl hstep ?_, rfl, fun hcode => ?_⟩
    · exact ⟨rfl, fun _ => rfl, fun _ => rfl, fun _ => rfl, rfl, List.Subset.refl _⟩
    · rw [hlife] at hcode
      cases hcode
  · have hstep : Process.step s .poll = some { s₁ with reaper := .polled pid c code rest } := by
      simp only [Process.step, hscan, heq]
    rw [heq] at hpoll
    have hone := Reaps.one h rfl hstep ⟨hpoll.spawned, hpoll.registered, hpoll.loop, hpoll.code,
      hpoll.closed, hpoll.calls⟩
    obtain ⟨s', hreaps, hscan', hcall⟩ := hone.inv.reaps_polled rfl
    exact ⟨s', hone.trans hreaps, hscan', fun _ => hcall⟩

/-- The reaper goes through its snapshot and reports every child of it that has terminated. -/
theorem Inv.reaps_scanning {s : State} (h : Inv s) {rest : Registry}
    (hscan : s.reaper = .scanning rest) :
    ∃ s', Reaps s s' ∧ s'.reaper = .waiting ∧
      ∀ e ∈ rest, (s.children e.2).life.code?.isSome = true → ∃ k ∈ s'.calls, k.child = e.2 := by
  induction rest generalizing s with
  | nil =>
    have hstep : Process.step s .finish = some { s with reaper := .waiting } := by
      simp only [Process.step, hscan]
    refine ⟨_, .one h rfl hstep ?_, rfl, nofun⟩
    exact ⟨rfl, fun _ => rfl, fun _ => rfl, fun _ => rfl, rfl, List.Subset.refl _⟩
  | cons e rest ih =>
    obtain ⟨s₁, hreaps, hscan₁, hcall⟩ := h.reaps_next hscan
    obtain ⟨s', hreaps', hwaiting, hcalls⟩ := ih hreaps.inv hscan₁
    refine ⟨s', hreaps.trans hreaps', hwaiting, fun d hd hcode => ?_⟩
    rcases List.mem_cons.mp hd with rfl | hd
    · obtain ⟨k, hk, hchild⟩ := hcall hcode
      exact ⟨k, hreaps'.same.calls hk, hchild⟩
    · exact hcalls d hd (hreaps.same.code d.2 ▸ hcode)

/-- The reaper finishes the scan it is in. -/
theorem Inv.reaps_waiting {s : State} (h : Inv s) :
    ∃ s', Reaps s s' ∧ s'.reaper = .waiting := by
  have hscanning : s.reaper = .waiting ∨
      ∃ s₁ rest, Reaps s s₁ ∧ s₁.reaper = .scanning rest := by
    cases hreaper : s.reaper with
    | waiting => exact .inl rfl
    | scanning rest => exact .inr ⟨s, rest, .refl h, hreaper⟩
    | polled pid c code rest =>
      obtain ⟨s₁, hreaps, hscan, -⟩ := h.reaps_polled hreaper
      exact .inr ⟨s₁, rest, hreaps, hscan⟩
    | removed c code rest =>
      obtain ⟨s₁, hreaps, hscan, -⟩ := h.reaps_removed hreaper
      exact .inr ⟨s₁, rest, hreaps, hscan⟩
  rcases hscanning with hwaiting | ⟨s₁, rest, hreaps, hscan⟩
  · exact ⟨s, .refl h, hwaiting⟩
  · obtain ⟨s', hreaps', hwaiting, -⟩ := hreaps.inv.reaps_scanning hscan
    exact ⟨s', hreaps.trans hreaps', hwaiting⟩

/-- One scan more, and every child that has terminated is reported. -/
theorem Inv.reaps_all {s : State} (h : Inv s) :
    ∃ s', Reaps s s' ∧ ∀ c < s.spawned, (s.children c).registered = true →
      (s.children c).life.code?.isSome = true → ∃ k ∈ s'.calls, k.child = c := by
  obtain ⟨s₁, hreaps, hwaiting⟩ := h.reaps_waiting
  -- a child that has not been reported is in the registry, as nothing is pending
  have hkept : ∀ c < s.spawned, (s.children c).registered = true →
      (∃ k ∈ s₁.calls, k.child = c) ∨ ∃ e ∈ s₁.registry, e.2 = c := by
    intro c hc hreg
    rw [← hreaps.same.spawned] at hc
    rw [← hreaps.same.registered c] at hreg
    rcases hreaps.inv.kept c hc hreg with hcall | hentry | ⟨hpending, -⟩
    · exact .inl hcall
    · exact .inr hentry
    · rw [hwaiting] at hpending
      cases hpending
  by_cases hempty : s₁.registry = []
  · refine ⟨s₁, hreaps, fun c hc hreg _ => (hkept c hc hreg).resolve_right ?_⟩
    rintro ⟨e, he, -⟩
    rw [hempty] at he
    cases he
  · have hstep : Process.step s₁ .scan = some { s₁ with reaper := .scanning s₁.registry } := by
      simp only [Process.step, hwaiting, if_neg hempty]
    have hone := Reaps.one hreaps.inv rfl hstep
      ⟨rfl, fun _ => rfl, fun _ => rfl, fun _ => rfl, rfl, List.Subset.refl _⟩
    obtain ⟨s', hreaps', -, hcalls⟩ := hone.inv.reaps_scanning rfl
    refine ⟨s', hreaps.trans (hone.trans hreaps'), fun c hc hreg hcode => ?_⟩
    rcases hkept c hc hreg with ⟨k, hk, hchild⟩ | ⟨e, he, rfl⟩
    · exact ⟨k, hreaps'.same.calls hk, hchild⟩
    · exact hcalls e he (hreaps.same.code e.2 ▸ hcode)

/-! ## Delivery -/

/-- As long as no child is registered over one that the reaper would not get to, no exit is
delivered twice, and the reaper, left to itself, delivers that of every registered child that has
terminated, with the right code, and leaves no entry for it. The loop takes it unless it has been
closed. -/
theorem exits_delivered {s : State} (h : machine.Reachable Unclobbered s) :
    (s.calls.map Call.child).Nodup ∧
      ∃ ls, (∀ l ∈ ls, l.isReaper = true) ∧ ∃ s', machine.play (fun _ _ => True) ls s = some s' ∧
        ∀ c < s.spawned, (s.children c).registered = true →
          ∀ code, (s.children c).life.code? = some code →
            (s'.calls.map Call.child).count c = 1 ∧
            (s.closed (s.children c).loop = false → ⟨c, code, true⟩ ∈ s'.calls) ∧
            ∀ e ∈ s'.registry, e.2 ≠ c := by
  have hinv := Reachable.inv h
  obtain ⟨s', ⟨⟨ls, hls, hplay⟩, hsame, hinv'⟩, hcalls⟩ := hinv.reaps_all
  refine ⟨hinv.once, ls, hls, s', hplay, fun c hc hreg code hcode => ?_⟩
  obtain ⟨⟨child, code', taken⟩, hk, rfl⟩ := hcalls c hc hreg (hcode ▸ rfl)
  refine ⟨?_, fun hopen => ?_, (hinv'.apart _ hk).2⟩
  · exact List.count_eq_one_of_mem hinv'.once (List.mem_map_of_mem hk)
  · obtain ⟨-, -, hlife, htaken⟩ := hinv'.call _ hk
    -- the loop is open, so the call has been taken
    have htrue : taken = true := by
      refine htaken.resolve_right fun hclosed => ?_
      rw [hsame.closed, hsame.loop, hopen] at hclosed
      cases hclosed
    have hcode' := hsame.code child
    rw [hlife, hcode] at hcode'
    obtain rfl := Option.some.inj hcode'
    rw [← htrue]
    exact hk

/-- The pid of a child that `send_signal` has reaped is used again while the reaper still has the
child in its snapshot. -/
theorem exits_delivered_reused :
    ∃ s : State, s.registry = [(7, 1)] ∧ ∃ ls s', machine.play (fun _ _ => True) ls s = some s' ∧
      ⟨0, 3, true⟩ ∈ s'.calls := by
  have hplay : ∃ s, machine.play Unclobbered [.spawn 7 0, .register 0, .exit 0 3, .scan,
      .sendSignal 0, .spawn 7 0, .register 1] machine.init = some s ∧ s.registry = [(7, 1)] ∧
      s.spawned = 2 ∧ (s.children 0).registered = true ∧ (s.children 0).life.code? = some 3 ∧
      s.closed (s.children 0).loop = false := ⟨_, rfl, rfl, rfl, rfl, rfl, rfl⟩
  obtain ⟨s, hrun, hregistry, hspawned, hreg, hcode, hopen⟩ := hplay
  obtain ⟨-, ls, -, s', hplay, hall⟩ := exits_delivered (Machine.Reachable.init.play hrun)
  exact ⟨s, hregistry, ls, s', hplay, (hall 0 (hspawned ▸ Nat.two_pos) hreg 3 hcode).2.1 hopen⟩

/-! ## Children that are lost -/

/-- A registered child that nothing leads the reaper to. -/
structure Lost (c : ℕ) (s : State) : Prop where
  /-- It has been registered. -/
  registered : c < s.spawned ∧ (s.children c).registered = true
  /-- There is no entry for it. -/
  entry : ∀ e ∈ s.registry, e.2 ≠ c
  /-- It is not in the snapshot. -/
  pending : c ∉ s.reaper.pending
  /-- It has not been reported. -/
  call : ∀ k ∈ s.calls, k.child ≠ c

namespace Lost

variable {c : ℕ} {s s' : State}

/-- The reaper goes on with its snapshot. -/
theorem setReaper (h : Lost c s) {r : Reaper} (hsub : ∀ d ∈ r.pending, d ∈ s.reaper.pending) :
    Lost c { s with reaper := r } :=
  ⟨h.registered, h.entry, fun hc => h.pending (hsub c hc), h.call⟩

theorem setLife (h : Lost c s) (d : ℕ) (life : Life) : Lost c (s.setLife d life) := by
  refine ⟨⟨h.registered.1, ?_⟩, h.entry, h.pending, h.call⟩
  rcases eq_or_ne c d with rfl | hne
  · rw [State.setLife, State.children_setChild_self]
    exact h.registered.2
  · rw [State.setLife, State.children_setChild_of_ne hne]
    exact h.registered.2

theorem pollChild (h : Lost c s) (d : ℕ) : Lost c (s.pollChild d).2 := by
  unfold State.pollChild
  split
  · exact h
  · exact h.setLife d _
  · exact h

/-- It stays lost. -/
theorem step (h : Lost c s) {l : Label} (hstep : Process.step s l = some s') : Lost c s' := by
  cases l with
  | spawn pid loop =>
    simp only [Process.step, Option.ite_none_right_eq_some, Option.some.injEq] at hstep
    obtain ⟨-, rfl⟩ := hstep
    refine ⟨⟨h.registered.1.trans (Nat.lt_succ_self _), ?_⟩, h.entry, h.pending, h.call⟩
    rw [← h.registered.2]
    exact congrArg Child.registered (State.children_setChild_of_ne h.registered.1.ne)
  | register d =>
    simp only [Process.step, Option.ite_none_right_eq_some, Option.some.injEq] at hstep
    obtain ⟨⟨-, hnew⟩, rfl⟩ := hstep
    -- only a new child is registered
    have hne : c ≠ d := by
      rintro rfl
      exact Bool.false_ne_true (hnew.symm.trans h.registered.2)
    refine ⟨⟨h.registered.1, ?_⟩, fun e he => ?_, h.pending, h.call⟩
    · rw [← h.registered.2]
      exact congrArg Child.registered (State.children_setChild_of_ne hne)
    · rcases Registry.mem_set.mp he with rfl | ⟨he, -⟩
      · exact hne.symm
      · exact h.entry e he
  | exit d code =>
    simp only [Process.step, Option.ite_none_right_eq_some, Option.some.injEq] at hstep
    obtain ⟨-, rfl⟩ := hstep
    exact h.setLife d _
  | sendSignal d =>
    simp only [Process.step, Option.ite_none_right_eq_some, Option.some.injEq] at hstep
    obtain ⟨-, rfl⟩ := hstep
    exact h.pollChild d
  | closeLoop l =>
    obtain rfl := Option.some.inj hstep
    exact ⟨h.registered, h.entry, h.pending, h.call⟩
  | scan =>
    simp only [Process.step] at hstep
    split at hstep
    · simp only [Option.ite_none_left_eq_some, Option.some.injEq] at hstep
      obtain ⟨-, rfl⟩ := hstep
      refine ⟨h.registered, h.entry, fun hc => ?_, h.call⟩
      obtain ⟨e, he, heq⟩ := List.mem_map.mp hc
      exact h.entry e he heq
    · cases hstep
  | poll =>
    simp only [Process.step] at hstep
    split at hstep
    swap
    · cases hstep
    rename_i pid d rest hscan
    have hpoll := h.pollChild d
    rcases s.pollChild_cases d with ⟨heq, -⟩ | ⟨code, s₁, heq, -, hreaper⟩
    · rw [heq] at hstep
      obtain rfl := Option.some.inj hstep
      refine h.setReaper fun e he => ?_
      rw [hscan]
      exact List.mem_cons_of_mem _ he
    · rw [heq] at hstep hpoll
      obtain rfl := Option.some.inj hstep
      refine hpoll.setReaper fun e he => ?_
      rw [hreaper, hscan]
      exact he
  | busy =>
    simp only [Process.step] at hstep
    split at hstep
    swap
    · cases hstep
    rename_i hscan
    simp only [Option.ite_none_left_eq_some, Option.some.injEq] at hstep
    obtain ⟨-, rfl⟩ := hstep
    refine h.setReaper fun e he => ?_
    rw [hscan]
    exact List.mem_cons_of_mem _ he
  | remove =>
    simp only [Process.step] at hstep
    split at hstep
    swap
    · cases hstep
    rename_i hpolled
    obtain rfl := Option.some.inj hstep
    refine ⟨h.registered, fun e he => h.entry e ?_, fun hc => h.pending (hpolled ▸ hc), h.call⟩
    split at he
    · exact (Registry.mem_delete.mp he).1
    · exact he
  | call =>
    simp only [Process.step] at hstep
    split at hstep
    swap
    · cases hstep
    rename_i d code rest hremoved
    obtain rfl := Option.some.inj hstep
    have hpending : c ∉ d :: rest.map Prod.snd := fun hc => h.pending (hremoved ▸ hc)
    obtain ⟨hne, hrest⟩ := not_or.mp (List.mem_cons.not.mp hpending)
    refine ⟨h.registered, h.entry, hrest, fun k hk => ?_⟩
    rcases List.mem_append.mp hk with hk | hk
    · exact h.call k hk
    · obtain rfl := List.mem_singleton.mp hk
      exact fun heq => hne heq.symm
  | finish =>
    simp only [Process.step] at hstep
    split at hstep
    · obtain rfl := Option.some.inj hstep
      exact h.setReaper nofun
    · cases hstep

/-- Whatever happens next, its exit is not delivered. -/
theorem forever (h : Lost c s) {ls : List Label}
    (hplay : machine.play (fun _ _ => True) ls s = some s') : ∀ k ∈ s'.calls, k.child ≠ c :=
  (Machine.play_invariant (M := machine) (fun _ _ _ hlost hstep => hlost.step hstep) h hplay).call

end Lost

/-- A child that is registered over and that the reaper would not get to is lost. -/
theorem Inv.lost {s s' : State} (h : Inv s) {l : Label} (hclobbers : ¬ Unclobbered s l)
    (hstep : Process.step s l = some s') : ∃ c, Lost c s' := by
  cases l with
  | register d =>
    simp only [Process.step, Option.ite_none_right_eq_some, Option.some.injEq] at hstep
    obtain ⟨⟨-, hnew⟩, rfl⟩ := hstep
    simp only [Unclobbered, not_forall] at hclobbers
    obtain ⟨e, he, hpid, hpending⟩ := hclobbers
    obtain ⟨hspawned, hreg, -⟩ := h.entry e he
    have hne : e.2 ≠ d := by
      rintro rfl
      exact Bool.false_ne_true (hnew.symm.trans hreg)
    refine ⟨e.2, ⟨⟨hspawned, ?_⟩, fun e' he' => ?_, hpending, fun k hk heq => ?_⟩⟩
    · exact (congrArg Child.registered (State.children_setChild_of_ne hne)).trans hreg
    · rcases Registry.mem_set.mp he' with rfl | ⟨he', hpid'⟩
      · exact hne.symm
      · -- a child has one pid, so no other entry is for it
        intro heq
        refine hpid' ?_
        rw [← (h.entry e' he').2.2, heq, (h.entry e he).2.2, hpid]
    · exact (h.apart k hk).2 e he heq.symm
  | _ => exact absurd trivial hclobbers

/-- `send_signal` reaps a child before the reaper does, its pid is used again, and the new child is
registered over it: the exit is never delivered, although the loop is open. -/
theorem exit_lost :
    ∃ s : State, machine.Reachable (fun _ _ => True) s ∧ (s.children 0).registered = true ∧
      (s.children 0).life = .reaped 3 ∧ s.closed (s.children 0).loop = false ∧
      ∀ ls s', machine.play (fun _ _ => True) ls s = some s' → ∀ k ∈ s'.calls, k.child ≠ 0 := by
  have hplay : ∃ s, machine.play (fun _ _ => True) [.spawn 7 0, .register 0, .exit 0 3,
      .sendSignal 0, .spawn 7 0, .register 1] machine.init = some s ∧ s.registry = [(7, 1)] ∧
      s.reaper = .waiting ∧ s.calls = [] ∧ s.spawned = 2 ∧ (s.children 0).registered = true ∧
      (s.children 0).life = .reaped 3 ∧ s.closed (s.children 0).loop = false :=
    ⟨_, rfl, rfl, rfl, rfl, rfl, rfl, rfl, rfl⟩
  obtain ⟨s, hrun, hregistry, hreaper, hcalls, hspawned, hreg, hlife, hopen⟩ := hplay
  refine ⟨s, Machine.Reachable.init.play hrun, hreg, hlife, hopen, fun ls s' hplay => ?_⟩
  have hlost : Lost 0 s := by
    refine ⟨⟨hspawned ▸ Nat.two_pos, hreg⟩, fun e he => ?_, ?_, ?_⟩
    · rw [hregistry] at he
      obtain rfl := List.mem_singleton.mp he
      exact Nat.one_ne_zero
    · rw [hreaper]
      exact List.not_mem_nil
    · rw [hcalls]
      exact nofun
  exact hlost.forever hplay

end Zuvloop.Process
