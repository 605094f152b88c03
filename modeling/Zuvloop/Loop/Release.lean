import Zuvloop.Reentrant.History
import Zuvloop.Loop.TimerLife

/-!
# Releasing the timers of a closed loop

`Timers.deinit` of `zig/collections.zig`, as `closeLoop` of `zig/loop.zig` calls it: it drops the
reference of every entry where it stands in the array. Dropping one may run the finalizers of a
callback and its arguments, which may cancel other timers or make the cyclic collector traverse the
loop, while the array still holds the entries whose references are gone. `call_later` and `call_at`
raise by then, so that nothing is pushed.

An entry is told from the others by its handle. Of a handle only the flags `cancel` looks at are
modelled, and its reference to the loop.

## Main definitions

* `OwnedTimers`: a heap whose entries have a handle each.
* `Releasing`: the timers, with what was read and released so far.
* `deinit`, `cancel`, `traverse`: the programs.

## Main results

* `deinit_releases_iff`: every entry is released once and not touched afterwards unless a finalizer
  makes the heap compact itself or the collector traverse the loop.
* `deinit_reads_released`: cancelling the right timer while the first one is released does.
-/

namespace Zuvloop.Loop.Release

open Reentrant SlotHeap

/-! ## State -/

/-- A timer heap in which every entry has a handle of its own. -/
structure OwnedTimers (T : Type) [LinearOrder T] extends TimerHeap T ℕ where
  /-- The handles differ. -/
  owned : (toTimerHeap.contents.map TimerEntry.handle).Nodup

/-- The timers of a loop, as its life leaves them. -/
def OwnedTimers.ofLoop {T : Type} [LinearOrder T] [AddZeroClass T] [Inhabited T] {t : T}
    {s : State T} (h : (Loop.system t).Reachable (Loop.env True) ⟨s, none, []⟩) :
    OwnedTimers T :=
  ⟨s.timers, ((TimerLife.verified t).top_level h).1.heap.nodup⟩

/-- The flags of a timer handle. -/
structure TimerFlags where
  /-- `CANCELLED`. -/
  cancelled : Bool
  /-- `in_heap`. -/
  inHeap : Bool
  /-- `running_flag`. -/
  running : Bool
  /-- The handle still has a reference to the loop. -/
  loop : Bool

/-- `clearScheduled`. -/
def TimerFlags.clearScheduled (f : TimerFlags) : TimerFlags := { f with inHeap := false }

/-- An access to the handle of an entry. -/
inductive Access where
  /-- The handle is looked at. -/
  | read (h : ℕ)
  /-- The reference of the entry is dropped. -/
  | release (h : ℕ)
deriving DecidableEq

/-- The handle that is accessed. -/
def Access.handle : Access → ℕ
  | read h | release h => h

/-- The timers of a loop that is being closed. -/
structure Releasing (T : Type) where
  /-- The heap. -/
  timers : Timers T ℕ
  /-- The flags of the handles. -/
  flags : ℕ → TimerFlags
  /-- `timer_active`. -/
  timerActive : Bool
  /-- The deadline of the libuv timer. -/
  uvTimer : Option T
  /-- `deinit` is in progress. -/
  walking : Bool
  /-- `deinit` has returned. -/
  finished : Bool
  /-- During `deinit` the heap has compacted itself, or the collector has traversed the loop. -/
  disturbed : Bool
  /-- What happened so far, oldest first. -/
  history : List Access

namespace Releasing

variable {T : Type} (s : Releasing T)

/-- Change the flags of a handle. -/
def setFlags (h : ℕ) (f : TimerFlags → TimerFlags) : Releasing T :=
  { s with flags := Function.update s.flags h (f (s.flags h)) }

/-- Record accesses. -/
def record (accesses : List Access) : Releasing T :=
  { s with history := s.history ++ accesses }

/-- Count a cancelled timer. -/
def countCancelled : Releasing T :=
  { s with timers := { s.timers with cancelled := s.timers.cancelled + 1 } }

/-- Count a cancelled timer that has left the heap. -/
def uncountCancelled : Releasing T :=
  { s with timers := { s.timers with cancelled := s.timers.cancelled - 1 } }

/-- The cancelled timers dominate the heap. -/
def crowded : Bool :=
  decide (minCancelledTimers < s.timers.cancelled ∧ s.timers.len < s.timers.cancelled * 2)

/-- The handles of the first `n` entries are looked at. -/
def visit (n : ℕ) : Releasing T :=
  s.record ((List.range n).map fun i => .read (s.timers.items i).handle)

/-- `deinit` begins. -/
def begin : Releasing T := { s with walking := true }

/-- The heap is not left alone. -/
def disturb : Releasing T := { s with disturbed := true }

end Releasing

/-! ## Programs -/

section Programs

variable (T : Type)

/-- The unbounded loops. -/
inductive Proc where
  /-- The loop of `deinit`. -/
  | walk (i : ℕ)
  /-- The first loop of `armTimer`. -/
  | dropCancelled

/-- What runs Python code: the finalizers of what is released. -/
inductive Callback where
  | finalizer

/-- The entry points. -/
inductive Op where
  /-- `Timers.deinit`. -/
  | deinit
  /-- `TimerHandle.cancel`. -/
  | cancel (h : ℕ)
  /-- The cyclic collector clears a handle. -/
  | clear (h : ℕ)
  /-- The cyclic collector traverses the loop. -/
  | traverse

/-- The types of the programs. The only question is whether an allocation succeeds. -/
abbrev sig : Signature where
  State := Releasing T
  Request := Unit
  Answer := Bool
  Callback := Callback
  Result := Unit
  Proc := Proc
  Op := Op

/-- A program. -/
abbrev P (α : Type) : Type := Prog (sig T) α

variable {T}

/-- Read the state. -/
def getState : P T (Releasing T) := Prog.read (S := sig T)

/-- Change the state. -/
def update (f : Releasing T → Releasing T) : P T Unit := Prog.modify (S := sig T) f

/-- Allocate. -/
def alloc : P T Bool := Prog.request (S := sig T) ()

/-- Run finalizers. -/
def finalize : P T Unit := Prog.foreign (S := sig T) Callback.finalizer

/-- Release a handle. -/
def release (h : ℕ) : P T Unit := do
  update (·.record [.release h])
  finalize

/-- Release the handles a compaction set aside. -/
def releaseAll : List ℕ → P T Unit
  | [] => return
  | h :: doomed => do
    release h
    releaseAll doomed

variable [LinearOrder T]

/-- `compact` with `retireIfCancelled`. Without memory to set the handles aside it does nothing. -/
def compact : P T Unit := do
  let ok ← alloc
  if ok then
    let s ← getState
    update (·.visit s.timers.len)
    let (timers, doomed) := s.timers.compact true fun h => (s.flags h).cancelled
    update fun s => { s with
      timers
      flags := fun h => if h ∈ doomed then (s.flags h).clearScheduled else s.flags h }
    releaseAll doomed

/-- The first loop of `armTimer`. -/
def dropCancelledBody : P T Unit := do
  let s ← getState
  match s.timers.peek with
  | none => return
  | some entry =>
    update (·.record [.read entry.handle])
    if (s.flags entry.handle).cancelled then
      update fun s => { s.setFlags entry.handle TimerFlags.clearScheduled with
        timers := s.timers.pop.2 }
      release entry.handle
      update Releasing.uncountCancelled
      Prog.invoke (S := sig T) Proc.dropCancelled

/-- `armTimer`. -/
def armTimer : P T Unit := do
  Prog.invoke (S := sig T) Proc.dropCancelled
  let s ← getState
  match s.timers.peek with
  | none => update fun s => { s with timerActive := false, uvTimer := none }
  | some entry => update fun s => { s with timerActive := true, uvTimer := some entry.when }

/-- `noteTimerCancelled`. -/
def noteTimerCancelled : P T Unit := do
  update Releasing.countCancelled
  let s ← getState
  if s.crowded then
    update Releasing.disturb
    compact
    armTimer

/-- `TimerHandle.cancel`. -/
def cancel (h : ℕ) : P T Unit := do
  let s ← getState
  if !(s.flags h).cancelled then
    update (·.setFlags h ({ · with cancelled := true }))
    if !(s.flags h).running then
      -- the arguments are released, then the callback
      finalize
      finalize
    let s ← getState
    if (s.flags h).inHeap then
      if (s.flags h).loop then noteTimerCancelled

/-- The loop of `deinit`, from entry `i` on. -/
def walkBody (i : ℕ) : P T Unit := do
  let s ← getState
  if i < s.timers.len then
    release (s.timers.items i).handle
    Prog.invoke (S := sig T) (Proc.walk (i + 1))

variable [Inhabited T]

/-- `Timers.deinit`. -/
def deinit : P T Unit := do
  update Releasing.begin
  Prog.invoke (S := sig T) (Proc.walk 0)
  update fun s => { s with timers := .empty, walking := false, finished := true }

/-- `tp_clear` of a handle. -/
def clear (h : ℕ) : P T Unit := do
  finalize
  update (·.setFlags h ({ · with loop := false }))
  finalize

/-- `tp_traverse` of the loop: every handle of the array is visited. -/
def traverse : P T Unit := update fun s => s.disturb.visit s.timers.len

/-- The loop whose timers are released. -/
def system (timers : OwnedTimers T) (flags : ℕ → TimerFlags) (timerActive : Bool)
    (uvTimer : Option T) : System (sig T) where
  body
    | .walk i => walkBody i
    | .dropCancelled => dropCancelledBody
  entry
    | .deinit => deinit
    | .cancel h => cancel h
    | .clear h => clear h
    | .traverse => traverse
  init :=
    { timers := timers.toTimers, flags, timerActive, uvTimer, walking := false, finished := false
      disturbed := false, history := [] }

/-- When an entry point may be started: `deinit` once, the others from the finalizers it runs. -/
def Startable (s : Releasing T) : Op → Prop
  | .deinit => s.walking = false ∧ s.finished = false
  | .cancel _ | .clear _ | .traverse => s.walking = true

/-- Everything outside the timers. -/
def env : Env (sig T) where
  answers := fun _ _ _ => True
  returns := fun _ _ _ => True
  starts := fun _ s op => Startable s op

omit [LinearOrder T] [Inhabited T] in
instance (s : Releasing T) (op : Op) : Decidable (Startable s op) :=
  match op with
  | .deinit => inferInstanceAs (Decidable (s.walking = false ∧ s.finished = false))
  | .cancel _ | .clear _ | .traverse => inferInstanceAs (Decidable (s.walking = true))

instance (c : Config (sig T)) (l : Label (sig T)) : Decidable (env.Allows c l) :=
  match l with
  | .tau => .isTrue trivial
  | .answer _ =>
    match h : c.running with
    | some (.ask _ _) => .isTrue (by simp [Env.Allows, env, h])
    | some (.ret _) | some (.get _) | some (.set _ _) | some (.yield _ _) | some (.call _ _)
    | none => .isFalse (by simp [Env.Allows, h])
  | .start op => inferInstanceAs (Decidable (Startable c.state op))
  | .resume _ =>
    match h : c.stack with
    | _ :: _ => .isTrue (by simp [Env.Allows, env, h])
    | [] => .isFalse (by simp [Env.Allows, h])

end Programs

/-! ## What is to hold -/

/-- Nothing is read or released once its reference has been dropped. -/
def Safe (h : List Access) : Prop := Recorded (fun before a => .release a.handle ∉ before) h

/-- What went wrong stays wrong. -/
theorem Safe.of_append {h l : List Access} (hsafe : Safe (h ++ l)) : Safe h :=
  fun before a after heq => hsafe before a (after ++ l) (by rw [heq, List.append_assoc,
    List.cons_append])

/-- An access to what has been released. -/
theorem not_safe_of_mem {h l : List Access} {a : Access} (hmem : .release a.handle ∈ h) :
    ¬ Safe (h ++ a :: l) := fun hsafe => hsafe h a l rfl hmem

section Rely

variable {T : Type} {s : Releasing T}

/-- Looking at every entry is too late once the first has been released. -/
theorem not_safe_visit {n : ℕ} (hn : n ≠ 0)
    (hmem : .release (s.timers.items 0).handle ∈ s.history) : ¬ Safe (s.visit n).history := by
  obtain ⟨n, rfl⟩ := Nat.exists_eq_succ_of_ne_zero hn
  rw [Releasing.visit, Releasing.record, List.range_succ_eq_map, List.map_cons]
  exact not_safe_of_mem (a := .read (s.timers.items 0).handle) hmem

/-- What finalizers do. -/
structure Rely (s s' : Releasing T) : Prop where
  /-- They run inside `deinit`. -/
  walking : s'.walking = true
  /-- It does not return. -/
  finished : s'.finished = s.finished
  /-- A disturbance is not forgotten. -/
  disturbed : s.disturbed = true → s'.disturbed = true
  /-- Without one, nothing is touched. -/
  history : s'.disturbed = false → s'.history = s.history

/-- The heap has been disturbed, and something has been touched too late. -/
structure Spoilt (s : Releasing T) : Prop where
  /-- `deinit` is in progress. -/
  walking : s.walking = true
  /-- It has not returned. -/
  finished : s.finished = false
  /-- The disturbance. -/
  disturbed : s.disturbed = true
  /-- What went wrong. -/
  touched : ¬ Safe s.history

theorem Spoilt.rely {s' : Releasing T} (h : Spoilt s') (hfinished : s.finished = false) :
    Rely s s' where
  walking := h.walking
  finished := h.finished.trans hfinished.symm
  disturbed := fun _ => h.disturbed
  history := fun hd => absurd (h.disturbed.symm.trans hd) Bool.true_eq_false.mp

theorem Spoilt.record (h : Spoilt s) (accesses : List Access) : Spoilt (s.record accesses) :=
  ⟨h.walking, h.finished, h.disturbed, fun hsafe => h.touched hsafe.of_append⟩

theorem Rely.refl (h : s.walking = true) : Rely s s := ⟨h, rfl, id, fun _ => rfl⟩

theorem Rely.trans {s₁ s₂ s₃ : Releasing T} (h₁ : Rely s₁ s₂) (h₂ : Rely s₂ s₃) : Rely s₁ s₃ where
  walking := h₂.walking
  finished := h₂.finished.trans h₁.finished
  disturbed := h₂.disturbed ∘ h₁.disturbed
  history := fun hd => by
    have hd₂ : s₂.disturbed = false := by
      rw [← Bool.not_eq_true]
      exact fun hd₂ => absurd (hd.symm.trans (h₂.disturbed hd₂)) Bool.false_ne_true
    exact (h₂.history hd).trans (h₁.history hd₂)

theorem Rely.setFlags (hwalking : s.walking = true) (k : ℕ) (f : TimerFlags → TimerFlags) :
    Rely s (s.setFlags k f) := ⟨hwalking, rfl, id, fun _ => rfl⟩

/-- Finalizers may call `cancel()`. -/
theorem not_quiet [Inhabited T] (c : Callback) : ¬ (env : Env (sig T)).Quiet c := fun hquiet =>
  hquiet [] ⟨.empty, fun _ => ⟨false, false, false, false⟩, false, none, true, false, false, []⟩
    (.cancel 0) rfl

end Rely

section Walk

variable {T : Type} [LinearOrder T] (timers : OwnedTimers T)

/-- The references of the first `k` entries are dropped. -/
def dropped (k : ℕ) : List Access :=
  (List.range k).map fun i => .release (timers.items i).handle

theorem dropped_succ (k : ℕ) :
    dropped timers (k + 1) = dropped timers k ++ [.release (timers.items k).handle] := by
  rw [dropped, dropped, List.range_succ, List.map_append]
  rfl

/-- No handle stands in two places. -/
theorem OwnedTimers.handle_inj {i j : ℕ} (hi : i < timers.len) (hj : j < timers.len)
    (h : (timers.items i).handle = (timers.items j).handle) : i = j := by
  have hnodup : ((Multiset.range timers.len).map fun i => (timers.items i).handle).Nodup := by
    have howned := timers.owned
    rw [Timers.contents, elements, Multiset.map_map] at howned
    exact howned
  exact Multiset.inj_on_of_nodup_map hnodup i (Multiset.mem_range.mpr hi) j
    (Multiset.mem_range.mpr hj) h

/-- Dropping every reference in turn is safe. -/
theorem safe_dropped {k : ℕ} (hk : k ≤ timers.len) : Safe (dropped timers k) := by
  induction k with
  | zero => exact recorded_nil _
  | succ k ih =>
    rw [dropped_succ]
    refine Recorded.concat (ih (Nat.le_of_succ_le hk)) fun hmem => ?_
    obtain ⟨i, hi, heq⟩ := List.mem_map.mp hmem
    have hik : i < k := List.mem_range.mp hi
    have hlt : k < timers.len := hk
    exact hik.ne (timers.handle_inj (hik.trans hlt) hlt (Access.release.inj heq))

/-- Once every reference has been dropped, each has been dropped once. -/
theorem count_dropped {i : ℕ} (hi : i < timers.len) :
    (dropped timers timers.len).count (.release (timers.items i).handle) = 1 := by
  have hnodup : (dropped timers timers.len).Nodup := by
    refine (List.nodup_map_iff_inj_on List.nodup_range).mpr fun i hi j hj heq => ?_
    exact timers.handle_inj (List.mem_range.mp hi) (List.mem_range.mp hj) (Access.release.inj heq)
  exact List.count_eq_one_of_mem hnodup
    (List.mem_map.mpr ⟨i, List.mem_range.mpr hi, rfl⟩)

theorem length_dropped (k : ℕ) : (dropped timers k).length = k := by
  rw [dropped, List.length_map, List.length_range]

/-- The first reference is the first to be dropped. -/
theorem mem_dropped {k : ℕ} (hk : 0 < k) :
    .release (timers.items 0).handle ∈ dropped timers k :=
  List.mem_map.mpr ⟨0, List.mem_range.mpr hk, rfl⟩

/-! ## The specification -/

/-- The array is as it was, and its first `k` references are dropped. -/
structure Walked (k : ℕ) (s : Releasing T) : Prop where
  /-- The array. -/
  items : s.timers.items = timers.items
  /-- Its length. -/
  len : s.timers.len = timers.len
  /-- The references dropped so far. -/
  history : s.history = dropped timers k
  /-- They are references of the array. -/
  le : k ≤ timers.len

/-- What holds whenever Python code runs. -/
structure Inv (s : Releasing T) : Prop where
  /-- While the heap is left alone, `deinit` walks through it. -/
  calm : s.disturbed = false → s.finished = false →
    ∃ k, Walked timers k s ∧ (s.walking = true ↔ 0 < k)
  /-- In the end every reference is dropped. -/
  done : s.disturbed = false → s.finished = true → s.history = dropped timers timers.len
  /-- After a disturbance something has been touched too late. -/
  spoilt : s.disturbed = true → ¬ Safe s.history
  /-- `deinit` is in progress or has returned. -/
  busy : s.walking = true → s.finished = false

/-- Where a procedure may be called. -/
def Pre : Proc → Releasing T → Prop
  | .walk i, s => s.walking = true ∧ s.finished = false ∧
      (s.disturbed = false → Walked timers i s) ∧ (s.disturbed = true → ¬ Safe s.history)
  | .dropCancelled, s => s.walking = true ∧ s.finished = false ∧ s.disturbed = true ∧
      (Safe s.history → ∃ e, s.timers.peek = some e ∧ .release e.handle ∈ s.history)

/-- What a procedure does. -/
def Post : Proc → Releasing T → Releasing T → Prop
  | .walk _, _, s' => s'.walking = true ∧ s'.finished = false ∧
      (s'.disturbed = false → s'.history = dropped timers timers.len) ∧
      (s'.disturbed = true → ¬ Safe s'.history)
  | .dropCancelled, _, s' => Spoilt s'

/-- The specification. -/
def spec : Spec (sig T) where
  inv := Inv timers
  rely := fun s s' => s.walking = true → Rely s s'
  pre := Pre timers
  post := Post timers

variable {timers} {s : Releasing T}

theorem Spoilt.inv (h : Spoilt s) : Inv timers s where
  calm := fun hd => absurd (h.disturbed.symm.trans hd) Bool.true_eq_false.mp
  done := fun hd => absurd (h.disturbed.symm.trans hd) Bool.true_eq_false.mp
  spoilt := fun _ => h.touched
  busy := fun _ => h.finished

/-- Finalizers do not undo what went wrong. -/
theorem Spoilt.of_rely {s' : Releasing T} (h : Spoilt s) (hinv : Inv timers s')
    (hrely : Rely s s') : Spoilt s' :=
  ⟨hrely.walking, hrely.finished.trans h.finished, hrely.disturbed h.disturbed,
    hinv.spoilt (hrely.disturbed h.disturbed)⟩

/-! ## Rules -/

section Rules

variable {Q : Unit → Releasing T → Prop}

@[simp]
theorem wp_getState (Q : Releasing T → Releasing T → Prop) :
    (getState : P T _).wp env (spec timers) Q s ↔ Q s s := Iff.rfl

@[simp]
theorem wp_update (f : Releasing T → Releasing T) (Q : Unit → Releasing T → Prop) :
    (update f).wp env (spec timers) Q s ↔ Q () (f s) := Iff.rfl

@[simp]
theorem wp_alloc (Q : Bool → Releasing T → Prop) :
    (alloc : P T _).wp env (spec timers) Q s ↔ ∀ ok, Q ok s :=
  forall_congr' fun _ => true_imp_iff

/-- Finalizers keep the invariant. -/
theorem wp_finalize (hwalking : s.walking = true) (hinv : Inv timers s)
    (hQ : ∀ s', Inv timers s' → Rely s s' → Q () s') :
    (finalize : P T Unit).wp env (spec timers) Q s :=
  Prog.wp_foreign (fun _ => .refl hwalking) hinv fun _ s' hrely hinv' =>
    hQ s' hinv' (hrely hwalking)

/-- Releasing is harmless once something has gone wrong. -/
theorem Spoilt.wp_release (h : Spoilt s) (k : ℕ) (hQ : ∀ s', Spoilt s' → Q () s') :
    (release k : P T Unit).wp env (spec timers) Q s := by
  simp only [release, Prog.wp_bind, wp_update]
  have h' := h.record [.release k]
  exact wp_finalize h'.walking h'.inv fun s' hinv hrely => hQ s' (h'.of_rely hinv hrely)

theorem Spoilt.wp_releaseAll (h : Spoilt s) (doomed : List ℕ) (hQ : ∀ s', Spoilt s' → Q () s') :
    (releaseAll doomed : P T Unit).wp env (spec timers) Q s := by
  induction doomed generalizing s with
  | nil => exact hQ s h
  | cons k doomed ih =>
    simp only [releaseAll, Prog.wp_bind]
    exact h.wp_release k fun s' h' => ih h'

/-- A compaction looks at an entry that has been released. -/
theorem wp_compact (hwalking : s.walking = true) (hfinished : s.finished = false)
    (hdisturbed : s.disturbed = true)
    (htouch : Safe s.history → ∃ e, s.timers.peek = some e ∧ .release e.handle ∈ s.history)
    (hQ : ∀ s', s'.walking = true → s'.finished = false → s'.disturbed = true →
      (Safe s'.history → ∃ e, s'.timers.peek = some e ∧ .release e.handle ∈ s'.history) →
      Q () s') :
    (compact : P T Unit).wp env (spec timers) Q s := by
  simp only [compact, Prog.wp_bind, wp_alloc, Prog.wp_ite, wp_getState, wp_update, Prog.wp_pure]
  intro ok
  split
  swap
  · exact hQ s hwalking hfinished hdisturbed htouch
  have hvisited : ¬ Safe (s.visit s.timers.len).history := by
    intro hsafe
    obtain ⟨e, hpeek, hmem⟩ := htouch hsafe.of_append
    rw [Timers.peek] at hpeek
    split at hpeek
    · cases hpeek
    rename_i hlen
    obtain rfl := Option.some.inj hpeek
    exact not_safe_visit hlen hmem hsafe
  have hspoilt : ∀ timers flags, Spoilt { s.visit s.timers.len with timers, flags } :=
    fun _ _ => ⟨hwalking, hfinished, hdisturbed, hvisited⟩
  exact (hspoilt _ _).wp_releaseAll _ fun s' h' =>
    hQ s' h'.walking h'.finished h'.disturbed fun hsafe => absurd hsafe h'.touched

theorem wp_armTimer (hwalking : s.walking = true) (hfinished : s.finished = false)
    (hdisturbed : s.disturbed = true)
    (htouch : Safe s.history → ∃ e, s.timers.peek = some e ∧ .release e.handle ∈ s.history)
    (hQ : ∀ s', Spoilt s' → Q () s') :
    (armTimer : P T Unit).wp env (spec timers) Q s := by
  simp only [armTimer, Prog.wp_bind, wp_getState]
  refine ⟨⟨hwalking, hfinished, hdisturbed, htouch⟩, fun s' hspoilt => ?_⟩
  have h' : Spoilt s' := hspoilt
  change (Prog.wp env (spec timers) (match s'.timers.peek with | none => _ | some _ => _) Q s')
  split
  · exact hQ _ ⟨h'.walking, h'.finished, h'.disturbed, h'.touched⟩
  · exact hQ _ ⟨h'.walking, h'.finished, h'.disturbed, h'.touched⟩

/-- A cancelled timer is counted; if the heap compacts itself, it does so too late. -/
theorem wp_noteTimerCancelled (hwalking : s.walking = true) (hinv : Inv timers s)
    (hQ : ∀ s', Inv timers s' → Rely s s' → Q () s') :
    (noteTimerCancelled : P T Unit).wp env (spec timers) Q s := by
  have hfinished := hinv.busy hwalking
  simp only [noteTimerCancelled, Prog.wp_bind, wp_update, wp_getState, Prog.wp_ite, Prog.wp_pure]
  split
  swap
  · refine hQ _ ⟨fun hd hf => ?_, hinv.done, hinv.spoilt, hinv.busy⟩
      ⟨hwalking, rfl, id, fun _ => rfl⟩
    obtain ⟨k, hk, hpos⟩ := hinv.calm hd hf
    exact ⟨k, ⟨hk.items, hk.len, hk.history, hk.le⟩, hpos⟩
  -- the first entry has been released, and is still in the array
  have htouch : Safe s.history →
      ∃ e, s.timers.peek = some e ∧ .release e.handle ∈ s.history := by
    intro hsafe
    have hcalm : s.disturbed = false := by
      rw [← Bool.not_eq_true]
      exact fun hd => hinv.spoilt hd hsafe
    obtain ⟨k, hk, hpos⟩ := hinv.calm hcalm hfinished
    have hlen : s.timers.len ≠ 0 := by
      rw [hk.len]
      exact ((hpos.mp hwalking).trans_le hk.le).ne'
    refine ⟨s.timers.items 0, if_neg hlen, ?_⟩
    rw [hk.history, hk.items]
    exact mem_dropped timers (hpos.mp hwalking)
  refine wp_compact hwalking hfinished rfl htouch fun s₁ hw₁ hf₁ hd₁ htouch₁ => ?_
  exact wp_armTimer hw₁ hf₁ hd₁ htouch₁ fun s₂ h₂ => hQ s₂ h₂.inv (h₂.rely hfinished)

/-- A change of the flags does not matter. -/
theorem Inv.setFlags (hinv : Inv timers s) (k : ℕ) (f : TimerFlags → TimerFlags) :
    Inv timers (s.setFlags k f) where
  calm := fun hd hf => by
    obtain ⟨n, hn, hpos⟩ := hinv.calm hd hf
    exact ⟨n, ⟨hn.items, hn.len, hn.history, hn.le⟩, hpos⟩
  done := hinv.done
  spoilt := hinv.spoilt
  busy := hinv.busy

theorem wp_cancel {k : ℕ} (hwalking : s.walking = true) (hinv : Inv timers s)
    (hQ : ∀ s', Inv timers s' → Rely s s' → Q () s') :
    (cancel k : P T Unit).wp env (spec timers) Q s := by
  have hcount : ∀ s₁, Inv timers s₁ → Rely s s₁ →
      if (s₁.flags k).inHeap = true then
        if (s₁.flags k).loop = true then
          (noteTimerCancelled : P T Unit).wp env (spec timers) Q s₁
        else Q () s₁
      else Q () s₁ := by
    intro s₁ h₁ hrely₁
    split
    · split
      · exact wp_noteTimerCancelled hrely₁.walking h₁ fun s₂ h₂ hrely₂ =>
          hQ s₂ h₂ (hrely₁.trans hrely₂)
      · exact hQ s₁ h₁ hrely₁
    · exact hQ s₁ h₁ hrely₁
  simp only [cancel, Prog.wp_bind, wp_getState, Prog.wp_ite, Prog.wp_pure, wp_update]
  have hset := Rely.setFlags hwalking k ({ · with cancelled := true })
  split
  swap
  · exact hQ s hinv (.refl hwalking)
  split
  · refine wp_finalize hwalking (hinv.setFlags k _) fun s₁ h₁ hrely₁ => ?_
    refine wp_finalize hrely₁.walking h₁ fun s₂ h₂ hrely₂ => ?_
    exact hcount s₂ h₂ ((hset.trans hrely₁).trans hrely₂)
  · exact hcount _ (hinv.setFlags k _) hset

theorem wp_clear {k : ℕ} (hwalking : s.walking = true) (hinv : Inv timers s)
    (hQ : ∀ s', Inv timers s' → Rely s s' → Q () s') :
    (clear k : P T Unit).wp env (spec timers) Q s := by
  simp only [clear, Prog.wp_bind, wp_update]
  refine wp_finalize hwalking hinv fun s₁ h₁ hrely₁ => ?_
  have hset := Rely.setFlags hrely₁.walking k ({ · with loop := false })
  refine wp_finalize hrely₁.walking (h₁.setFlags k _) fun s₂ h₂ hrely₂ => ?_
  exact hQ s₂ h₂ ((hrely₁.trans hset).trans hrely₂)

/-- The collector looks at what has been released. -/
theorem wp_traverse (hwalking : s.walking = true) (hinv : Inv timers s)
    (hQ : ∀ s', Inv timers s' → Rely s s' → Q () s') :
    (traverse : P T Unit).wp env (spec timers) Q s := by
  rw [traverse, wp_update]
  have hfinished := hinv.busy hwalking
  have hspoilt : Spoilt (s.disturb.visit s.timers.len) := by
    refine ⟨hwalking, hfinished, rfl, fun hsafe => ?_⟩
    have hcalm : s.disturbed = false := by
      rw [← Bool.not_eq_true]
      exact fun hd => hinv.spoilt hd hsafe.of_append
    obtain ⟨k, hk, hpos⟩ := hinv.calm hcalm hfinished
    have hlen : s.timers.len ≠ 0 := by
      rw [hk.len]
      exact ((hpos.mp hwalking).trans_le hk.le).ne'
    refine not_safe_visit hlen ?_ hsafe
    change .release (s.timers.items 0).handle ∈ s.history
    rw [hk.history, hk.items]
    exact mem_dropped timers (hpos.mp hwalking)
  exact hQ _ hspoilt.inv (hspoilt.rely hfinished)

/-- The loop of `deinit` drops one reference after the other. -/
theorem wp_walkBody {i : ℕ} (hpre : Pre timers (.walk i) s) :
    (walkBody i : P T Unit).wp env (spec timers) (fun _ s' => Post timers (.walk i) s s') s := by
  obtain ⟨hwalking, hfinished, hcalm, hspoilt⟩ := hpre
  simp only [walkBody, Prog.wp_bind, wp_getState, Prog.wp_ite, Prog.wp_pure]
  split
  · rename_i hi
    simp only [release, Prog.wp_bind, wp_update]
    let s₁ := s.record [.release (s.timers.items i).handle]
    have hwalked₁ : s₁.disturbed = false → Walked timers (i + 1) s₁ := by
      intro hd
      have hk := hcalm hd
      refine ⟨hk.items, hk.len, ?_, ?_⟩
      · rw [dropped_succ, ← hk.history, ← hk.items]
        rfl
      · rw [← hk.len]
        exact hi
    have hinv₁ : Inv timers s₁ :=
      ⟨fun hd _ => ⟨i + 1, hwalked₁ hd, iff_of_true hwalking (Nat.succ_pos i)⟩,
        fun _ hf => absurd (hfinished.symm.trans hf) Bool.false_ne_true,
        fun hd hsafe => hspoilt hd hsafe.of_append, fun _ => hfinished⟩
    refine wp_finalize hwalking hinv₁ fun s₂ hinv₂ hrely₂ => ?_
    have hfinished₂ : s₂.finished = false := hrely₂.finished.trans hfinished
    refine ⟨⟨hrely₂.walking, hfinished₂, fun hd => ?_, hinv₂.spoilt⟩, fun s₃ h₃ => h₃⟩
    -- nothing was touched, so that the walk is where it was
    obtain ⟨k, hk, -⟩ := hinv₂.calm hd hfinished₂
    have hcalm₁ : s₁.disturbed = false := by
      rw [← Bool.not_eq_true]
      exact fun hd₁ => absurd (hd.symm.trans (hrely₂.disturbed hd₁)) Bool.false_ne_true
    have hlength := congrArg List.length
      (hk.history.symm.trans ((hrely₂.history hd).trans (hwalked₁ hcalm₁).history))
    rw [length_dropped, length_dropped] at hlength
    exact hlength ▸ hk
  · rename_i hi
    refine ⟨hwalking, hfinished, fun hd => ?_, hspoilt⟩
    have hk := hcalm hd
    have hall : i = timers.len := le_antisymm hk.le (hk.len ▸ not_lt.mp hi)
    rw [hk.history, hall]

theorem wp_dropCancelledBody (hpre : Pre timers .dropCancelled s) :
    (dropCancelledBody : P T Unit).wp env (spec timers)
      (fun _ s' => Post timers .dropCancelled s s') s := by
  obtain ⟨hwalking, hfinished, hdisturbed, htouch⟩ := hpre
  simp only [dropCancelledBody, Prog.wp_bind, wp_getState]
  split
  · rename_i hpeek
    refine ⟨hwalking, hfinished, hdisturbed, fun hsafe => ?_⟩
    obtain ⟨e, he, -⟩ := htouch hsafe
    rw [hpeek] at he
    cases he
  · rename_i entry hpeek
    simp only [Prog.wp_bind, wp_update, Prog.wp_ite, Prog.wp_pure]
    have hspoilt : Spoilt (s.record [.read entry.handle]) := by
      refine ⟨hwalking, hfinished, hdisturbed, fun hsafe => ?_⟩
      obtain ⟨e, he, hmem⟩ := htouch hsafe.of_append
      obtain rfl := Option.some.inj (hpeek.symm.trans he)
      exact not_safe_of_mem (a := .read entry.handle) (l := []) hmem hsafe
    split
    · have hpopped : Spoilt { (s.record [.read entry.handle]).setFlags entry.handle
          TimerFlags.clearScheduled with
          timers := (s.record [.read entry.handle]).timers.pop.2 } :=
        ⟨hspoilt.walking, hspoilt.finished, hspoilt.disturbed, hspoilt.touched⟩
      refine hpopped.wp_release _ fun s₁ h₁ => ?_
      exact ⟨⟨h₁.walking, h₁.finished, h₁.disturbed, fun hsafe => absurd hsafe h₁.touched⟩,
        fun s₂ h₂ => h₂⟩
    · exact hspoilt

end Rules

/-! ## Every run -/

/-- Nothing is read or released after its release, and once `deinit` has returned every entry has
been released once. -/
def Released (timers : OwnedTimers T) (s : Releasing T) : Prop :=
  Safe s.history ∧ (s.finished = true → ∀ i < timers.len,
    s.history.count (.release (timers.items i).handle) = 1)

theorem Inv.safe (hinv : Inv timers s) : Safe s.history ↔ s.disturbed = false := by
  refine ⟨fun hsafe => ?_, fun hd => ?_⟩
  · rw [← Bool.not_eq_true]
    exact fun hd => hinv.spoilt hd hsafe
  · cases hf : s.finished with
    | false =>
      obtain ⟨k, hk, -⟩ := hinv.calm hd hf
      rw [hk.history]
      exact safe_dropped timers hk.le
    | true =>
      rw [hinv.done hd hf]
      exact safe_dropped timers le_rfl

section Runs

variable [Inhabited T]

/-- `deinit` releases the entries one after the other. -/
theorem wp_deinit (hwalking : s.walking = false) (hfinished : s.finished = false)
    (hinv : Inv timers s) :
    (deinit : P T Unit).wp env (spec timers)
      (fun _ s' => Inv timers s' ∧ (s.walking = true → Rely s s')) s := by
  simp only [deinit, Prog.wp_bind, wp_update]
  refine ⟨⟨rfl, hfinished, fun hd => ?_, hinv.spoilt⟩, fun s' hpost => ?_⟩
  · obtain ⟨k, hk, hpos⟩ := hinv.calm hd hfinished
    obtain rfl : k = 0 := by
      rw [← Nat.le_zero, ← not_lt]
      exact fun h => absurd (hwalking.symm.trans (hpos.mpr h)) Bool.false_ne_true
    exact ⟨hk.items, hk.len, hk.history, hk.le⟩
  · obtain ⟨-, -, hall, hspoilt⟩ := hpost
    exact ⟨⟨fun _ hf => absurd hf.symm Bool.false_ne_true, fun hd _ => hall hd, hspoilt, by simp⟩,
      fun h => absurd (hwalking.symm.trans h) Bool.false_ne_true⟩

theorem verified (timers : OwnedTimers T) (flags : ℕ → TimerFlags) (timerActive : Bool)
    (uvTimer : Option T) :
    Verified (system timers flags timerActive uvTimer) env (spec timers) where
  rely_refl := fun _ h => .refl h
  rely_trans := fun _ _ _ h₁ h₂ h => (h₁ h).trans (h₂ (h₁ h).walking)
  init := by
    refine ⟨fun _ _ => ⟨0, ⟨rfl, rfl, rfl, Nat.zero_le _⟩, ?_⟩, nofun, nofun, nofun⟩
    exact iff_of_false Bool.false_ne_true (lt_irrefl 0)
  body
    | .walk _, _, hpre => wp_walkBody hpre
    | .dropCancelled, _, hpre => wp_dropCancelledBody hpre
  entry
    | _, _, .deinit, hstart, hinv, _ => wp_deinit hstart.1 hstart.2 hinv
    | _, _, .cancel _, hstart, hinv, _ =>
      wp_cancel hstart hinv fun _ hinv' hrely => ⟨hinv', fun _ => hrely⟩
    | _, _, .clear _, hstart, hinv, _ =>
      wp_clear hstart hinv fun _ hinv' hrely => ⟨hinv', fun _ => hrely⟩
    | _, _, .traverse, hstart, hinv, _ =>
      wp_traverse hstart hinv fun _ hinv' hrely => ⟨hinv', fun _ => hrely⟩

/-- Closing the loop releases its timers, each once, and does not touch them afterwards, exactly if
no `cancel()` of a finalizer makes the heap compact itself and the collector does not traverse the
loop. -/
theorem deinit_releases_iff {flags : ℕ → TimerFlags} {timerActive : Bool} {uvTimer : Option T}
    {stack : List (Callback × (Unit → P T Unit))}
    (h : (system timers flags timerActive uvTimer).Reachable env ⟨s, none, stack⟩) :
    Released timers s ↔ s.disturbed = false := by
  have hinv : Inv timers s :=
    (verified timers flags timerActive uvTimer).in_foreign not_quiet h
  refine ⟨fun hreleased => hinv.safe.mp hreleased.1, fun hd => ?_⟩
  refine ⟨hinv.safe.mpr hd, fun hf i hi => ?_⟩
  rw [hinv.done hd hf]
  exact count_dropped timers hi

end Runs

end Walk

/-! ## Concrete runs -/

/-- `n` timers, due one after the other, of which some have been cancelled. -/
def sequence (n cancelled : ℕ) : OwnedTimers ℕ where
  items := fun i => { when := i, seq := i + 1, handle := i }
  cap := n
  len := n
  seq := n
  cancelled
  valid :=
    { ordered := fun i hi _ => by
        have hle : parent i ≤ i := (parent_lt hi).le
        exact Prod.Lex.toLex_mono ⟨hle, Nat.succ_le_succ hle⟩
      fresh := fun e he => by
        obtain ⟨i, hi, rfl⟩ := mem_elements.mp he
        exact hi
      distinct := by
        rw [Timers.contents, elements, Multiset.map_map]
        exact (Multiset.nodup_map_iff_of_injective (add_left_injective 1)).mpr
          (Multiset.nodup_range n)
      room := le_rfl }
  owned := by
    rw [Timers.contents, elements, Multiset.map_map]
    exact (Multiset.nodup_map_iff_of_injective Function.injective_id).mpr (Multiset.nodup_range n)

/-- The handles of timers in the heap, cancelled from the third on. -/
def lateCancelled (h : ℕ) : TimerFlags :=
  { cancelled := decide (2 ≤ h), inHeap := true, running := false, loop := true }

/-- Two timers are released; the finalizer of the first one cancels the other. -/
theorem deinit_releases_two :
    ∃ s : Releasing ℕ, s.finished = true ∧ Released (sequence 2 0) s := by
  have hplay : ∃ s, (system (sequence 2 0) lateCancelled false none).play env 40
      [.start .deinit, .start (.cancel 1), .resume (), .resume (), .resume (), .resume ()]
      (system (sequence 2 0) lateCancelled false none).initial = some ⟨s, none, []⟩ ∧
      s.disturbed = false ∧ s.finished = true := ⟨_, rfl, rfl, rfl⟩
  obtain ⟨s, hrun, hcalm, hfinished⟩ := hplay
  exact ⟨s, hfinished, (deinit_releases_iff (System.Reachable.initial.play hrun)).mpr hcalm⟩

/-- Of 102 timers 100 are cancelled already. The finalizer of the first one cancels the second, and
the heap compacts itself while it still holds the first. -/
theorem deinit_reads_released :
    ∃ (s : Releasing ℕ) (stack : List (Callback × (Unit → P ℕ Unit))),
      (system (sequence 102 100) lateCancelled false none).Reachable env ⟨s, none, stack⟩ ∧
      ¬ Released (sequence 102 100) s := by
  have hplay : ∃ s stack, (system (sequence 102 100) lateCancelled false none).play env 40
      [.start .deinit, .start (.cancel 1), .resume (), .resume (), .answer true]
      (system (sequence 102 100) lateCancelled false none).initial = some ⟨s, none, stack⟩ ∧
      s.disturbed = true := ⟨_, _, rfl, rfl⟩
  obtain ⟨s, stack, hrun, hdisturbed⟩ := hplay
  have hreach := System.Reachable.initial.play hrun
  have hinv := (verified _ _ _ _).in_foreign not_quiet hreach
  exact ⟨s, stack, hreach, fun hreleased => hinv.spoilt hdisturbed hreleased.1⟩

end Zuvloop.Loop.Release
