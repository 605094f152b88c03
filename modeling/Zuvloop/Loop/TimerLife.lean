import Mathlib.Algebra.Group.Defs
import Mathlib.Data.Multiset.Filter
import Zuvloop.Loop.Scheduling

/-!
# The life cycle of a timer

A timer leaves the heap by five routes: it never enters it because it is already due, it expires, it
is dropped when it comes up cancelled while timers are collected or armed, or it is compacted away.
Each route has to fix the `inHeap` flag and the count of cancelled entries together.

Finalizers run in the middle of these routes, so here they are assumed not to call back into the
loop. All other Python code may.

## Main definitions

* `HeapOk`: the flag and the count agree with the contents of the heap.
* `OnceOk`: a timer is in one place at most, among the heap, the ready queue and the timers that
  ran.
* `HistoryOk`: what the recorded events say about cancelled and expired timers.
* `TimerLife`: the three of them, the invariant of the loop's timers.
-/

namespace Zuvloop.Loop

open Reentrant

variable {T : Type} [LinearOrder T]

/-! ## The invariant -/

/-- The flags and the count agree with the contents of the heap. -/
structure HeapOk (s : State T) : Prop where
  /-- The heap holds timers, under their deadlines. -/
  entries : ∀ e ∈ s.timers.contents, e.handle < s.fresh ∧ (s.handles e.handle).kind = .timer ∧
    (s.handles e.handle).when = e.when
  /-- No timer is in the heap twice. -/
  nodup : (s.timers.contents.map TimerEntry.handle).Nodup
  /-- Timers were pushed in the order they were created. -/
  registration : ∀ e ∈ s.timers.contents, ∀ e' ∈ s.timers.contents, e.seq < e'.seq →
    e.handle < e'.handle
  /-- A timer is marked as being in the heap if it is. -/
  flag : ∀ h < s.fresh, (s.handles h).kind = .timer →
    ((s.handles h).inHeap = true ↔ h ∈ s.timers.contents.map TimerEntry.handle)
  /-- The count is the number of cancelled entries. -/
  count : s.timers.cancelled =
    (s.timers.contents.filter fun e => (s.handles e.handle).cancelled = true).card

/-- Every timer is in one place at most. -/
structure OnceOk (s : State T) : Prop where
  /-- The heap, the ready queue and the timers that ran do not overlap. -/
  once : ∀ h < s.fresh, (s.handles h).kind = .timer →
    s.ran.count h + s.ready.toList.count h + (s.handles h).inHeap.toNat ≤ 1
  /-- Handles that ran exist. -/
  ran : ∀ h ∈ s.ran, h < s.fresh
  /-- Handles in the ready queue exist. -/
  ready : ∀ h ∈ s.ready.toList, h < s.fresh
  /-- The inbox holds no timers. -/
  inbox : ∀ h ∈ s.threadsafeReady.toList, h < s.fresh ∧ (s.handles h).kind ≠ .timer
  /-- A timer that is in the ready queue or has run entered the queue in a recorded step. -/
  entered : ∀ h, h ∈ s.ready.toList ∨ h ∈ s.ran → (s.handles h).kind = .timer →
    ∃ when now, Event.due h when now ∈ s.history

/-- The second event is not a run of the timer whose cancellation is the first. -/
def Event.Silent : Event T → Event T → Prop
  | .cancelReturned h _ _ _ _, .ran h' => h ≠ h'
  | _, _ => True

/-- What an event says about the timer it is about. -/
def Event.Ok (s : State T) : Event T → Prop
  | .cancelReturned h wasInHeap first cancelled len =>
    h < s.fresh ∧ (s.handles h).kind = .timer ∧ (s.handles h).cancelled = true ∧
      (wasInHeap = true → first = true → cancelled ≤ minCancelledTimers ∨ cancelled * 2 ≤ len)
  | .due h when now => h < s.fresh ∧ (s.handles h).when = when ∧ when ≤ now
  | _ => True

/-- What the recorded events say. -/
structure HistoryOk (s : State T) : Prop where
  /-- Every event is as it should be. -/
  ok : ∀ e ∈ s.history, e.Ok s
  /-- No timer runs after its `cancel()` returned. -/
  silent : s.history.Pairwise Event.Silent

/-- The invariant of the loop's timers. -/
structure TimerLife (s : State T) : Prop where
  /-- The heap. -/
  heap : HeapOk s
  /-- The places. -/
  places : OnceOk s
  /-- The history. -/
  past : HistoryOk s

/-! ## What each update does to the invariant -/

/-- Two records of one handle that agree in what the invariant reads. -/
structure HandleRec.SameLife (r r' : HandleRec T) : Prop where
  /-- The type. -/
  kind : r'.kind = r.kind
  /-- The deadline. -/
  when : r'.when = r.when
  /-- The flag. -/
  inHeap : r'.inHeap = r.inHeap
  /-- The cancellation. -/
  cancelled : r'.cancelled = r.cancelled

section Updates

variable {s s' : State T}

omit [LinearOrder T] in
theorem HandleRec.SameLife.refl (r : HandleRec T) : r.SameLife r := ⟨rfl, rfl, rfl, rfl⟩

/-- Events stay as they should be while handles keep their type, their deadline and their
cancellation. -/
theorem Event.Ok.mono {e : Event T} (h : e.Ok s) (hfresh : s.fresh ≤ s'.fresh)
    (hkind : ∀ k < s.fresh, (s'.handles k).kind = (s.handles k).kind)
    (hwhen : ∀ k < s.fresh, (s'.handles k).when = (s.handles k).when)
    (hcancelled : ∀ k < s.fresh, (s.handles k).cancelled = true →
      (s'.handles k).cancelled = true) : e.Ok s' := by
  cases e with
  | registered k => trivial
  | ran k => trivial
  | due k when now =>
    obtain ⟨hk, heq, hle⟩ := h
    exact ⟨hk.trans_le hfresh, (hwhen k hk).trans heq, hle⟩
  | cancelReturned k wasInHeap first cancelled len =>
    obtain ⟨hk, hkind', hc, hbound⟩ := h
    exact ⟨hk.trans_le hfresh, (hkind k hk).trans hkind', hcancelled k hk hc, hbound⟩

theorem HistoryOk.mono (h : HistoryOk s) (hhist : s'.history = s.history)
    (hfresh : s.fresh ≤ s'.fresh)
    (hkind : ∀ k < s.fresh, (s'.handles k).kind = (s.handles k).kind)
    (hwhen : ∀ k < s.fresh, (s'.handles k).when = (s.handles k).when)
    (hcancelled : ∀ k < s.fresh, (s.handles k).cancelled = true →
      (s'.handles k).cancelled = true) : HistoryOk s' :=
  ⟨fun e he => (h.ok e (hhist ▸ he)).mono hfresh hkind hwhen hcancelled, hhist ▸ h.silent⟩

/-- Recording an event about a timer that has not been cancelled before. -/
theorem HistoryOk.record (h : HistoryOk s) {e : Event T} (he : e.Ok s)
    (hsilent : ∀ e' ∈ s.history, e'.Silent e) : HistoryOk (s.record e) := by
  refine ⟨fun e' he' => ?_, ?_⟩
  · have hok : e'.Ok s := by
      rcases List.mem_append.mp he' with he' | he'
      · exact h.ok e' he'
      · exact List.mem_singleton.mp he' ▸ he
    exact hok.mono le_rfl (fun _ _ => rfl) (fun _ _ => rfl) fun _ _ hc => hc
  · refine List.pairwise_append.mpr
      ⟨h.silent, List.pairwise_singleton _ _, fun e' he' e'' he'' => ?_⟩
    exact List.mem_singleton.mp he'' ▸ hsilent e' he'

/-- The places stay distinct while the queues and the history stay, and no handle is marked as
being in the heap. -/
theorem OnceOk.mono (h : OnceOk s) (hhist : s'.history = s.history)
    (hready : s'.ready.toList = s.ready.toList)
    (hinbox : s'.threadsafeReady.toList = s.threadsafeReady.toList) (hfresh : s'.fresh = s.fresh)
    (hkind : ∀ k < s.fresh, (s'.handles k).kind = (s.handles k).kind)
    (hflag : ∀ k < s.fresh, (s'.handles k).inHeap = true → (s.handles k).inHeap = true) :
    OnceOk s' := by
  have hran : s'.ran = s.ran := by rw [State.ran, State.ran, hhist]
  refine ⟨fun k hk hkk => ?_, fun k hk => ?_, fun k hk => ?_, fun k hk => ?_, fun k hk hkk => ?_⟩
  · rw [hfresh] at hk
    have hold := h.once k hk (hkind k hk ▸ hkk)
    rw [hran, hready]
    cases hin : (s'.handles k).inHeap with
    | false => exact (Nat.add_le_add_left (Nat.zero_le _) _).trans hold
    | true => rwa [hflag k hk hin] at hold
  · rw [hfresh]
    exact h.ran k (hran ▸ hk)
  · rw [hfresh]
    exact h.ready k (hready ▸ hk)
  · obtain ⟨hlt, hne⟩ := h.inbox k (hinbox ▸ hk)
    exact ⟨hfresh ▸ hlt, by rwa [hkind k hlt]⟩
  · rw [hready, hran] at hk
    have hlt : k < s.fresh := hk.elim (h.ready k) (h.ran k)
    rw [hhist]
    exact h.entered k hk (hkind k hlt ▸ hkk)

/-- The invariant reads the heap, the queues, the history, and four fields of each handle. -/
theorem TimerLife.frame (h : TimerLife s)
    (hcontents : s'.timers.contents = s.timers.contents)
    (hcount : s'.timers.cancelled = s.timers.cancelled)
    (hhand : ∀ k < s.fresh, (s.handles k).SameLife (s'.handles k)) (hfresh : s'.fresh = s.fresh)
    (hhist : s'.history = s.history) (hready : s'.ready.toList = s.ready.toList)
    (hinbox : s'.threadsafeReady.toList = s.threadsafeReady.toList) : TimerLife s' := by
  refine ⟨⟨fun e he => ?_, ?_, hcontents ▸ h.heap.registration, fun k hk hkind => ?_, ?_⟩,
    h.places.mono hhist hready hinbox hfresh (fun k hk => (hhand k hk).kind)
      fun k hk hin => (hhand k hk).inHeap ▸ hin,
    h.past.mono hhist hfresh.ge (fun k hk => (hhand k hk).kind) (fun k hk => (hhand k hk).when)
      fun k hk hc => (hhand k hk).cancelled.trans hc⟩
  · obtain ⟨hlt, hkind, hwhen⟩ := h.heap.entries e (hcontents ▸ he)
    exact ⟨hfresh ▸ hlt, (hhand _ hlt).kind.trans hkind, (hhand _ hlt).when.trans hwhen⟩
  · rw [hcontents]
    exact h.heap.nodup
  · have hk' := hfresh ▸ hk
    rw [hcontents, (hhand k hk').inHeap]
    exact h.heap.flag k hk' ((hhand k hk').kind ▸ hkind)
  · rw [hcount, hcontents, h.heap.count]
    refine congrArg _ (Multiset.filter_congr fun e he => ?_)
    rw [(hhand _ (h.heap.entries e he).1).cancelled]

/-- A change to one handle that the invariant does not read. -/
theorem TimerLife.setHandle (h : TimerLife s) (k : ℕ) {f : HandleRec T → HandleRec T}
    (hf : (s.handles k).SameLife (f (s.handles k))) : TimerLife (s.setHandle k f) := by
  refine h.frame rfl rfl (fun j _ => ?_) rfl rfl rfl rfl
  rw [s.handles_setHandle]
  split
  · rename_i hj
    exact hj ▸ hf
  · exact .refl _

/-- An update that leaves everything the invariant reads alone. -/
theorem TimerLife.same (h : TimerLife s) (htimers : s'.timers = s.timers)
    (hhand : s'.handles = s.handles) (hfresh : s'.fresh = s.fresh) (hhist : s'.history = s.history)
    (hready : s'.ready = s.ready) (hinbox : s'.threadsafeReady = s.threadsafeReady) :
    TimerLife s' :=
  h.frame (by rw [htimers]) (by rw [htimers]) (fun k _ => by rw [hhand]; exact .refl _) hfresh
    hhist (by rw [hready]) (by rw [hinbox])

theorem TimerLife.setCore (h : TimerLife s) {f : Core ℕ → Core ℕ}
    (hready : (f s.toCore).ready = s.ready) : TimerLife (s.setCore f) :=
  h.same rfl rfl rfl rfl hready rfl

theorem TimerLife.startIdle (h : TimerLife s) : TimerLife (s.setCore Core.startIdle) :=
  h.setCore s.toCore.startIdle_ready

/-- A change to one handle that may cancel it, but keeps its type, its deadline and its flag. -/
structure MayCancel (f : HandleRec T → HandleRec T) : Prop where
  /-- The type stays. -/
  kind : ∀ r, (f r).kind = r.kind
  /-- The deadline stays. -/
  when : ∀ r, (f r).when = r.when
  /-- The flag stays. -/
  inHeap : ∀ r, (f r).inHeap = r.inHeap
  /-- Cancellation is final. -/
  cancelled : ∀ r, r.cancelled = true → (f r).cancelled = true

omit [LinearOrder T] in
theorem MayCancel.cancel : MayCancel (HandleRec.cancel : HandleRec T → HandleRec T) :=
  ⟨fun _ => rfl, fun _ => rfl, fun _ => rfl, fun _ _ => rfl⟩

theorem MayCancel.setHandle {f : HandleRec T → HandleRec T} (hf : MayCancel f) (s : State T)
    (k j : ℕ) : ((s.setHandle k f).handles j).kind = (s.handles j).kind ∧
      ((s.setHandle k f).handles j).when = (s.handles j).when ∧
      ((s.setHandle k f).handles j).inHeap = (s.handles j).inHeap ∧
      ((s.handles j).cancelled = true → ((s.setHandle k f).handles j).cancelled = true) := by
  rw [s.handles_setHandle]
  split
  · rename_i hj
    exact hj ▸ ⟨hf.kind _, hf.when _, hf.inHeap _, hf.cancelled _⟩
  · exact ⟨rfl, rfl, rfl, id⟩

/-- Cancelling a handle without an entry in the heap. -/
theorem TimerLife.cancel_noEntry (h : TimerLife s) {k : ℕ}
    (hnot : ∀ e ∈ s.timers.contents, e.handle ≠ k) {f : HandleRec T → HandleRec T}
    (hf : MayCancel f) : TimerLife (s.setHandle k f) := by
  have hsame := hf.setHandle s k
  refine ⟨⟨fun e he => ?_, h.heap.nodup, h.heap.registration, fun j hj hjk => ?_, ?_⟩,
    h.places.mono rfl rfl rfl rfl (fun j _ => (hsame j).1) fun j _ hin => (hsame j).2.2.1 ▸ hin,
    h.past.mono rfl le_rfl (fun j _ => (hsame j).1) (fun j _ => (hsame j).2.1)
      fun j _ => (hsame j).2.2.2⟩
  · rw [(hsame _).1, (hsame _).2.1]
    exact h.heap.entries e he
  · rw [(hsame j).2.2.1]
    exact h.heap.flag j hj ((hsame j).1 ▸ hjk)
  · refine h.heap.count.trans (congrArg _ (Multiset.filter_congr fun e he => ?_))
    rw [s.handles_setHandle_of_ne f (hnot e he)]

/-- Cancelling a handle that is not a timer. -/
theorem TimerLife.cancel_other (h : TimerLife s) {k : ℕ} (hkind : (s.handles k).kind ≠ .timer)
    {f : HandleRec T → HandleRec T} (hf : MayCancel f) : TimerLife (s.setHandle k f) :=
  h.cancel_noEntry (fun e he heq => hkind (by rw [← heq]; exact (h.heap.entries e he).2.1)) hf

/-- Cancelling a timer that is not in the heap. -/
theorem TimerLife.cancel_notInHeap (h : TimerLife s) {k : ℕ} (hk : k < s.fresh)
    (hkind : (s.handles k).kind = .timer) (hin : (s.handles k).inHeap = false)
    {f : HandleRec T → HandleRec T} (hf : MayCancel f) : TimerLife (s.setHandle k f) := by
  refine h.cancel_noEntry (fun e he heq => ?_) hf
  have hmem := (h.heap.flag k hk hkind).mpr (Multiset.mem_map.mpr ⟨e, he, heq⟩)
  rw [hin] at hmem
  cases hmem

/-- Cancelling a timer that is in the heap, and counting it. -/
theorem TimerLife.cancel_inHeap (h : TimerLife s) {k : ℕ} (hk : k < s.fresh)
    (hkind : (s.handles k).kind = .timer) (hin : (s.handles k).inHeap = true)
    (hlive : (s.handles k).cancelled = false) {f : HandleRec T → HandleRec T} (hf : MayCancel f)
    (hcancel : ∀ r, (f r).cancelled = true) : TimerLife (s.setHandle k f).countCancelled := by
  have hsame := hf.setHandle s k
  refine ⟨⟨fun e he => ?_, h.heap.nodup, h.heap.registration, fun j hj hjk => ?_, ?_⟩,
    h.places.mono rfl rfl rfl rfl (fun j _ => (hsame j).1) fun j _ hin => (hsame j).2.2.1 ▸ hin,
    h.past.mono rfl le_rfl (fun j _ => (hsame j).1) (fun j _ => (hsame j).2.1)
      fun j _ => (hsame j).2.2.2⟩
  · change _ ∧ ((s.setHandle k f).handles _).kind = _ ∧ ((s.setHandle k f).handles _).when = _
    rw [(hsame _).1, (hsame _).2.1]
    exact h.heap.entries e he
  · change ((s.setHandle k f).handles j).inHeap = true ↔ _
    rw [(hsame j).2.2.1]
    exact h.heap.flag j hj ((hsame j).1 ▸ hjk)
  · -- exactly one entry of the heap is the timer's
    obtain ⟨e, he, rfl⟩ := Multiset.mem_map.mp ((h.heap.flag k hk hkind).mp hin)
    obtain ⟨rest, hrest⟩ := Multiset.exists_cons_of_mem he
    have hnodup := h.heap.nodup
    rw [hrest, Multiset.map_cons, Multiset.nodup_cons] at hnodup
    change s.timers.cancelled + 1 = (s.timers.contents.filter fun x =>
      ((s.setHandle e.handle f).handles x.handle).cancelled = true).card
    have hself : ((s.setHandle e.handle f).handles e.handle).cancelled = true := by
      rw [s.handles_setHandle_self]
      exact hcancel _
    have hcongr : rest.filter (fun x =>
          ((s.setHandle e.handle f).handles x.handle).cancelled = true) =
        rest.filter fun x => (s.handles x.handle).cancelled = true :=
      Multiset.filter_congr fun x hx => by
        rw [s.handles_setHandle_of_ne f fun heq => hnodup.1 (Multiset.mem_map.mpr ⟨x, hx, heq⟩)]
    rw [h.heap.count, hrest, Multiset.filter_cons_of_neg, Multiset.filter_cons_of_pos,
      Multiset.card_cons, hcongr]
    · exact hself
    · rw [hlive]
      exact Bool.false_ne_true

/-- A timer that is nowhere: not in the heap, not in the ready queue, and it has not run. -/
def State.Nowhere (s : State T) (k : ℕ) : Prop :=
  (s.handles k).kind = .timer →
    s.ran.count k + s.ready.toList.count k + (s.handles k).inHeap.toNat = 0

/-- A new handle that is not in the heap. -/
theorem TimerLife.addHandle (h : TimerLife s) {r : HandleRec T}
    (hr : r.kind = .timer → r.inHeap = false) :
    TimerLife (s.addHandle r) ∧ (s.addHandle r).Nowhere s.fresh := by
  have hold : ∀ k < s.fresh, (s.addHandle r).handles k = s.handles k := fun k hk =>
    s.handles_addHandle_of_lt r hk
  have hnew := s.handles_addHandle_self r
  obtain ⟨⟨h1, h2, hreg, h3, h4⟩, ⟨h5, h6, h7, h8, h10⟩, h9⟩ := h
  have hheap : s.fresh ∉ s.timers.contents.map TimerEntry.handle := fun hmem => by
    obtain ⟨e, he, heq⟩ := Multiset.mem_map.mp hmem
    exact (h1 e he).1.ne heq
  have hnowhere : (s.addHandle r).Nowhere s.fresh := by
    intro hkind
    change s.ran.count s.fresh + s.ready.toList.count s.fresh + _ = 0
    rw [hnew] at hkind ⊢
    rw [List.count_eq_zero.mpr fun hmem => (h6 _ hmem).ne rfl,
      List.count_eq_zero.mpr fun hmem => (h7 _ hmem).ne rfl, hr hkind]
    rfl
  refine ⟨⟨⟨fun e he => ?_, h2, hreg, fun k hk hkind => ?_, ?_⟩, ⟨fun k hk hkind => ?_,
    fun k hk => (h6 k hk).trans (Nat.lt_succ_self _),
    fun k hk => (h7 k hk).trans (Nat.lt_succ_self _), fun k hk => ?_, fun k hk hkind => ?_⟩,
    h9.mono rfl (Nat.le_succ _) (fun k hk => congrArg _ (hold k hk))
      (fun k hk => congrArg _ (hold k hk)) fun k hk hc => by rwa [hold k hk]⟩, hnowhere⟩
  · obtain ⟨hlt, hkind, hwhen⟩ := h1 e he
    rw [hold _ hlt]
    exact ⟨hlt.trans (Nat.lt_succ_self _), hkind, hwhen⟩
  · rcases Nat.lt_succ_iff_lt_or_eq.mp hk with hlt | rfl
    · rw [hold k hlt] at hkind ⊢
      exact h3 k hlt hkind
    · rw [hnew] at hkind ⊢
      rw [hr hkind]
      exact ⟨nofun, fun hmem => absurd hmem hheap⟩
  · refine h4.trans (congrArg _ (Multiset.filter_congr fun e he => ?_))
    rw [hold _ (h1 e he).1]
  · rcases Nat.lt_succ_iff_lt_or_eq.mp hk with hlt | rfl
    · rw [hold k hlt] at hkind ⊢
      exact h5 k hlt hkind
    · exact (hnowhere hkind).trans_le (Nat.zero_le 1)
  · obtain ⟨hlt, hkind⟩ := h8 k hk
    rw [hold k hlt]
    exact ⟨hlt.trans (Nat.lt_succ_self _), hkind⟩
  · exact h10 k hk (hold k (hk.elim (h7 k) (h6 k)) ▸ hkind)

/-- Creating a handle that is not a timer. -/
theorem TimerLife.create_other (h : TimerLife s) (kind : HandleKind) (hkind : kind ≠ .timer)
    (when : T) : TimerLife (s.create kind when) :=
  (h.addHandle fun hk => absurd hk hkind).1

/-- Creating a timer that goes straight to the ready queue. -/
theorem TimerLife.create_ready (h : TimerLife s) (when : T) :
    TimerLife ((s.create .timer when).setHandle s.fresh HandleRec.markReady) ∧
      ((s.create .timer when).setHandle s.fresh HandleRec.markReady).Nowhere s.fresh := by
  rw [State.create, State.addHandle_setHandle]
  exact h.addHandle fun _ => rfl

/-- Creating a timer that goes into the heap. -/
theorem TimerLife.create_heap (h : TimerLife s) {when : T} {timers : TimerHeap T ℕ} {seq : ℕ}
    (hcontents : timers.contents = { when, seq, handle := s.fresh } ::ₘ s.timers.contents)
    (hseq : ∀ e ∈ s.timers.contents, e.seq < seq)
    (hcount : timers.cancelled = s.timers.cancelled) :
    TimerLife ((s.create .timer when).setTimers timers) := by
  have hold : ∀ k < s.fresh, (s.create .timer when).handles k = s.handles k := fun k hk =>
    s.handles_create_of_lt .timer when hk
  have hnew := s.handles_create_self .timer when
  obtain ⟨⟨h1, h2, hreg, h3, h4⟩, ⟨h5, h6, h7, h8, h10⟩, h9⟩ := h
  have hheap : s.fresh ∉ s.timers.contents.map TimerEntry.handle := fun hmem => by
    obtain ⟨e, he, heq⟩ := Multiset.mem_map.mp hmem
    exact (h1 e he).1.ne heq
  have hlast : ∀ e ∈ s.timers.contents, e.handle < s.fresh := fun e he => (h1 e he).1
  refine ⟨⟨fun e he => ?_, ?_, fun e he e' he' hlt => ?_, fun k hk hkind => ?_, ?_⟩,
    ⟨fun k hk hkind => ?_,
    fun k hk => (h6 k hk).trans (Nat.lt_succ_self _),
    fun k hk => (h7 k hk).trans (Nat.lt_succ_self _), fun k hk => ?_, fun k hk hkind => ?_⟩,
    h9.mono rfl (Nat.le_succ _) (fun k hk => congrArg _ (hold k hk))
      (fun k hk => congrArg _ (hold k hk)) fun k hk hc => by
        change ((s.create .timer when).handles k).cancelled = true
        rwa [hold k hk]⟩
  · change e.handle < s.fresh + 1 ∧ ((s.create .timer when).handles e.handle).kind = _ ∧
      ((s.create .timer when).handles e.handle).when = _
    rw [State.setTimers, hcontents, Multiset.mem_cons] at he
    rcases he with rfl | he
    · dsimp only
      rw [hnew]
      exact ⟨Nat.lt_succ_self _, rfl, rfl⟩
    · obtain ⟨hlt, hkind, hwhen⟩ := h1 e he
      rw [hold _ hlt]
      exact ⟨hlt.trans (Nat.lt_succ_self _), hkind, hwhen⟩
  · change (timers.contents.map TimerEntry.handle).Nodup
    rw [hcontents, Multiset.map_cons]
    exact Multiset.nodup_cons.mpr ⟨hheap, h2⟩
  · change e ∈ timers.contents at he
    change e' ∈ timers.contents at he'
    rw [hcontents, Multiset.mem_cons] at he he'
    rcases he with rfl | he <;> rcases he' with rfl | he'
    · exact absurd hlt (lt_irrefl _)
    · exact absurd hlt (hseq e' he').not_gt
    · exact hlast e he
    · exact hreg e he e' he' hlt
  · change ((s.create .timer when).handles k).inHeap = true ↔
      k ∈ timers.contents.map TimerEntry.handle
    change ((s.create .timer when).handles k).kind = _ at hkind
    rw [hcontents, Multiset.map_cons, Multiset.mem_cons]
    rcases Nat.lt_succ_iff_lt_or_eq.mp hk with hlt | rfl
    · rw [hold k hlt] at hkind ⊢
      rw [h3 k hlt hkind]
      exact ⟨Or.inr, fun hor => hor.resolve_left hlt.ne⟩
    · rw [hnew]
      exact ⟨fun _ => Or.inl rfl, fun _ => rfl⟩
  · change timers.cancelled = (timers.contents.filter fun e =>
      ((s.create .timer when).handles e.handle).cancelled = true).card
    have hnot : ¬ ((s.create .timer when).handles
        (TimerEntry.mk when seq s.fresh).handle).cancelled = true := by
      rw [hnew]
      exact Bool.false_ne_true
    rw [hcount, hcontents, Multiset.filter_cons_of_neg, h4]
    · refine congrArg _ (Multiset.filter_congr fun e he => ?_)
      rw [hold _ (h1 e he).1]
    · exact hnot
  · change s.ran.count k + s.ready.toList.count k +
      ((s.create .timer when).handles k).inHeap.toNat ≤ 1
    change ((s.create .timer when).handles k).kind = _ at hkind
    rcases Nat.lt_succ_iff_lt_or_eq.mp hk with hlt | rfl
    · rw [hold k hlt] at hkind ⊢
      exact h5 k hlt hkind
    · rw [List.count_eq_zero.mpr fun hmem => (h6 _ hmem).ne rfl,
        List.count_eq_zero.mpr fun hmem => (h7 _ hmem).ne rfl, hnew]
      exact le_rfl
  · obtain ⟨hlt, hkind⟩ := h8 k hk
    refine ⟨hlt.trans (Nat.lt_succ_self _), ?_⟩
    change ((s.create .timer when).handles k).kind ≠ _
    rwa [hold k hlt]
  · exact h10 k hk (hold k (hk.elim (h7 k) (h6 k)) ▸ hkind)

/-- Queueing a handle that is nowhere, if it is a timer. -/
theorem TimerLife.push (h : TimerLife s) {k : ℕ} (hk : k < s.fresh) (hnowhere : s.Nowhere k)
    (hdue : (s.handles k).kind = .timer → ∃ when now, Event.due k when now ∈ s.history)
    {q : Queue ℕ} (hq : q.toList = s.ready.toList ++ [k]) : TimerLife (s.setReady q) := by
  obtain ⟨hheap, ⟨h5, h6, h7, h8, h10⟩, hpast⟩ := h
  refine ⟨⟨hheap.entries, hheap.nodup, hheap.registration, hheap.flag, hheap.count⟩,
    ⟨fun j hj hkind => ?_, h6, fun j hj => ?_, h8, fun j hj hkind => ?_⟩,
    ⟨hpast.ok, hpast.silent⟩⟩
  · change s.ran.count j + q.toList.count j + (s.handles j).inHeap.toNat ≤ 1
    rw [hq, List.count_append]
    have hold := h5 j hj hkind
    rcases eq_or_ne j k with rfl | hne
    · have hzero := hnowhere hkind
      rw [List.count_singleton_self]
      omega
    · rw [List.count_singleton, if_neg (by simpa using hne.symm)]
      exact hold
  · change j ∈ q.toList at hj
    rw [hq, List.mem_append, List.mem_singleton] at hj
    rcases hj with hj | rfl
    · exact h7 j hj
    · exact hk
  · change j ∈ q.toList ∨ j ∈ s.ran at hj
    rw [hq, List.mem_append, List.mem_singleton] at hj
    rcases hj with (hj | rfl) | hj
    · exact h10 j (Or.inl hj) hkind
    · exact hdue hkind
    · exact h10 j (Or.inr hj) hkind

/-- Queueing a handle that is not a timer. -/
theorem TimerLife.push_other (h : TimerLife s) {k : ℕ} (hk : k < s.fresh)
    (hkind : (s.handles k).kind ≠ .timer) {q : Queue ℕ}
    (hq : q.toList = s.ready.toList ++ [k]) : TimerLife (s.setReady q) :=
  h.push hk (fun hk => absurd hk hkind) (fun hk => absurd hk hkind) hq

/-- Draining the inbox, which holds no timers. -/
theorem TimerLife.drain (h : TimerLife s) {ready inbox : Queue ℕ}
    (hready : ready.toList = s.ready.toList ++ s.threadsafeReady.toList)
    (hinbox : inbox.toList = []) : TimerLife ((s.setReady ready).setInbox inbox) := by
  obtain ⟨hheap, ⟨h5, h6, h7, h8, h10⟩, hpast⟩ := h
  refine ⟨⟨hheap.entries, hheap.nodup, hheap.registration, hheap.flag, hheap.count⟩,
    ⟨fun j hj hkind => ?_, h6, fun j hj => ?_, fun j hj => ?_, fun j hj hkind => ?_⟩,
    ⟨hpast.ok, hpast.silent⟩⟩
  · change s.ran.count j + ready.toList.count j + (s.handles j).inHeap.toNat ≤ 1
    have hnone : s.threadsafeReady.toList.count j = 0 :=
      List.count_eq_zero.mpr fun hmem => (h8 j hmem).2 hkind
    rw [hready, List.count_append, hnone, Nat.add_zero]
    exact h5 j hj hkind
  · change j ∈ ready.toList at hj
    rw [hready, List.mem_append] at hj
    rcases hj with hj | hj
    · exact h7 j hj
    · exact (h8 j hj).1
  · change j ∈ inbox.toList at hj
    rw [hinbox] at hj
    cases hj
  · change j ∈ ready.toList ∨ j ∈ s.ran at hj
    rw [hready, List.mem_append] at hj
    rcases hj with (hj | hj) | hj
    · exact h10 j (Or.inl hj) hkind
    · exact absurd hkind (h8 j hj).2
    · exact h10 j (Or.inr hj) hkind

/-- Putting a thread-safe handle into the inbox. -/
theorem TimerLife.pushInbox (hs : TimerLife s) {k : ℕ} (hk : k < s.fresh)
    (hkind : (s.handles k).kind ≠ .timer) {q : Queue ℕ}
    (hq : q.toList = s.threadsafeReady.toList ++ [k]) : TimerLife (s.setInbox q) := by
  obtain ⟨hheap, ⟨h5, h6, h7, h8, h10⟩, hpast⟩ := hs
  refine ⟨⟨hheap.entries, hheap.nodup, hheap.registration, hheap.flag, hheap.count⟩,
    ⟨h5, h6, h7, fun j hj => ?_, h10⟩, ⟨hpast.ok, hpast.silent⟩⟩
  change j ∈ q.toList at hj
  rw [hq, List.mem_append, List.mem_singleton] at hj
  rcases hj with hj | rfl
  · exact h8 j hj
  · exact ⟨hk, hkind⟩

/-- Taking an entry out of the heap, ending its scheduled state, and counting it out if it was
cancelled. Afterwards the timer is nowhere. -/
theorem TimerLife.remove (h : TimerLife s) {e : TimerEntry T ℕ} {timers : TimerHeap T ℕ}
    (hcontents : s.timers.contents = e ::ₘ timers.contents)
    (hcount : timers.cancelled + (s.handles e.handle).cancelled.toNat = s.timers.cancelled) :
    TimerLife ((s.setTimers timers).setHandle e.handle HandleRec.clearScheduled) ∧
      ((s.setTimers timers).setHandle e.handle HandleRec.clearScheduled).Nowhere e.handle := by
  obtain ⟨⟨h1, h2, hreg, h3, h4⟩, hplaces, h9⟩ := h
  obtain ⟨hlt, hkind, -⟩ := h1 e (hcontents ▸ Multiset.mem_cons_self e _)
  rw [hcontents, Multiset.map_cons, Multiset.nodup_cons] at h2
  have hother : ∀ x ∈ timers.contents, x.handle ≠ e.handle := fun x hx heq =>
    h2.1 (Multiset.mem_map.mpr ⟨x, hx, heq⟩)
  have hsub : ∀ x ∈ timers.contents, x ∈ s.timers.contents := fun x hx =>
    hcontents ▸ Multiset.mem_cons_of_mem hx
  have hself : ((s.setTimers timers).setHandle e.handle HandleRec.clearScheduled).handles
      e.handle = (s.handles e.handle).clearScheduled := State.handles_setHandle_self _ _ _
  have hne : ∀ k ≠ e.handle, ((s.setTimers timers).setHandle e.handle
      HandleRec.clearScheduled).handles k = s.handles k := fun k hk =>
    State.handles_setHandle_of_ne _ _ hk
  have hsame : ∀ k, (((s.setTimers timers).setHandle e.handle
        HandleRec.clearScheduled).handles k).kind = (s.handles k).kind ∧
      (((s.setTimers timers).setHandle e.handle HandleRec.clearScheduled).handles k).when =
        (s.handles k).when ∧
      (((s.setTimers timers).setHandle e.handle HandleRec.clearScheduled).handles k).cancelled =
        (s.handles k).cancelled := by
    intro k
    rcases eq_or_ne k e.handle with rfl | hk
    · rw [hself]
      exact ⟨rfl, rfl, rfl⟩
    · rw [hne k hk]
      exact ⟨rfl, rfl, rfl⟩
  have hin : (s.handles e.handle).inHeap = true := (h3 e.handle hlt hkind).mpr (by
    rw [hcontents, Multiset.map_cons]
    exact Multiset.mem_cons_self _ _)
  have hunflag : ∀ k < s.fresh, (((s.setTimers timers).setHandle e.handle
      HandleRec.clearScheduled).handles k).inHeap = true → (s.handles k).inHeap = true := by
    intro k _ hflag
    rcases eq_or_ne k e.handle with rfl | hk
    · exact hin
    · rwa [hne k hk] at hflag
  refine ⟨⟨⟨fun x hx => ?_, h2.2, fun x hx y hy => hreg x (hsub x hx) y (hsub y hy),
    fun k hk hkk => ?_, ?_⟩, hplaces.mono rfl rfl rfl rfl
    (fun k _ => (hsame k).1) hunflag, h9.mono rfl le_rfl (fun k _ => (hsame k).1)
      (fun k _ => (hsame k).2.1) fun k _ hc => (hsame k).2.2.trans hc⟩, fun _ => ?_⟩
  · rw [(hsame _).1, (hsame _).2.1]
    exact h1 x (hsub x hx)
  · change _ ↔ k ∈ timers.contents.map TimerEntry.handle
    rcases eq_or_ne k e.handle with rfl | hke
    · rw [hself]
      exact ⟨nofun, fun hmem => absurd hmem h2.1⟩
    · rw [(hsame k).1] at hkk
      rw [hne k hke, h3 k hk hkk, hcontents, Multiset.map_cons, Multiset.mem_cons]
      exact ⟨fun hor => hor.resolve_left hke, Or.inr⟩
  · change timers.cancelled = (timers.contents.filter _).card
    have hrest : (timers.contents.filter fun x => (((s.setTimers timers).setHandle e.handle
        HandleRec.clearScheduled).handles x.handle).cancelled = true) =
        timers.contents.filter fun x => (s.handles x.handle).cancelled = true :=
      Multiset.filter_congr fun x _ => by rw [(hsame x.handle).2.2]
    rw [hrest]
    rw [h4, hcontents, Multiset.filter_cons, Multiset.card_add] at hcount
    cases hc : (s.handles e.handle).cancelled with
    | false =>
      simp only [hc, Bool.toNat_false, Bool.false_eq_true, ↓reduceIte, Multiset.card_zero] at hcount
      omega
    | true =>
      simp only [hc, Bool.toNat_true, ↓reduceIte, Multiset.card_singleton] at hcount
      omega
  · change s.ran.count e.handle + s.ready.toList.count e.handle + _ = 0
    have hold := hplaces.once e.handle hlt hkind
    rw [hin, Bool.toNat_true] at hold
    rw [hself]
    change _ + 0 = 0
    omega

/-- Dropping a cancelled timer from the top of the heap. -/
theorem TimerLife.dropTop (h : TimerLife s) {e : TimerEntry T ℕ} (he : s.timers.peek = some e)
    (hc : (s.handles e.handle).cancelled = true) :
    TimerLife (s.popTimer.setHandle e.handle HandleRec.clearScheduled).uncountCancelled := by
  have hcontents := TimerHeap.contents_pop he
  have hpos : s.timers.cancelled ≠ 0 := by
    rw [h.heap.count, hcontents, Multiset.filter_cons_of_pos, Multiset.card_cons]
    · exact Nat.succ_ne_zero _
    · exact hc
  have hpop : s.timers.pop.2.cancelled ≠ 0 := by
    rwa [TimerHeap.pop_cancelled]
  have hstate : (s.popTimer.setHandle e.handle HandleRec.clearScheduled).uncountCancelled =
      (s.setTimers (s.timers.pop.2.setCancelled (s.timers.pop.2.cancelled - 1))).setHandle
        e.handle HandleRec.clearScheduled := if_pos hpop
  rw [hstate]
  refine (h.remove (by rw [TimerHeap.contents_setCancelled, ← hcontents]) ?_).1
  rw [TimerHeap.cancelled_setCancelled, TimerHeap.pop_cancelled, hc, Bool.toNat_true]
  omega

/-- Taking a live timer from the top of the heap. -/
theorem TimerLife.popTop (h : TimerLife s) {e : TimerEntry T ℕ} (he : s.timers.peek = some e)
    (hc : (s.handles e.handle).cancelled = false) :
    TimerLife (s.popTimer.setHandle e.handle HandleRec.clearScheduled) ∧
      (s.popTimer.setHandle e.handle HandleRec.clearScheduled).Nowhere e.handle := by
  refine h.remove (TimerHeap.contents_pop he) ?_
  rw [TimerHeap.pop_cancelled, hc]
  rfl

/-- Compacting drops exactly the cancelled entries, and their flags. -/
theorem TimerLife.compactTimers (h : TimerLife s) : TimerLife (s.compactTimers true).1 := by
  obtain ⟨⟨h1, h2, hreg, h3, h4⟩, hplaces, h9⟩ := h
  obtain ⟨hkeep, hdrop, -, hzero⟩ := s.timers.contents_compact fun h => (s.handles h).cancelled
  have hdoomed : ∀ k, k ∈ (s.compactTimers true).2 ↔
      ∃ e ∈ s.timers.contents, (s.handles e.handle).cancelled = true ∧ e.handle = k := by
    intro k
    rw [← Multiset.mem_coe]
    change k ∈ ((s.timers.compact true fun h => (s.handles h).cancelled).2 : Multiset ℕ) ↔ _
    rw [hdrop, Multiset.mem_map]
    simp only [Multiset.mem_filter, and_assoc]
  have hhandle : ∀ k, (s.compactTimers true).1.handles k =
      if k ∈ (s.compactTimers true).2 then (s.handles k).clearScheduled else s.handles k :=
    fun _ => rfl
  have hcontents : ∀ e, e ∈ (s.compactTimers true).1.timers.contents ↔
      e ∈ s.timers.contents ∧ ¬ (s.handles e.handle).cancelled = true := by
    intro e
    change e ∈ (s.timers.compact true fun h => (s.handles h).cancelled).1.contents ↔ _
    rw [hkeep, Multiset.mem_filter]
  have hsame : ∀ k, ((s.compactTimers true).1.handles k).kind = (s.handles k).kind ∧
      ((s.compactTimers true).1.handles k).when = (s.handles k).when ∧
      ((s.compactTimers true).1.handles k).cancelled = (s.handles k).cancelled := by
    intro k
    rw [hhandle]
    split
    · exact ⟨rfl, rfl, rfl⟩
    · exact ⟨rfl, rfl, rfl⟩
  have hunflag : ∀ k < s.fresh, ((s.compactTimers true).1.handles k).inHeap = true →
      (s.handles k).inHeap = true := by
    intro k _ hflag
    rw [hhandle] at hflag
    split at hflag
    · cases hflag
    · exact hflag
  refine ⟨⟨fun e he => ?_, ?_, fun e he e' he' => hreg e ((hcontents e).mp he).1 e'
    ((hcontents e').mp he').1, fun k hk hkind => ?_, ?_⟩, hplaces.mono rfl rfl rfl rfl
    (fun k _ => (hsame k).1) hunflag, h9.mono rfl le_rfl (fun k _ => (hsame k).1)
      (fun k _ => (hsame k).2.1) fun k _ hc => (hsame k).2.2.trans hc⟩
  · rw [(hsame _).1, (hsame _).2.1]
    exact h1 e ((hcontents e).mp he).1
  · change ((s.timers.compact true fun h => (s.handles h).cancelled).1.contents.map
      TimerEntry.handle).Nodup
    rw [hkeep]
    exact Multiset.nodup_of_le (Multiset.map_le_map (Multiset.filter_le _ _)) h2
  · rw [(hsame k).1] at hkind
    rw [hhandle, Multiset.mem_map]
    split
    · -- a dropped timer: every entry of it was cancelled
      rename_i hmem
      refine ⟨nofun, ?_⟩
      rintro ⟨e, he, rfl⟩
      obtain ⟨e', he', hc', heq⟩ := (hdoomed _).mp hmem
      exact absurd (heq ▸ hc') ((hcontents e).mp he).2
    · rename_i hmem
      rw [h3 k hk hkind, Multiset.mem_map]
      constructor
      · rintro ⟨e, he, rfl⟩
        exact ⟨e, (hcontents e).mpr ⟨he, fun hc => hmem ((hdoomed _).mpr ⟨e, he, hc, rfl⟩)⟩, rfl⟩
      · rintro ⟨e, he, rfl⟩
        exact ⟨e, ((hcontents e).mp he).1, rfl⟩
  · have hnone : (s.compactTimers true).1.timers.contents.filter (fun e =>
        ((s.compactTimers true).1.handles e.handle).cancelled = true) = 0 := by
      refine Multiset.filter_eq_nil.mpr fun e he => ?_
      rw [(hsame _).2.2]
      exact ((hcontents e).mp he).2
    rw [hnone]
    exact hzero

/-- A timer that is nowhere stops being scheduled. -/
theorem TimerLife.clearScheduled (h : TimerLife s) {k : ℕ} (hnowhere : s.Nowhere k)
    (hkind : (s.handles k).kind = .timer) :
    TimerLife (s.setHandle k HandleRec.clearScheduled) := by
  refine h.setHandle k ⟨rfl, rfl, ?_, rfl⟩
  have hzero := hnowhere hkind
  cases hin : (s.handles k).inHeap with
  | false => rfl
  | true =>
    rw [hin, Bool.toNat_true] at hzero
    omega

/-- Taking a handle off the ready queue: if it is a timer, it is nowhere then. -/
theorem TimerLife.pop (h : TimerLife s) {k : ℕ} {q : Queue ℕ}
    (hq : s.ready.toList = k :: q.toList) :
    TimerLife (s.setReady q) ∧ k < s.fresh ∧ (s.setReady q).Nowhere k ∧
      ((s.handles k).kind = .timer → ∃ when now, Event.due k when now ∈ s.history) := by
  obtain ⟨hheap, ⟨h5, h6, h7, h8, h10⟩, hpast⟩ := h
  have hk : k < s.fresh := h7 k (hq ▸ List.mem_cons_self ..)
  have hsub : ∀ j ∈ q.toList, j ∈ s.ready.toList := fun j hj => hq ▸ List.mem_cons_of_mem k hj
  refine ⟨⟨⟨hheap.entries, hheap.nodup, hheap.registration, hheap.flag, hheap.count⟩,
    ⟨fun j hj hkind => ?_, h6, fun j hj => h7 j (hsub j hj), h8,
      fun j hj => h10 j (hj.imp_left (hsub j))⟩, ⟨hpast.ok, hpast.silent⟩⟩, hk, fun hkind => ?_,
    h10 k (Or.inl (hq ▸ List.mem_cons_self ..))⟩
  · change s.ran.count j + q.toList.count j + (s.handles j).inHeap.toNat ≤ 1
    have hold := h5 j hj hkind
    rw [hq, List.count_cons] at hold
    omega
  · change s.ran.count k + q.toList.count k + (s.handles k).inHeap.toNat = 0
    have hold := h5 k hk hkind
    rw [hq, List.count_cons_self] at hold
    omega

/-- Running a handle that is nowhere, if it is a timer, and not cancelled then. -/
theorem TimerLife.record_ran (h : TimerLife s) {k : ℕ} (hk : k < s.fresh)
    (hnowhere : s.Nowhere k)
    (hdue : (s.handles k).kind = .timer → ∃ when now, Event.due k when now ∈ s.history)
    (hlive : (s.handles k).kind = .timer →
      (s.handles k).cancelled = false) : TimerLife (s.record (.ran k)) := by
  have hran : (s.record (.ran k)).ran = s.ran ++ [k] := s.ran_record _
  obtain ⟨hheap, ⟨h5, h6, h7, h8, h10⟩, hpast⟩ := h
  refine ⟨⟨hheap.entries, hheap.nodup, hheap.registration, hheap.flag, hheap.count⟩,
    ⟨fun j hj hkind => ?_, fun j hj => ?_, h7, h8, fun j hj hkind => ?_⟩,
    hpast.record trivial fun e he => ?_⟩
  · rw [hran, List.count_append]
    change s.ran.count j + [k].count j + s.ready.toList.count j + (s.handles j).inHeap.toNat ≤ 1
    have hold := h5 j hj hkind
    rcases eq_or_ne j k with rfl | hne
    · have hzero := hnowhere hkind
      rw [List.count_singleton_self]
      omega
    · rw [List.count_singleton, if_neg (by simpa using hne.symm)]
      exact hold
  · rw [hran, List.mem_append, List.mem_singleton] at hj
    rcases hj with hj | rfl
    · exact h6 j hj
    · exact hk
  · have hold : ∃ when now, Event.due j when now ∈ s.history := by
      rw [hran, List.mem_append, List.mem_singleton] at hj
      rcases hj with hj | hj | rfl
      · exact h10 j (Or.inl hj) hkind
      · exact h10 j (Or.inr hj) hkind
      · exact hdue hkind
    obtain ⟨when, now, hmem⟩ := hold
    exact ⟨when, now, List.mem_append_left _ hmem⟩
  · cases e with
    | registered => trivial
    | ran => trivial
    | due => trivial
    | cancelReturned j wasInHeap first cancelled len =>
      rintro rfl
      obtain ⟨-, hkind, hc, -⟩ := hpast.ok _ he
      rw [hlive hkind] at hc
      cases hc

/-- Recording an event that is not a run. -/
theorem TimerLife.record (h : TimerLife s) {e : Event T} (hran : e.ran? = none) (he : e.Ok s) :
    TimerLife (s.record e) := by
  have hsame : (s.record e).ran = s.ran := by
    rw [s.ran_record, hran]
    exact List.append_nil _
  obtain ⟨hheap, ⟨h5, h6, h7, h8, h10⟩, hpast⟩ := h
  refine ⟨⟨hheap.entries, hheap.nodup, hheap.registration, hheap.flag, hheap.count⟩,
    ⟨fun j hj hkind => ?_, fun j hj => h6 j (hsame ▸ hj), h7, h8, fun j hj hkind => ?_⟩,
    hpast.record he fun e' _ => ?_⟩
  · rw [hsame]
    exact h5 j hj hkind
  · obtain ⟨when, now, hmem⟩ := h10 j (hsame ▸ hj) hkind
    exact ⟨when, now, List.mem_append_left _ hmem⟩
  · cases e with
    | ran => cases hran
    | registered => cases e' <;> trivial
    | due => cases e' <;> trivial
    | cancelReturned => cases e' <;> trivial

/-- Queueing a timer that is due and nowhere, and recording it. -/
theorem TimerLife.push_due (h : TimerLife s) {k : ℕ} (hk : k < s.fresh) (hnowhere : s.Nowhere k)
    {when now : T} (hwhen : (s.handles k).when = when) (hle : when ≤ now) {q : Queue ℕ}
    (hq : q.toList = s.ready.toList ++ [k]) :
    TimerLife ((s.setReady q).record (.due k when now)) := by
  have hrecord : TimerLife (s.record (.due k when now)) := h.record rfl ⟨hk, hwhen, hle⟩
  refine hrecord.push hk ?_
    (fun _ => ⟨when, now, List.mem_append_right _ (List.mem_singleton_self _)⟩) hq
  intro hkind
  have hran : (s.record (.due k when now)).ran = s.ran := by
    rw [s.ran_record]
    exact List.append_nil _
  rw [hran]
  exact hnowhere hkind

end Updates

/-! ## Programs that keep the invariant -/

/-- Dropping cancelled timers cancels none and counts none, and records nothing. -/
structure OnlyDrops (s s' : State T) : Prop where
  /-- The count does not grow. -/
  count : s'.timers.cancelled ≤ s.timers.cancelled
  /-- No handle is created. -/
  fresh : s'.fresh = s.fresh
  /-- Handles keep their type. -/
  kind : ∀ k, (s'.handles k).kind = (s.handles k).kind
  /-- Handles keep their cancellation. -/
  cancelled : ∀ k, (s'.handles k).cancelled = (s.handles k).cancelled

/-- The specification. Timers are collected at the time the clock was last read. -/
def lifeSpec : Spec (sig T) where
  inv := TimerLife
  rely := fun _ _ => True
  pre := fun f s => TimerLife s ∧ match f with
    | Proc.collectDue deadline => s.clock = deadline
    | _ => True
  post := fun f s s' => TimerLife s' ∧ match f with
    | Proc.dropCancelled => OnlyDrops s s'
    | _ => True

section Programs

theorem TimerLife.wp_release {s : State T} {Q : Unit → State T → Prop} (h : Q () s) :
    (release : P T _).wp (env True) lifeSpec Q s := wp_release_of_quiet trivial Q h

theorem TimerLife.keeps_python (c : Callback) : (python c : P T _).Keeps (env True) lifeSpec :=
  fun _ hs => wp_python_of_inv (fun _ => trivial) hs fun _ _ hinv => ⟨hinv, trivial⟩

theorem TimerLife.keeps_bind {α β : Type} {p : P T α} {f : α → P T β}
    (hp : p.Keeps (env True) lifeSpec) (hf : ∀ a, (f a).Keeps (env True) lifeSpec) :
    (p >>= f).Keeps (env True) lifeSpec :=
  hp.bind (fun _ _ _ _ _ => trivial) hf

theorem TimerLife.keeps_return {α : Type} (a : α) :
    (pure a : P T α).Keeps (env True) lifeSpec := keeps_pure (fun _ => trivial) a

theorem TimerLife.keeps_setHandle (h : ℕ) {f : HandleRec T → HandleRec T}
    (hf : ∀ r, HandleRec.SameLife r (f r)) :
    (update fun s => s.setHandle h f).Keeps (env True) lifeSpec :=
  fun _ hs => ⟨hs.setHandle h (hf _), trivial⟩

theorem TimerLife.keeps_setCore (f : Core ℕ → Core ℕ) (hready : ∀ c, (f c).ready = c.ready) :
    (update fun s : State T => s.setCore f).Keeps (env True) lifeSpec :=
  fun s hs => ⟨hs.setCore (hready s.toCore), trivial⟩

theorem TimerLife.keeps_release : (release : P T _).Keeps (env True) lifeSpec :=
  keeps_python _

theorem TimerLife.keeps_clearCallback (h : ℕ) :
    (clearCallback h : P T _).Keeps (env True) lifeSpec :=
  keeps_bind keeps_release fun _ =>
    keeps_bind (keeps_setHandle h fun _ => ⟨rfl, rfl, rfl, rfl⟩) fun _ => keeps_release

theorem TimerLife.keeps_callbackFailed (o : Outcome) :
    (callbackFailed o : P T _).Keeps (env True) lifeSpec := by
  cases o with
  | returned => exact keeps_python _
  | raised => exact keeps_python _
  | exit => exact keeps_setCore _ fun _ => rfl

/-! ### Running -/

/-- Running a handle, once the run may be recorded. -/
theorem TimerLife.wp_invoke {s : State T} {h : ℕ} (hs : TimerLife (s.record (.ran h))) :
    (invoke h).wp (env True) lifeSpec (fun _ s' => TimerLife s' ∧ True) s := by
  simp only [invoke, Prog.wp_bind, wp_update, wp_enterContext, Prog.wp_ite]
  intro entered
  split
  · refine Prog.wp_foreign trivial hs fun r s₁ _ hs₁ => ?_
    cases r with
    | returned => exact ⟨hs₁, trivial⟩
    | raised => exact keeps_callbackFailed .raised s₁ hs₁
    | exit => exact keeps_callbackFailed .exit s₁ hs₁
  · exact keeps_callbackFailed .raised _ hs

theorem TimerLife.keeps_finishRun (h : ℕ) :
    (finishRun h : P T _).Keeps (env True) lifeSpec :=
  keeps_bind (keeps_setHandle h fun _ => ⟨rfl, rfl, rfl, rfl⟩) fun _ => keeps_getState fun _ =>
    keeps_ite _ (keeps_clearCallback h) (keeps_return _)

/-- What is known of a handle that was just taken off the ready queue. -/
structure Taken (s : State T) (h : ℕ) : Prop where
  /-- The invariant holds without it. -/
  life : TimerLife s
  /-- The handle exists. -/
  lt : h < s.fresh
  /-- If it is a timer, it is nowhere. -/
  nowhere : s.Nowhere h
  /-- If it is a timer, it was due. -/
  due : (s.handles h).kind = .timer → ∃ when now, Event.due h when now ∈ s.history

/-- The run of a handle that was just taken may be recorded. -/
theorem Taken.record {s : State T} {h : ℕ} (ht : Taken s h)
    (hlive : (s.handles h).kind = .timer → (s.handles h).cancelled = false)
    {f : HandleRec T → HandleRec T} (hf : (s.handles h).SameLife (f (s.handles h))) :
    TimerLife ((s.setHandle h f).record (.ran h)) := by
  refine (ht.life.setHandle h hf).record_ran ht.lt ?_ ?_ ?_
  · intro hkind
    rw [s.handles_setHandle_self] at hkind ⊢
    rw [hf.inHeap]
    exact ht.nowhere (hf.kind ▸ hkind)
  · intro hkind
    rw [s.handles_setHandle_self] at hkind
    exact ht.due (hf.kind ▸ hkind)
  · intro hkind
    rw [s.handles_setHandle_self] at hkind ⊢
    rw [hf.cancelled]
    exact hlive (hf.kind ▸ hkind)

theorem TimerLife.wp_runHandle {s : State T} {h : ℕ} (ht : Taken s h)
    (hkind : (s.handles h).kind ≠ .timer) :
    (runHandle h).wp (env True) lifeSpec (fun _ s' => TimerLife s' ∧ True) s := by
  simp only [runHandle, Prog.wp_bind, wp_getState, Prog.wp_ite, Prog.wp_pure, wp_alloc, ↓reduceIte,
    wp_update]
  split
  · exact ⟨ht.life, trivial⟩
  · have hrun := ht.record (f := HandleRec.setRunning true) (fun hk => absurd hk hkind)
      ⟨rfl, rfl, rfl, rfl⟩
    exact Prog.wp_mono (wp_invoke hrun) fun _ s₁ hs₁ => keeps_finishRun h s₁ hs₁.1

theorem TimerLife.wp_runTimer {s : State T} {h : ℕ} (ht : Taken s h) :
    (runTimer h).wp (env True) lifeSpec (fun _ s' => TimerLife s' ∧ True) s := by
  simp only [runTimer, Prog.wp_bind, wp_getState, Prog.wp_ite, Prog.wp_pure, wp_update]
  split
  · exact ⟨ht.life, trivial⟩
  · rename_i hskip
    have hlive : (s.handles h).cancelled = false := by
      cases hc : (s.handles h).cancelled with
      | false => rfl
      | true => simp [hc] at hskip
    have hrun := ht.record (f := HandleRec.setRunning true) (fun _ => hlive)
      ⟨rfl, rfl, rfl, rfl⟩
    exact Prog.wp_mono (wp_invoke hrun) fun _ s₁ hs₁ => keeps_finishRun h s₁ hs₁.1

theorem TimerLife.wp_runThreadsafe {s : State T} {h : ℕ} (ht : Taken s h)
    (hkind : (s.handles h).kind ≠ .timer) :
    (runThreadsafe h).wp (env True) lifeSpec (fun _ s' => TimerLife s' ∧ True) s := by
  simp only [runThreadsafe, Prog.wp_bind, wp_getState, Prog.wp_ite, Prog.wp_pure, wp_alloc,
    ↓reduceIte, wp_update]
  have hmark : ∀ w (r : HandleRec T), r.SameLife (r.setRunState w) := fun _ _ =>
    ⟨rfl, rfl, rfl, rfl⟩
  split
  · exact ⟨ht.life, trivial⟩
  split
  · exact ⟨(ht.life.setHandle h (hmark _ _)).setCore rfl, trivial⟩
  refine Prog.wp_mono (wp_invoke (ht.record (fun hk => absurd hk hkind) (hmark _ _)))
    fun _ s₁ hs₁ => ?_
  have hs₂ := hs₁.1.setHandle h (hmark .done _)
  split
  · have hs₃ : TimerLife ((s₁.setHandle h (HandleRec.setRunState .done)).setHandle h
        HandleRec.dropCallback) := hs₂.setHandle h ⟨rfl, rfl, rfl, rfl⟩
    exact wp_release (wp_release ⟨hs₃, trivial⟩)
  · exact ⟨hs₂, trivial⟩

theorem TimerLife.wp_runOne {s : State T} {h : ℕ} (ht : Taken s h) :
    (runOne h).wp (env True) lifeSpec (fun _ s' => TimerLife s' ∧ True) s := by
  simp only [runOne, Prog.wp_bind, wp_getState]
  cases hkind : (s.handles h).kind with
  | soon => exact wp_runHandle ht (by rw [hkind]; decide)
  | native => exact wp_runHandle ht (by rw [hkind]; decide)
  | threadsafe => exact wp_runThreadsafe ht (by rw [hkind]; decide)
  | timer =>
    simp only [Prog.wp_bind, wp_update]
    refine wp_runTimer ⟨ht.life.clearScheduled ht.nowhere hkind, ht.lt, fun _ => ?_,
      fun _ => ht.due hkind⟩
    have hzero := ht.nowhere hkind
    rw [s.handles_setHandle_self]
    change s.ran.count h + s.ready.toList.count h + 0 = 0
    omega

theorem TimerLife.wp_runTimed {s : State T} {h : ℕ} (ht : Taken s h) :
    (runTimed h).wp (env True) lifeSpec (fun _ s' => TimerLife s' ∧ True) s := by
  simp only [runTimed, Prog.wp_bind, wp_getState]
  cases s.slowCallbackDuration with
  | none => exact wp_runOne ht
  | some duration =>
    simp only [Prog.wp_ite, runMonitored, Prog.wp_bind, wp_hrtime, Prog.wp_pure]
    split
    · intro started
      refine Prog.wp_mono (wp_runOne ht) fun _ s₁ hs₁ ended => ?_
      split
      · exact keeps_python _ s₁ hs₁.1
      · exact hs₁
    · exact wp_runOne ht

theorem TimerLife.keeps_runReadyLoop (remaining : ℕ) :
    (runReadyLoop remaining : P T _).Keeps (env True) lifeSpec := by
  induction remaining with
  | zero => exact keeps_return _
  | succ remaining ih =>
    intro s hs
    simp only [runReadyLoop, Prog.wp_bind, wp_getState]
    have hfst := s.ready.pop_fst
    have hsnd := s.ready.toList_pop
    rcases hpop : s.ready.pop with ⟨h?, q⟩
    rw [hpop] at hfst hsnd
    cases h? with
    | none => exact ⟨hs, trivial⟩
    | some h =>
      have hq : s.ready.toList = h :: q.toList := by
        rw [show q.toList = s.ready.toList.tail from hsnd]
        exact (List.cons_head?_tail hfst.symm).symm
      simp only [Prog.wp_bind, wp_setState]
      obtain ⟨hlife, hlt, hnowhere, hdue⟩ := hs.pop hq
      refine Prog.wp_mono (wp_runTimed ⟨hlife, hlt, hnowhere, hdue⟩) fun _ s₁ hs₁ => ?_
      exact wp_release (ih s₁ hs₁.1)

theorem TimerLife.keeps_runReady : (runReady : P T _).Keeps (env True) lifeSpec :=
  keeps_getState fun _ => keeps_bind
    (fun _ hs => ⟨hs.same rfl rfl rfl rfl rfl rfl, trivial⟩) fun _ => keeps_runReadyLoop _

theorem TimerLife.keeps_idleLoop (batches callbacks started : ℕ) :
    (Prog.invoke (S := sig T) (.idleLoop batches callbacks started)).Keeps (env True) lifeSpec :=
  fun _ hs => ⟨⟨hs, trivial⟩, fun _ hs' => ⟨hs'.1, trivial⟩⟩

theorem TimerLife.keeps_onIdle : (onIdle : P T _).Keeps (env True) lifeSpec := by
  refine keeps_bind (fun s hs => (wp_hrtime _).mpr fun _ => ⟨hs, trivial⟩) fun _ => ?_
  refine keeps_bind (keeps_idleLoop _ _ _) fun _ s hs => ?_
  exact ⟨hs.setCore s.toCore.stopIdle_ready, trivial⟩

/-! ### Timers -/

theorem OnlyDrops.refl (s : State T) : OnlyDrops s s := ⟨le_rfl, rfl, fun _ => rfl, fun _ => rfl⟩

theorem OnlyDrops.trans {s₁ s₂ s₃ : State T} (h₁ : OnlyDrops s₁ s₂) (h₂ : OnlyDrops s₂ s₃) :
    OnlyDrops s₁ s₃ :=
  ⟨h₂.count.trans h₁.count, h₂.fresh.trans h₁.fresh, fun k => (h₂.kind k).trans (h₁.kind k),
    fun k => (h₂.cancelled k).trans (h₁.cancelled k)⟩

theorem OnlyDrops.dropTop {s : State T} (h : ℕ) :
    OnlyDrops s (s.popTimer.setHandle h HandleRec.clearScheduled).uncountCancelled := by
  have hhand : ∀ k, ((s.popTimer.setHandle h HandleRec.clearScheduled).handles k).kind =
      (s.handles k).kind ∧ ((s.popTimer.setHandle h HandleRec.clearScheduled).handles
        k).cancelled = (s.handles k).cancelled := by
    intro k
    rw [State.handles_setHandle]
    split
    · rename_i hk
      exact hk ▸ ⟨rfl, rfl⟩
    · exact ⟨rfl, rfl⟩
  have hcount : (s.popTimer.setHandle h HandleRec.clearScheduled).timers.cancelled =
      s.timers.cancelled := s.timers.pop_cancelled
  unfold State.uncountCancelled
  split
  · refine ⟨?_, rfl, fun k => (hhand k).1, fun k => (hhand k).2⟩
    change (s.popTimer.setHandle h HandleRec.clearScheduled).timers.cancelled - 1 ≤ _
    omega
  · exact ⟨hcount.le, rfl, fun k => (hhand k).1, fun k => (hhand k).2⟩

theorem TimerLife.wp_dropCancelledBody {s : State T} (hs : TimerLife s) :
    (dropCancelledBody : P T _).wp (env True) lifeSpec
      (fun _ s' => TimerLife s' ∧ OnlyDrops s s') s := by
  simp only [dropCancelledBody, Prog.wp_bind, wp_getState]
  cases he : s.timers.peek with
  | none => exact ⟨hs, .refl s⟩
  | some e =>
    simp only [Prog.wp_ite, Prog.wp_bind, wp_update, Prog.wp_pure, Prog.wp_invoke]
    split
    · rename_i hc
      refine wp_release ⟨⟨hs.dropTop he hc, trivial⟩, fun s' hs' => ⟨hs'.1, ?_⟩⟩
      exact (OnlyDrops.dropTop e.handle).trans hs'.2
    · exact ⟨hs, .refl s⟩

theorem TimerLife.wp_armTimer {s : State T} (hs : TimerLife s) :
    (armTimer : P T _).wp (env True) lifeSpec (fun _ s' => TimerLife s' ∧ OnlyDrops s s') s := by
  simp only [armTimer, Prog.wp_bind, wp_getState, Prog.wp_invoke]
  refine ⟨⟨hs, trivial⟩, fun s₁ hs₁ => ?_⟩
  obtain ⟨hlife, hdrops⟩ : TimerLife s₁ ∧ OnlyDrops s s₁ := hs₁
  cases s₁.timers.peek with
  | none =>
    rw [wp_update]
    unfold State.stopTimer
    split
    · exact ⟨hlife.same rfl rfl rfl rfl rfl rfl,
        hdrops.trans ⟨le_rfl, rfl, fun _ => rfl, fun _ => rfl⟩⟩
    · exact ⟨hlife, hdrops⟩
  | some e =>
    simp only [Prog.wp_bind, wp_now, wp_update]
    exact fun t => ⟨hlife.same rfl rfl rfl rfl rfl rfl,
      hdrops.trans ⟨le_rfl, rfl, fun _ => rfl, fun _ => rfl⟩⟩

theorem TimerLife.keeps_armTimer : (armTimer : P T _).Keeps (env True) lifeSpec :=
  fun _ hs => Prog.wp_mono (wp_armTimer hs) fun _ _ hs' => ⟨hs'.1, trivial⟩

theorem TimerLife.wp_collectDueBody {deadline : T} {s : State T} (hs : TimerLife s)
    (hclock : s.clock = deadline) :
    (collectDueBody deadline).wp (env True) lifeSpec (fun _ s' => TimerLife s' ∧ True) s := by
  simp only [collectDueBody, Prog.wp_bind, wp_getState]
  cases he : s.timers.peek with
  | none => exact ⟨hs.startIdle, trivial⟩
  | some e =>
    simp only [Prog.wp_ite, Prog.wp_bind, wp_update, wp_getState, wp_alloc, Prog.wp_invoke]
    split
    · exact ⟨hs.startIdle, trivial⟩
    rename_i hdue
    split
    · rename_i hc
      refine wp_release ⟨⟨hs.dropTop he hc, ?_⟩, fun s' hs' => ⟨hs'.1, trivial⟩⟩
      exact (State.uncountCancelled_clock _).trans hclock
    · rename_i hc
      obtain ⟨hs₁, hnowhere⟩ := hs.popTop he (by simpa using hc)
      obtain ⟨hlt, -, hwhen⟩ := hs.heap.entries e (Timers.mem_of_peek he)
      obtain ⟨q, hq, hlist⟩ :=
        (s.popTimer.setHandle e.handle HandleRec.clearScheduled).pushReady_true e.handle
      rw [hq]
      simp only [Prog.wp_bind, wp_setState, Prog.wp_invoke]
      refine ⟨⟨hs₁.push_due hlt hnowhere ?_ ?_ hlist, hclock⟩, fun s' hs' => ⟨hs'.1, trivial⟩⟩
      · rw [State.handles_setHandle_self]
        exact hwhen
      · change e.when ≤ s.clock
        rw [hclock]
        exact not_lt.mp hdue

theorem TimerLife.keeps_onTimer : (onTimer : P T _).Keeps (env True) lifeSpec := by
  intro s hs
  simp only [onTimer, collectDueTimers, Prog.wp_bind, wp_update, wp_now, Prog.wp_invoke]
  intro t
  refine ⟨⟨hs.same rfl rfl rfl rfl rfl rfl, rfl⟩, fun s₁ hs₁ => ?_⟩
  exact keeps_armTimer s₁ hs₁.1

theorem TimerLife.wp_releaseAll (doomed : List ℕ) {s : State T} {Q : Unit → State T → Prop}
    (h : Q () s) : (releaseAll doomed).wp (env True) lifeSpec Q s := by
  induction doomed with
  | nil => exact h
  | cons k doomed ih => exact (Prog.wp_bind _ _ _ _).mpr (wp_release ih)

/-- Counting a cancelled timer leaves few cancelled timers, or a heap that is not dominated by
them; the state before counts one too few. -/
theorem TimerLife.wp_noteTimerCancelled {s : State T} (hs : TimerLife s.countCancelled) :
    (noteTimerCancelled : P T _).wp (env True) lifeSpec
      (fun _ s' => TimerLife s' ∧ s'.fresh = s.fresh ∧
        (∀ k, (s'.handles k).kind = (s.handles k).kind) ∧
        (∀ k, (s'.handles k).cancelled = (s.handles k).cancelled) ∧
        (s'.timers.cancelled ≤ minCancelledTimers ∨
          s'.timers.cancelled * 2 ≤ s'.timers.len)) s := by
  simp only [noteTimerCancelled, Prog.wp_bind, wp_update, wp_getState, Prog.wp_ite, wp_alloc,
    wp_setState, Prog.wp_pure]
  split
  · refine wp_releaseAll _ (Prog.wp_mono (wp_armTimer hs.compactTimers) fun _ s' hs' => ?_)
    obtain ⟨hlife, hdrops⟩ := hs'
    have hzero : (s.countCancelled.compactTimers true).1.timers.cancelled = 0 :=
      (s.countCancelled.timers.contents_compact fun h => (s.handles h).cancelled).2.2.2
    have hhand : ∀ k, ((s.countCancelled.compactTimers true).1.handles k).kind =
        (s.handles k).kind ∧ ((s.countCancelled.compactTimers true).1.handles k).cancelled =
        (s.handles k).cancelled := by
      intro k
      unfold State.compactTimers
      dsimp only
      split
      · exact ⟨rfl, rfl⟩
      · exact ⟨rfl, rfl⟩
    refine ⟨hlife, hdrops.fresh, fun k => (hdrops.kind k).trans (hhand k).1,
      fun k => (hdrops.cancelled k).trans (hhand k).2, Or.inl ?_⟩
    exact hdrops.count.trans (hzero ▸ Nat.zero_le _)
  · rename_i hfew
    refine ⟨hs, rfl, fun _ => rfl, fun _ => rfl, ?_⟩
    rw [not_and_or, not_lt, not_lt] at hfew
    exact hfew

theorem TimerLife.keeps_scheduleAt (when : T) (alreadyDue : Bool) {s : State T}
    (hs : TimerLife s) (hdue : alreadyDue = true → when ≤ s.clock) :
    (scheduleAt when alreadyDue).wp (env True) lifeSpec (fun _ s' => TimerLife s' ∧ True) s := by
  simp only [scheduleAt, create, Prog.wp_bind, wp_getState, Prog.wp_ite, Prog.wp_pure, wp_alloc,
    ↓reduceIte, wp_setState, wp_update]
  split
  · exact ⟨hs, trivial⟩
  split
  · rename_i hbypass
    obtain ⟨hs₁, hnowhere⟩ := hs.create_ready when
    obtain ⟨q, hq, hlist⟩ :=
      ((s.create .timer when).setHandle s.fresh HandleRec.markReady).pushReady_true s.fresh
    rw [hq]
    simp only [Prog.wp_bind, wp_setState, Prog.wp_pure]
    have hwhen : (((s.create .timer when).setHandle s.fresh HandleRec.markReady).handles
        s.fresh).when = when := by
      rw [State.handles_setHandle_self, s.handles_create_self]
      rfl
    have hpush := hs₁.push_due (Nat.lt_succ_self s.fresh) hnowhere hwhen
      (hdue (Bool.and_eq_true_iff.mp hbypass).1) hlist
    exact ⟨hpush.startIdle, trivial⟩
  · obtain ⟨timers, htimers, hcontents, -, hcount⟩ :=
      (s.create .timer when).timers.push_true when s.fresh
    rw [htimers]
    simp only [Prog.wp_bind, wp_update, Prog.wp_pure]
    have hseq : ∀ e ∈ s.timers.contents, e.seq < s.timers.seq + 1 := fun e he =>
      Nat.lt_succ_of_le (s.timers.valid.fresh e he)
    exact Prog.wp_mono (keeps_armTimer _ (hs.create_heap hcontents hseq hcount)) fun _ _ hs' => hs'

theorem TimerLife.keeps_callAt (when : T) : (callAt when).Keeps (env True) lifeSpec := by
  intro s hs
  simp only [callAt, Prog.wp_bind, wp_now]
  refine fun t => keeps_scheduleAt when _ (hs.same rfl rfl rfl rfl rfl rfl) fun hdue => ?_
  exact of_decide_eq_true hdue

theorem TimerLife.keeps_callLater [AddZeroClass T] (delay : T) :
    (callLater delay).Keeps (env True) lifeSpec := by
  intro s hs
  simp only [callLater, Prog.wp_bind, wp_now]
  refine fun t => keeps_scheduleAt _ _ (hs.same rfl rfl rfl rfl rfl rfl) fun hdue => ?_
  have hle : delay ≤ 0 := of_decide_eq_true hdue
  rw [max_eq_right hle, add_zero]
  exact le_rfl

/-! ### Scheduling -/

section

variable [Inhabited T]

theorem TimerLife.keeps_scheduleSoon : (scheduleSoon : P T _).Keeps (env True) lifeSpec := by
  intro s hs
  simp only [scheduleSoon, create, Prog.wp_bind, wp_getState, Prog.wp_ite, Prog.wp_pure, wp_alloc,
    ↓reduceIte, wp_setState]
  have hs₁ := hs.create_other .soon (by decide) default
  split
  · exact ⟨hs₁, trivial⟩
  obtain ⟨ready, inbox, hdrain, hready, hinbox⟩ := (s.create .soon default).drainThreadsafe_true
  rw [hdrain]
  simp only [Prog.wp_bind, wp_setState, wp_alloc]
  have hs₂ := hs₁.drain hready hinbox
  obtain ⟨q, hq, hlist⟩ :=
    (((s.create .soon default).setReady ready).setInbox inbox).pushReady_true s.fresh
  rw [hq]
  simp only [Prog.wp_bind, wp_setState, Prog.wp_pure]
  have hkind : ((((s.create .soon default).setReady ready).setInbox inbox).handles
      s.fresh).kind ≠ .timer := by
    change ((s.create .soon default).handles s.fresh).kind ≠ _
    rw [s.handles_create_self]
    exact HandleKind.noConfusion
  have hs₃ := hs₂.push_other (Nat.lt_succ_self s.fresh) hkind hlist
  exact ⟨(hs₃.record (e := .registered s.fresh) rfl trivial).startIdle, trivial⟩

theorem TimerLife.keeps_callSoonThreadsafe :
    (callSoonThreadsafe : P T _).Keeps (env True) lifeSpec := by
  intro s hs
  simp only [callSoonThreadsafe, create, Prog.wp_bind, wp_getState, Prog.wp_ite, Prog.wp_pure,
    wp_alloc, ↓reduceIte, wp_setState]
  have hs₁ := hs.create_other .threadsafe (by decide) default
  split
  · exact ⟨hs, trivial⟩
  obtain ⟨inbox, hinbox, hlist⟩ := (s.create .threadsafe default).threadsafeReady.push_true s.fresh
  rw [hinbox]
  simp only [Prog.wp_bind, wp_setState, Prog.wp_pure]
  have hkind : ((s.create .threadsafe default).handles s.fresh).kind ≠ .timer := by
    rw [s.handles_create_self]
    exact HandleKind.noConfusion
  have hs₂ := (hs₁.pushInbox (Nat.lt_succ_self s.fresh) hkind hlist).record
    (e := .registered s.fresh) rfl trivial
  unfold State.sendWake
  split
  · exact ⟨hs₂.same rfl rfl rfl rfl rfl rfl, trivial⟩
  · exact ⟨hs₂, trivial⟩

theorem TimerLife.keeps_createNative :
    (create .native default : P T _).Keeps (env True) lifeSpec := by
  intro s hs
  simp only [create, Prog.wp_bind, wp_alloc, ↓reduceIte, wp_getState, wp_setState, Prog.wp_pure]
  exact ⟨hs.create_other .native (by decide) default, trivial⟩

theorem TimerLife.keeps_scheduleCall : (scheduleCall : P T _).Keeps (env True) lifeSpec := by
  intro s hs
  simp only [scheduleCall, create, Prog.wp_bind, wp_getState, Prog.wp_ite, Prog.wp_pure, wp_alloc,
    ↓reduceIte, wp_setState]
  have hs₁ := hs.create_other .native (by decide) default
  split
  · exact ⟨hs, trivial⟩
  obtain ⟨q, hq, hlist⟩ := (s.create .native default).pushReady_true s.fresh
  rw [hq]
  simp only [wp_setState]
  have hkind : ((s.create .native default).handles s.fresh).kind ≠ .timer := by
    rw [s.handles_create_self]
    exact HandleKind.noConfusion
  exact ⟨(hs₁.push_other (Nat.lt_succ_self s.fresh) hkind hlist).startIdle, trivial⟩

end

theorem TimerLife.keeps_onWake : (onWake : P T _).Keeps (env True) lifeSpec := by
  intro s hs
  simp only [onWake, Prog.wp_bind, wp_update, wp_getState, wp_alloc]
  have hs₁ : TimerLife s.consumeWake := hs.same rfl rfl rfl rfl rfl rfl
  obtain ⟨ready, inbox, hdrain, hready, hinbox⟩ := s.consumeWake.drainThreadsafe_true
  rw [hdrain]
  simp only [wp_setState]
  exact ⟨(hs₁.drain hready hinbox).startIdle, trivial⟩

theorem TimerLife.wp_scheduleFired (fired : List ℕ) {s : State T} (hs : TimerLife s)
    (hfired : ∀ h ∈ fired, h < s.fresh ∧ (s.handles h).kind = .native) :
    (scheduleFired fired).wp (env True) lifeSpec (fun _ s' => TimerLife s' ∧ True) s := by
  induction fired generalizing s with
  | nil => exact ⟨hs, trivial⟩
  | cons h fired ih =>
    simp only [scheduleFired, Prog.wp_bind, wp_getState, Prog.wp_ite, wp_alloc]
    obtain ⟨hlt, hkind⟩ := hfired h (List.mem_cons_self ..)
    have hrest := fun k hk => hfired k (List.mem_cons_of_mem h hk)
    split
    · obtain ⟨q, hq, hlist⟩ := s.pushReady_true h
      rw [hq]
      simp only [Prog.wp_bind, wp_setState]
      exact ih (hs.push_other hlt (by rw [hkind]; decide) hlist) hrest
    · exact ih hs hrest

/-! ### Cancellation -/

/-- Cancelling a regular handle or a thread-safe one. -/
theorem TimerLife.wp_cancelHandle {s : State T} (hs : TimerLife s) {h : ℕ}
    (hkind : (s.handles h).kind ≠ .timer) :
    (cancelHandle h).wp (env True) lifeSpec (fun _ s' => TimerLife s' ∧ True) s := by
  simp only [cancelHandle, Prog.wp_bind, wp_getState, Prog.wp_ite, wp_update, Prog.wp_pure]
  have hs₁ : TimerLife (s.setHandle h HandleRec.cancel) :=
    hs.cancel_other hkind .cancel
  split
  · split
    · exact keeps_clearCallback h _ hs₁
    · exact ⟨hs₁, trivial⟩
  · exact ⟨hs, trivial⟩

omit [LinearOrder T] in
theorem HandleRec.settle_same (r : HandleRec T) : r.SameLife r.settle := by
  unfold HandleRec.settle
  split
  · exact ⟨rfl, rfl, rfl, rfl⟩
  · exact .refl r

theorem TimerLife.wp_cancelThreadsafe {s : State T} (hs : TimerLife s) {h : ℕ}
    (hkind : (s.handles h).kind ≠ .timer) :
    (cancelThreadsafe h).wp (env True) lifeSpec (fun _ s' => TimerLife s' ∧ True) s := by
  simp only [cancelThreadsafe, Prog.wp_bind, wp_getState, Prog.wp_ite, wp_update, Prog.wp_pure]
  have hs₁ := hs.setHandle h (s.handles h).settle_same
  have hkind₁ : ((s.setHandle h HandleRec.settle).handles h).kind ≠ .timer := by
    rw [s.handles_setHandle_self, (s.handles h).settle_same.kind]
    exact hkind
  have hs₂ : TimerLife ((s.setHandle h HandleRec.settle).setHandle h HandleRec.cancel) :=
    hs₁.cancel_other hkind₁ .cancel
  split
  · split
    · exact wp_release (wp_release ⟨hs₂.setHandle h ⟨rfl, rfl, rfl, rfl⟩, trivial⟩)
    · exact ⟨hs₂, trivial⟩
  · exact ⟨hs₁, trivial⟩

/-- What `cancel()` of a timer leaves behind. -/
structure CancelDone (s s' : State T) (h : ℕ) : Prop where
  /-- The invariant holds. -/
  life : TimerLife s'
  /-- The timer exists. -/
  lt : h < s'.fresh
  /-- It is a timer. -/
  kind : (s'.handles h).kind = .timer
  /-- It is cancelled. -/
  cancelled : (s'.handles h).cancelled = true
  /-- If it was cancelled in the heap just now, cancelled timers are few or do not dominate. -/
  bound : (s.handles h).inHeap = true → (s.handles h).cancelled = false →
    s'.timers.cancelled ≤ minCancelledTimers ∨ s'.timers.cancelled * 2 ≤ s'.timers.len

/-- The rest of `cancel` once the timer is marked, by an update `f` that may also release its
callback. -/
theorem TimerLife.wp_noteIfInHeap {s : State T} (hs : TimerLife s) {h : ℕ} (hh : h < s.fresh)
    (hkind : (s.handles h).kind = .timer) (hlive : (s.handles h).cancelled = false)
    {f : HandleRec T → HandleRec T} (hf : MayCancel f) (hcancel : ∀ r, (f r).cancelled = true) :
    (do let s ← getState
        if (s.handles h).inHeap then noteTimerCancelled : P T Unit).wp (env True) lifeSpec
      (fun _ s' => CancelDone s s' h) (s.setHandle h f) := by
  simp only [Prog.wp_bind, wp_getState, Prog.wp_ite, Prog.wp_pure]
  have hself := s.handles_setHandle_self h f
  have hinHeap : ((s.setHandle h f).handles h).inHeap = (s.handles h).inHeap := by
    rw [hself]
    exact hf.inHeap _
  have hkind₁ : ((s.setHandle h f).handles h).kind = .timer := by
    rw [hself, hf.kind]
    exact hkind
  have hcancelled₁ : ((s.setHandle h f).handles h).cancelled = true := by
    rw [hself]
    exact hcancel _
  rw [hinHeap]
  split
  · rename_i hin
    refine Prog.wp_mono (wp_noteTimerCancelled
      (hs.cancel_inHeap hh hkind hin hlive hf hcancel)) fun _ s' hs' => ?_
    obtain ⟨hlife, hfresh, hkinds, hcancelled, hbound⟩ := hs'
    exact ⟨hlife, hfresh ▸ hh, (hkinds h).trans hkind₁, (hcancelled h).trans hcancelled₁,
      fun _ _ => hbound⟩
  · rename_i hin
    exact ⟨hs.cancel_notInHeap hh hkind (by simpa using hin) hf, hh, hkind₁, hcancelled₁,
      fun hin' => absurd hin' hin⟩

theorem TimerLife.wp_timerCancel {s : State T} (hs : TimerLife s) {h : ℕ} (hh : h < s.fresh)
    (hkind : (s.handles h).kind = .timer) :
    (timerCancel h).wp (env True) lifeSpec (fun _ s' => CancelDone s s' h) s := by
  rw [timerCancel, Prog.wp_bind, wp_getState, Prog.wp_ite]
  split
  · rename_i hlive
    have hc : (s.handles h).cancelled = false := by simpa using hlive
    rw [Prog.wp_bind, wp_update, Prog.wp_ite]
    split
    · simp only [clearCallback, Prog.wp_bind, wp_update]
      refine wp_release (wp_release ?_)
      rw [State.setHandle_setHandle]
      simpa only [Prog.wp_bind] using hs.wp_noteIfInHeap hh hkind hc
        (f := HandleRec.dropCallback ∘ HandleRec.cancel)
        ⟨fun _ => rfl, fun _ => rfl, fun _ => rfl, fun _ _ => rfl⟩ fun _ => rfl
    · exact hs.wp_noteIfInHeap hh hkind hc .cancel fun _ => rfl
  · rename_i hdone
    have hc : (s.handles h).cancelled = true := by simpa using hdone
    exact ⟨hs, hh, hkind, hc, fun _ hlive => absurd hc (by simp [hlive])⟩

theorem TimerLife.wp_cancelTimer {s : State T} (hs : TimerLife s) {h : ℕ} (hh : h < s.fresh)
    (hkind : (s.handles h).kind = .timer) :
    (cancelTimer h).wp (env True) lifeSpec (fun _ s' => TimerLife s' ∧ True) s := by
  simp only [cancelTimer, Prog.wp_bind, wp_getState, wp_update]
  refine Prog.wp_mono (wp_timerCancel hs hh hkind) fun _ s' hs' => ⟨?_, trivial⟩
  refine hs'.life.record rfl ⟨hs'.lt, hs'.kind, hs'.cancelled, fun hin hfirst => ?_⟩
  exact hs'.bound hin (by simpa using hfirst)

theorem TimerLife.wp_cancel {s : State T} (hs : TimerLife s) {h : ℕ} (hh : h < s.fresh) :
    (cancel h).wp (env True) lifeSpec (fun _ s' => TimerLife s' ∧ True) s := by
  simp only [cancel, Prog.wp_bind, wp_getState]
  cases hkind : (s.handles h).kind with
  | soon => exact wp_cancelHandle hs (by rw [hkind]; decide)
  | native => exact wp_cancelHandle hs (by rw [hkind]; decide)
  | threadsafe => exact wp_cancelThreadsafe hs (by rw [hkind]; decide)
  | timer => exact wp_cancelTimer hs hh hkind

/-! ## Every reachable state -/

theorem TimerLife.keeps_runBegin : (runBegin : P T _).Keeps (env True) lifeSpec := by
  refine keeps_getState fun s => keeps_ite _ (keeps_return _) (keeps_ite _ (keeps_return _) ?_)
  refine keeps_bind (keeps_setCore _ fun _ => rfl) fun _ => ?_
  refine keeps_bind (fun s hs => ⟨hs.startIdle, trivial⟩) fun _ => ?_
  exact keeps_bind keeps_armTimer fun _ => keeps_return _

theorem TimerLife.init [Inhabited T] (t : T) : TimerLife (State.init t) := by
  have hempty : (State.init t).timers.contents = 0 := TimerHeap.contents_empty
  refine ⟨⟨fun e he => ?_, ?_, fun e he => ?_, nofun, ?_⟩, ⟨nofun, nofun, nofun, nofun, ?_⟩,
    ⟨nofun, List.Pairwise.nil⟩⟩
  · rw [hempty] at he
    exact absurd he (Multiset.notMem_zero e)
  · rw [hempty]
    exact Multiset.nodup_zero
  · rw [hempty] at he
    exact absurd he (Multiset.notMem_zero e)
  · rw [hempty]
    rfl
  · rintro h (hready | hran)
    · cases hready
    · cases hran

/-- Every entry point and every procedure of the loop keeps the invariant of the timers. -/
theorem TimerLife.verified [AddZeroClass T] [Inhabited T] (t : T) :
    Verified (system t) (env True) lifeSpec where
  rely_refl := fun _ => trivial
  rely_trans := fun _ _ _ _ _ => trivial
  init := TimerLife.init t
  body := fun f s hs => by
    cases f with
    | collectDue deadline => exact wp_collectDueBody hs.1 hs.2
    | dropCancelled => exact wp_dropCancelledBody hs.1
    | idleLoop batches callbacks started =>
      exact keeps_idleBody (fun _ => trivial) (fun _ _ _ _ _ => trivial) keeps_runReady
        keeps_idleLoop batches callbacks started s hs.1
  entry := fun stack s op hstart hs _ => by
    cases op with
    | callSoon => exact keeps_scheduleSoon.map _ s hs
    | callSoonThreadsafe => exact keeps_callSoonThreadsafe.map _ s hs
    | callLater delay => exact (keeps_callLater delay).map _ s hs
    | callAt when => exact (keeps_callAt when).map _ s hs
    | cancel h => exact wp_cancel hs hstart.1
    | stop => exact ⟨hs.setCore rfl, trivial⟩
    | runBegin => exact keeps_runBegin.map _ s hs
    | runEnd => exact ⟨hs.setCore rfl, trivial⟩
    | onIdle => exact keeps_onIdle s hs
    | onTimer => exact keeps_onTimer s hs
    | asyncDispatch => exact ⟨hs.same rfl rfl rfl rfl rfl rfl, trivial⟩
    | onWake => exact keeps_onWake s hs
    | onPoll fired =>
      refine (Prog.wp_bind _ _ _ _).mpr (Prog.wp_mono (wp_scheduleFired fired hs hstart.1.2.2) ?_)
      exact fun _ s₁ hs₁ => ⟨hs₁.1.startIdle, trivial⟩
    | createNative => exact keeps_createNative.map _ s hs
    | scheduleCall => exact keeps_scheduleCall s hs
    | surroundings e => exact ⟨hs.same rfl rfl rfl rfl rfl rfl, trivial⟩

end Programs

end Zuvloop.Loop
