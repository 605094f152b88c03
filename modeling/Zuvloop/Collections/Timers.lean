import Mathlib.Algebra.Order.Group.Multiset
import Mathlib.Data.Prod.Lex
import Zuvloop.SlotHeap

/-!
# The timer heap

`Timers` of `zig/collections.zig`: a binary min-heap of scheduled timers, ordered by deadline and
then by insertion. The array is a function from positions to entries; `cap` is the length of the
slice and the slots from `len` on are the ones `pop` and `compact` leave stale.

Deadlines live in an arbitrary linear order. The `f64` values other than NaN form one under the
comparison the code uses, once the two zeros, which it does not tell apart, are one deadline.

A timer's insertion number is the value of `seq` its `push` stored. The source counts in `u64`;
here the counter is a natural number, so the model is exact below `2 ^ 64` pushes.

## Main definitions

* `Timers.push`, `Timers.pop`, `Timers.compact`: the operations of the source. The `alloc`
  argument of the first and the last says whether their allocation succeeds.
* `Timers.contents`: the multiset of entries in the heap.
* `TimerHeap`: a `Timers` that is in heap order and whose insertion numbers are distinct and
  not above `seq`. The operations are lifted to it, so a loop state cannot hold a broken heap.
-/

namespace Zuvloop

open SlotHeap

variable {T η : Type}

/-- An entry of the timer heap. -/
structure TimerEntry (T η : Type) where
  /-- The deadline. -/
  when : T
  /-- The insertion number, which breaks ties between equal deadlines. -/
  seq : ℕ
  /-- The timer handle the entry owns a reference to. -/
  handle : η
deriving DecidableEq, Inhabited

namespace TimerEntry

/-- `a` runs before `b`: an earlier deadline, or the same deadline and an earlier insertion. -/
def before [LinearOrder T] (a b : TimerEntry T η) : Bool :=
  if a.when ≠ b.when then decide (a.when < b.when) else decide (a.seq < b.seq)

/-- The key `before` compares. -/
def key (e : TimerEntry T η) : T ×ₗ ℕ := toLex (e.when, e.seq)

theorem before_iff [LinearOrder T] (a b : TimerEntry T η) :
    a.before b = true ↔ a.key < b.key := by
  rw [before, key, key, Prod.Lex.toLex_lt_toLex]
  by_cases h : a.when = b.when
  · simp [h]
  · simp [h]

theorem when_le_of_key_le [LinearOrder T] {a b : TimerEntry T η} (h : a.key ≤ b.key) :
    a.when ≤ b.when := by
  rw [key, key, Prod.Lex.toLex_le_toLex] at h
  rcases h with h | h
  · exact h.le
  · exact h.1.le

end TimerEntry

/-- The heap of scheduled timers, with the count of cancelled entries that are still in it. -/
structure Timers (T η : Type) where
  /-- The slots of the backing slice. -/
  items : ℕ → TimerEntry T η
  /-- The length of the backing slice. -/
  cap : ℕ
  /-- The number of slots in use. -/
  len : ℕ
  /-- The insertion number of the last push. -/
  seq : ℕ
  /-- The number of cancelled entries the loop has been told about. -/
  cancelled : ℕ

namespace Timers

/-- `Timers.empty`: no slice, nothing in it. -/
def empty [Inhabited T] [Inhabited η] : Timers T η :=
  { items := fun _ => default, cap := 0, len := 0, seq := 0, cancelled := 0 }

/-- The multiset of entries in the heap. -/
def contents (self : Timers T η) : Multiset (TimerEntry T η) := elements self.items self.len

section Operations

variable [LinearOrder T]

/-- Double the slice, from 32 slots on; `none` when the allocation fails. -/
def grow (alloc : Bool) (self : Timers T η) : Option (Timers T η) :=
  if alloc then some { self with cap := if self.cap = 0 then 32 else self.cap * 2 } else none

/-- Add a timer; `none` when the slice has to grow and cannot. -/
def push (alloc : Bool) (self : Timers T η) (when : T) (handle : η) : Option (Timers T η) := do
  let self ← if self.len = self.cap then self.grow alloc else some self
  let seq := self.seq + 1
  let items := Function.update self.items self.len { when, seq, handle }
  return { self with items := siftUp TimerEntry.before items self.len, len := self.len + 1, seq }

/-- The entry that runs first. -/
def peek (self : Timers T η) : Option (TimerEntry T η) :=
  if self.len = 0 then none else some (self.items 0)

/-- Take the entry that runs first out of the heap. -/
def pop (self : Timers T η) : Option (TimerEntry T η) × Timers T η :=
  if self.len = 0 then (none, self)
  else
    let top := self.items 0
    let len := self.len - 1
    if len ≠ 0 then
      let items := Function.update self.items 0 (self.items len)
      (some top, { self with items := siftDown TimerEntry.before len items 0, len })
    else (some top, { self with len })

/-- The compaction pass over `count` slots from `read` on: entries to keep move down to `write`,
the handles of the others are copied out. -/
def compactLoop (shouldDrop : η → Bool) :
    ℕ → ℕ → (ℕ → TimerEntry T η) → ℕ → List η → (ℕ → TimerEntry T η) × ℕ × List η
  | 0, _, items, write, doomed => (items, write, doomed)
  | count + 1, read, items, write, doomed =>
    let entry := items read
    if shouldDrop entry.handle then
      compactLoop shouldDrop count (read + 1) items write (doomed ++ [entry.handle])
    else
      compactLoop shouldDrop count (read + 1) (Function.update items write entry) (write + 1)
        doomed

/-- The bottom-up heapify of `n` slots, from slot `i - 1` down to the root. -/
def heapify (n : ℕ) : ℕ → (ℕ → TimerEntry T η) → ℕ → TimerEntry T η
  | 0, items => items
  | i + 1, items => heapify n i (siftDown TimerEntry.before n items i)

/-- Drop the entries `shouldDrop` accepts and restore the heap. The second component is the
handles to release, in the order they are released, once the heap is whole again. When the list
to set them aside in cannot be allocated, the heap is left exactly as it was. -/
def compact (alloc : Bool) (shouldDrop : η → Bool) (self : Timers T η) :
    Timers T η × List η :=
  if alloc then
    let (items, write, doomed) := compactLoop shouldDrop self.len 0 self.items 0 []
    let items := if 2 ≤ write then heapify write (write / 2) items else items
    ({ self with items, len := write, cancelled := 0 }, doomed)
  else (self, [])

end Operations

/-! ## What each operation does to the contents -/

section Contents

variable [LinearOrder T]

/-- The state of the heap that every operation keeps: heap order, insertion numbers distinct and
not above `seq`, and a slice long enough for the slots in use. -/
structure Valid (t : Timers T η) : Prop where
  /-- Every entry is at or after its parent. -/
  ordered : HeapOn TimerEntry.key t.items t.len
  /-- No entry is newer than the last push. -/
  fresh : ∀ e ∈ t.contents, e.seq ≤ t.seq
  /-- No two entries share an insertion number. -/
  distinct : (t.contents.map TimerEntry.seq).Nodup
  /-- The slots in use are slots of the slice. -/
  room : t.len ≤ t.cap

theorem valid_empty [Inhabited T] [Inhabited η] : (empty : Timers T η).Valid where
  ordered := fun i _ hi => absurd hi (Nat.not_lt_zero i)
  fresh := by simp [empty, contents]
  distinct := by simp [empty, contents]
  room := le_rfl

omit [LinearOrder T] in
@[simp]
theorem contents_empty [Inhabited T] [Inhabited η] : (empty : Timers T η).contents = 0 := by
  simp [empty, contents]

omit [LinearOrder T] in
@[simp]
theorem card_contents (self : Timers T η) : self.contents.card = self.len := by
  simp [contents]

/-- A push whose allocation succeeds always succeeds. -/
theorem push_isSome (self : Timers T η) (when : T) (handle : η) :
    (self.push true when handle).isSome := by
  unfold push grow
  split <;> simp

/-- A successful push adds one entry, with the next insertion number. -/
theorem contents_push {alloc : Bool} {self self' : Timers T η} {when : T} {handle : η}
    (h : self.push alloc when handle = some self') :
    self'.contents = { when, seq := self.seq + 1, handle } ::ₘ self.contents ∧
      self'.seq = self.seq + 1 ∧ self'.cancelled = self.cancelled ∧ self'.len = self.len + 1 := by
  have hkeep : ∀ x, elements (Function.update self.items self.len x) self.len =
      elements self.items self.len := fun x =>
    elements_congr fun i hi => Function.update_of_ne hi.ne _ _
  unfold push grow at h
  by_cases hfull : self.len = self.cap <;> cases alloc <;> simp_all [contents]
  all_goals
    subst h
    dsimp only
    rw [elements_siftUp _ _ (Nat.lt_succ_self _), elements_succ, Function.update_self]
    simp [hkeep]

theorem valid_push {alloc : Bool} {self self' : Timers T η} {when : T} {handle : η}
    (hv : self.Valid) (h : self.push alloc when handle = some self') : self'.Valid := by
  obtain ⟨hc, hseq, -, hlen⟩ := contents_push h
  have hord : HeapOn TimerEntry.key self'.items self'.len ∧ self'.len ≤ self'.cap := by
    have hstart : ∀ x, HeapOn TimerEntry.key
        (siftUp TimerEntry.before (Function.update self.items self.len x) self.len)
        (self.len + 1) := fun x => heapOn_siftUp TimerEntry.before_iff fun i hi hin => by
      have := parent_lt hi
      rw [Function.update_of_ne (by omega), Function.update_of_ne (by omega)]
      exact hv.ordered i hi hin
    have hroom := hv.room
    unfold push grow at h
    by_cases hfull : self.len = self.cap <;> cases alloc <;> simp_all
    all_goals
      subst h
      refine ⟨hstart _, ?_⟩
    · dsimp only
      split_ifs <;> omega
    all_goals
      dsimp only
      omega
  refine ⟨hord.1, ?_, ?_, hord.2⟩
  · intro e he
    rw [hc, Multiset.mem_cons] at he
    rcases he with rfl | he
    · exact hseq.ge
    · exact (hv.fresh e he).trans (by omega)
  · rw [hc, Multiset.map_cons, Multiset.nodup_cons]
    refine ⟨fun hmem => ?_, hv.distinct⟩
    obtain ⟨e, he, heq⟩ := Multiset.mem_map.mp hmem
    have := hv.fresh e he
    dsimp only at heq
    omega

omit [LinearOrder T] in
/-- The heap has no first entry exactly when it is empty. -/
theorem peek_eq_none_iff (self : Timers T η) : self.peek = none ↔ self.contents = 0 := by
  rw [peek, ← Multiset.card_eq_zero, card_contents]
  split <;> simp_all

omit [LinearOrder T] in
theorem mem_of_peek {self : Timers T η} {e : TimerEntry T η} (h : self.peek = some e) :
    e ∈ self.contents := by
  unfold peek at h
  split at h
  · cases h
  · obtain rfl := Option.some.inj h
    exact mem_elements.mpr ⟨0, by omega, rfl⟩

/-- The first entry is at or before every entry of the heap. -/
theorem peek_le {self : Timers T η} (hv : self.Valid) {e x : TimerEntry T η}
    (h : self.peek = some e) (hx : x ∈ self.contents) : e.key ≤ x.key := by
  unfold peek at h
  split at h
  · cases h
  · obtain rfl := Option.some.inj h
    obtain ⟨i, hi, rfl⟩ := mem_elements.mp hx
    exact hv.ordered.root_le hi

@[simp]
theorem pop_fst (self : Timers T η) : self.pop.1 = self.peek := by
  unfold pop peek
  split
  · rfl
  · dsimp only
    split <;> rfl

@[simp]
theorem pop_seq (self : Timers T η) : self.pop.2.seq = self.seq := by
  unfold pop
  split
  · rfl
  · dsimp only
    split <;> rfl

@[simp]
theorem pop_cancelled (self : Timers T η) : self.pop.2.cancelled = self.cancelled := by
  unfold pop
  split
  · rfl
  · dsimp only
    split <;> rfl

omit [LinearOrder T] in
/-- Moving the last entry over the first takes the first out of the multiset. -/
theorem elements_update_zero (a : ℕ → TimerEntry T η) {n : ℕ} (hn : n ≠ 0) :
    a 0 ::ₘ elements (Function.update a 0 (a n)) n = elements a (n + 1) := by
  obtain ⟨m, rfl⟩ := Nat.exists_eq_succ_of_ne_zero hn
  have hshift : ∀ b : ℕ → TimerEntry T η, elements b (m + 1) =
      b 0 ::ₘ (Multiset.range m).map fun i => b (i + 1) := fun b => by
    induction m with
    | zero => simp [elements_succ]
    | succ m ih =>
      rw [elements_succ, ih (by omega), Multiset.range_succ, Multiset.map_cons,
        Multiset.cons_swap]
  rw [elements_succ a (m + 1), hshift, hshift a]
  simp [Multiset.cons_swap]

/-- `pop` takes the first entry out of the heap and nothing else. -/
theorem contents_pop {self : Timers T η} {e : TimerEntry T η} (h : self.peek = some e) :
    self.contents = e ::ₘ self.pop.2.contents := by
  unfold peek at h
  split at h
  · cases h
  · rename_i hlen
    obtain rfl := Option.some.inj h
    have hsplit : self.len = self.len - 1 + 1 := by omega
    unfold pop contents
    rw [if_neg hlen]
    dsimp only
    split_ifs with hone
    · dsimp only
      rw [elements_siftDown _ _ (by omega : 0 < self.len - 1), elements_update_zero _ hone,
        ← hsplit]
    · dsimp only
      rw [not_not] at hone
      rw [hsplit, hone]
      simp [elements_succ]

theorem valid_pop {self : Timers T η} (hv : self.Valid) : self.pop.2.Valid := by
  rcases hp : self.peek with - | e
  · have hlen : self.len = 0 := by
      rwa [peek_eq_none_iff, ← Multiset.card_eq_zero, card_contents] at hp
    unfold pop
    rw [if_pos hlen]
    exact hv
  · have hc := contents_pop hp
    refine ⟨?_, fun x hx => ?_, ?_, ?_⟩
    · unfold pop
      split_ifs with hlen
      · exact hv.ordered
      dsimp only
      split_ifs with hone
      · dsimp only
        rw [heapOn_iff_heapFrom]
        refine heapFrom_siftDown TimerEntry.before_iff fun i hi hin hlo => ?_
        rw [Function.update_of_ne (by omega), Function.update_of_ne (by omega)]
        exact hv.ordered i hi (by omega)
      · exact fun i hi hin => hv.ordered i hi (by dsimp only at hin; omega)
    · rw [pop_seq]
      exact hv.fresh x (hc ▸ Multiset.mem_cons_of_mem hx)
    · have hd := hv.distinct
      rw [hc, Multiset.map_cons, Multiset.nodup_cons] at hd
      exact hd.2
    · have hroom := hv.room
      unfold pop
      split
      · exact hroom
      · dsimp only
        split <;> dsimp only <;> omega

/-! ### Compaction -/

omit [LinearOrder T] in
/-- The first `count + 1` slots from `read` on are slot `read` and the first `count` after it. -/
private theorem map_range_succ (items : ℕ → TimerEntry T η) (read count : ℕ) :
    (Multiset.range (count + 1)).map (fun i => items (read + i)) =
      items read ::ₘ (Multiset.range count).map fun i => items (read + 1 + i) := by
  induction count with
  | zero => simp
  | succ count ih =>
    rw [Multiset.range_succ, Multiset.map_cons, ih, Multiset.range_succ count, Multiset.map_cons,
      Multiset.cons_swap, show read + (count + 1) = read + 1 + count by omega]

omit [LinearOrder T] in
/-- The compaction pass keeps the entries `shouldDrop` refuses, in the slots below `write`, and
copies out the handles of the others. -/
theorem compactLoop_spec (shouldDrop : η → Bool) {count read : ℕ}
    {items items' : ℕ → TimerEntry T η} {write write' : ℕ} {doomed doomed' : List η}
    (hw : write ≤ read)
    (h : compactLoop shouldDrop count read items write doomed = (items', write', doomed')) :
    let rest := (Multiset.range count).map fun i => items (read + i)
    elements items' write' =
        elements items write + rest.filter (fun e => ¬ shouldDrop e.handle = true) ∧
      (doomed' : Multiset η) =
        doomed + (rest.filter fun e => shouldDrop e.handle = true).map TimerEntry.handle ∧
      write' ≤ write + count := by
  induction count generalizing read items write doomed with
  | zero =>
    simp only [compactLoop, Prod.mk.injEq] at h
    obtain ⟨rfl, rfl, rfl⟩ := h
    simp
  | succ count ih =>
    rw [compactLoop] at h
    dsimp only at h ⊢
    rw [map_range_succ]
    split_ifs at h with hdrop
    · obtain ⟨h1, h2, h3⟩ := ih (by omega) h
      refine ⟨?_, ?_, by omega⟩
      · rw [h1, Multiset.filter_cons_of_neg]
        simpa using hdrop
      · rw [h2, Multiset.filter_cons_of_pos _ (by exact hdrop), ← Multiset.coe_add,
          Multiset.map_cons, add_assoc, Multiset.coe_singleton, Multiset.singleton_add]
    · obtain ⟨h1, h2, h3⟩ := ih (by omega) h
      -- the slots still to be read are all past the one just written
      have hrest : (Multiset.range count).map
            (fun i => Function.update items write (items read) (read + 1 + i)) =
          (Multiset.range count).map fun i => items (read + 1 + i) :=
        Multiset.map_congr rfl fun i _ => Function.update_of_ne (by omega) _ _
      have hkeep : elements (Function.update items write (items read)) (write + 1) =
          items read ::ₘ elements items write := by
        rw [elements_succ, Function.update_self]
        congr 1
        exact elements_congr fun i hi => Function.update_of_ne hi.ne _ _
      refine ⟨?_, ?_, by omega⟩
      · rw [h1, hkeep, hrest, Multiset.filter_cons_of_pos _ (by simpa using hdrop),
          Multiset.cons_add, Multiset.add_cons]
      · rw [h2, hrest, Multiset.filter_cons_of_neg _ (by exact hdrop)]

theorem elements_heapify {n i : ℕ} (items : ℕ → TimerEntry T η) (hi : i ≤ n) :
    elements (heapify n i items) n = elements items n := by
  induction i generalizing items with
  | zero => rfl
  | succ i ih => rw [heapify, ih _ (by omega), elements_siftDown _ _ (by omega)]

theorem heapOn_heapify {n i : ℕ} {items : ℕ → TimerEntry T η}
    (h : HeapFrom TimerEntry.key i items n) : HeapOn TimerEntry.key (heapify n i items) n := by
  induction i generalizing items with
  | zero => exact heapOn_iff_heapFrom.mpr h
  | succ i ih => exact ih (heapFrom_siftDown TimerEntry.before_iff h)

/-- `compact` keeps exactly the entries `shouldDrop` refuses and releases the handles of the
others; the insertion counter is untouched. -/
theorem contents_compact (shouldDrop : η → Bool) (self : Timers T η) :
    (self.compact true shouldDrop).1.contents =
        self.contents.filter (fun e => ¬ shouldDrop e.handle = true) ∧
      ((self.compact true shouldDrop).2 : Multiset η) =
        (self.contents.filter fun e => shouldDrop e.handle = true).map TimerEntry.handle ∧
      (self.compact true shouldDrop).1.seq = self.seq ∧
      (self.compact true shouldDrop).1.cancelled = 0 := by
  rcases hloop : compactLoop shouldDrop self.len 0 self.items 0 [] with ⟨items, write, doomed⟩
  obtain ⟨h1, h2, -⟩ := compactLoop_spec shouldDrop le_rfl hloop
  simp only [elements_zero, zero_add, Multiset.coe_nil] at h1 h2
  rw [compact, if_pos rfl, hloop]
  refine ⟨?_, h2, rfl, rfl⟩
  dsimp only [contents]
  split_ifs with hw
  · rw [elements_heapify _ (by omega), h1, elements]
  · rw [h1, elements]

theorem valid_compact {alloc : Bool} (shouldDrop : η → Bool) {self : Timers T η}
    (hv : self.Valid) : (self.compact alloc shouldDrop).1.Valid := by
  cases alloc with
  | false => exact hv
  | true =>
    obtain ⟨hc, -, hseq, -⟩ := contents_compact shouldDrop self
    rcases hloop : compactLoop shouldDrop self.len 0 self.items 0 [] with ⟨items, write, doomed⟩
    obtain ⟨-, -, hlen⟩ := compactLoop_spec shouldDrop le_rfl hloop
    refine ⟨?_, fun e he => ?_, ?_, ?_⟩
    · rw [compact, if_pos rfl, hloop]
      dsimp only
      split_ifs with hw
      · exact heapOn_heapify (heapFrom_half _ _)
      · intro i hi hin
        omega
    · rw [hseq]
      rw [hc, Multiset.mem_filter] at he
      exact hv.fresh e he.1
    · rw [hc]
      exact Multiset.nodup_of_le (Multiset.map_le_map (Multiset.filter_le _ _)) hv.distinct
    · have hroom := hv.room
      rw [compact, if_pos rfl, hloop]
      dsimp only
      omega

end Contents

end Timers

/-! ## Heaps that are valid by construction -/

/-- A timer heap together with the facts every operation keeps. -/
structure TimerHeap (T η : Type) [LinearOrder T] extends Timers T η where
  /-- The heap is in order and its insertion numbers are distinct. -/
  valid : toTimers.Valid

namespace TimerHeap

variable [LinearOrder T]

/-- The empty heap. -/
def empty [Inhabited T] [Inhabited η] : TimerHeap T η := ⟨.empty, Timers.valid_empty⟩

/-- `Timers.push`. -/
def push (alloc : Bool) (self : TimerHeap T η) (when : T) (handle : η) :
    Option (TimerHeap T η) :=
  match h : self.toTimers.push alloc when handle with
  | none => none
  | some t => some ⟨t, Timers.valid_push self.valid h⟩

/-- `Timers.pop`. -/
def pop (self : TimerHeap T η) : Option (TimerEntry T η) × TimerHeap T η :=
  (self.toTimers.pop.1, ⟨self.toTimers.pop.2, Timers.valid_pop self.valid⟩)

/-- `Timers.compact`. -/
def compact (alloc : Bool) (shouldDrop : η → Bool) (self : TimerHeap T η) :
    TimerHeap T η × List η :=
  (⟨(self.toTimers.compact alloc shouldDrop).1, Timers.valid_compact shouldDrop self.valid⟩,
    (self.toTimers.compact alloc shouldDrop).2)

/-- The heap with another count of cancelled entries. -/
def setCancelled (self : TimerHeap T η) (cancelled : ℕ) : TimerHeap T η :=
  ⟨{ self.toTimers with cancelled },
    ⟨self.valid.ordered, self.valid.fresh, self.valid.distinct, self.valid.room⟩⟩

@[simp]
theorem contents_empty [Inhabited T] [Inhabited η] :
    (empty : TimerHeap T η).contents = 0 := Timers.contents_empty

@[simp]
theorem contents_setCancelled (self : TimerHeap T η) (n : ℕ) :
    (self.setCancelled n).contents = self.contents := rfl

@[simp]
theorem cancelled_setCancelled (self : TimerHeap T η) (n : ℕ) :
    (self.setCancelled n).cancelled = n := rfl

@[simp]
theorem seq_setCancelled (self : TimerHeap T η) (n : ℕ) :
    (self.setCancelled n).seq = self.seq := rfl

/-- A push that can allocate adds one entry with the next insertion number. -/
theorem push_true (self : TimerHeap T η) (when : T) (handle : η) :
    ∃ t : TimerHeap T η, self.push true when handle = some t ∧
      t.contents = { when, seq := self.seq + 1, handle } ::ₘ self.contents ∧
      t.seq = self.seq + 1 ∧ t.cancelled = self.cancelled := by
  obtain ⟨t, ht⟩ := Option.isSome_iff_exists.mp (Timers.push_isSome self.toTimers when handle)
  obtain ⟨hc, hseq, hcan, -⟩ := Timers.contents_push ht
  refine ⟨⟨t, Timers.valid_push self.valid ht⟩, ?_, hc, hseq, hcan⟩
  unfold push
  split
  · rename_i hnone
    rw [ht] at hnone
    cases hnone
  · rename_i t' hsome
    rw [ht] at hsome
    cases hsome
    rfl

@[simp]
theorem pop_fst (self : TimerHeap T η) : self.pop.1 = self.peek := Timers.pop_fst _

@[simp]
theorem pop_seq (self : TimerHeap T η) : self.pop.2.seq = self.seq := Timers.pop_seq _

@[simp]
theorem pop_cancelled (self : TimerHeap T η) : self.pop.2.cancelled = self.cancelled :=
  Timers.pop_cancelled _

theorem contents_pop {self : TimerHeap T η} {e : TimerEntry T η} (h : self.peek = some e) :
    self.contents = e ::ₘ self.pop.2.contents := Timers.contents_pop h

/-- The first entry is at or before every entry of the heap. -/
theorem peek_le {self : TimerHeap T η} {e x : TimerEntry T η} (h : self.peek = some e)
    (hx : x ∈ self.contents) : e.key ≤ x.key := Timers.peek_le self.valid h hx

theorem contents_compact (shouldDrop : η → Bool) (self : TimerHeap T η) :
    (self.compact true shouldDrop).1.contents =
        self.contents.filter (fun e => ¬ shouldDrop e.handle = true) ∧
      ((self.compact true shouldDrop).2 : Multiset η) =
        (self.contents.filter fun e => shouldDrop e.handle = true).map TimerEntry.handle ∧
      (self.compact true shouldDrop).1.seq = self.seq ∧
      (self.compact true shouldDrop).1.cancelled = 0 :=
  Timers.contents_compact shouldDrop self.toTimers

end TimerHeap

end Zuvloop
