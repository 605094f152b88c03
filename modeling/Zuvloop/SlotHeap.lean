import Mathlib.Data.Multiset.Range
import Mathlib.Data.Nat.Basic
import Mathlib.Logic.Equiv.Basic
import Mathlib.Order.Defs.LinearOrder
import Mathlib.Tactic.Common

/-!
# Binary heaps over slots

A binary min-heap kept in the first `n` slots of an array, with the array a function from
positions to elements. Slots from `n` on hold whatever they last held, as the storage of a
growable array does.

* `siftUp` and `siftDown` carry a hole through the array and fill it at the end. Filling the
  hole at every step instead gives a chain of swaps (`siftUpLoop_eq`, `siftDownLoop_eq`), which
  is the form the proofs work with.
* `HeapFrom key lo a n`: every slot below `n` whose parent is at `lo` or later is at or after
  its parent. `HeapOn` is the case `lo = 0`.
* `elements a n`: the multiset in the first `n` slots.

The elements are compared through a key in a linear order, and the code's comparison is any
`before` that agrees with the strict order of the keys.
-/

namespace SlotHeap

variable {α K : Type}

/-- The position of the parent of position `i`. Position `0` has no parent. -/
def parent (i : ℕ) : ℕ := (i - 1) / 2

theorem parent_lt {i : ℕ} (hi : 0 < i) : parent i < i := by
  unfold parent
  omega

theorem parent_eq_iff {i p : ℕ} (hi : 0 < i) :
    parent i = p ↔ i = 2 * p + 1 ∨ i = 2 * p + 2 := by
  unfold parent
  omega

/-! ## The sifts -/

section Sift

variable (before : α → α → Bool) (item : α)

/-- The loop of a sift towards the root: `item` is in hand and slot `i` is the hole. The first
argument bounds the number of moves. -/
def siftUpLoop : ℕ → (ℕ → α) → ℕ → ℕ → α
  | 0, a, i => Function.update a i item
  | fuel + 1, a, i =>
    if 0 < i ∧ before item (a (parent i)) then
      siftUpLoop fuel (Function.update a i (a (parent i))) (parent i)
    else
      Function.update a i item

/-- The child of `i` that orders first, given that `2 * i + 1` is a slot of the heap. -/
def firstChild (a : ℕ → α) (n i : ℕ) : ℕ :=
  if 2 * i + 2 < n ∧ before (a (2 * i + 2)) (a (2 * i + 1)) then 2 * i + 2 else 2 * i + 1

/-- The loop of a sift towards the leaves of a heap of `n` slots. The first argument bounds the
number of moves. -/
def siftDownLoop (n : ℕ) : ℕ → (ℕ → α) → ℕ → ℕ → α
  | 0, a, i => Function.update a i item
  | fuel + 1, a, i =>
    if 2 * i + 1 < n ∧ before (a (firstChild before a n i)) item then
      siftDownLoop n fuel (Function.update a i (a (firstChild before a n i)))
        (firstChild before a n i)
    else
      Function.update a i item

end Sift

/-- Sift the element of slot `start` towards the root. A move at least decrements the position,
so `start` moves are enough. -/
def siftUp (before : α → α → Bool) (a : ℕ → α) (start : ℕ) : ℕ → α :=
  siftUpLoop before (a start) start a start

/-- Sift the element of slot `start` towards the leaves of a heap of `n` slots. A move at least
increments the position, so `n` moves are enough. -/
def siftDown (before : α → α → Bool) (n : ℕ) (a : ℕ → α) (start : ℕ) : ℕ → α :=
  siftDownLoop before (a start) n n a start

/-! ## A hole is a chain of swaps -/

/-- Exchange the contents of two slots. -/
def swapSlots (a : ℕ → α) (i j : ℕ) : ℕ → α := a ∘ Equiv.swap i j

@[simp]
theorem swapSlots_left (a : ℕ → α) (i j : ℕ) : swapSlots a i j i = a j := by
  simp [swapSlots]

@[simp]
theorem swapSlots_right (a : ℕ → α) (i j : ℕ) : swapSlots a i j j = a i := by
  simp [swapSlots]

theorem swapSlots_of_ne (a : ℕ → α) {i j k : ℕ} (hi : k ≠ i) (hj : k ≠ j) :
    swapSlots a i j k = a k := by
  simp [swapSlots, Equiv.swap_apply_of_ne_of_ne hi hj]

/-- Moving the hole from `i` to `j` and filling it is a swap of the array whose hole was
filled at `i`. -/
theorem update_update_eq_swapSlots (a : ℕ → α) (item : α) {i j : ℕ} (hij : i ≠ j) :
    Function.update (Function.update a i (a j)) j item =
      swapSlots (Function.update a i item) i j := by
  funext k
  by_cases hj : k = j
  · subst hj
    simp
  · by_cases hi : k = i
    · subst hi
      simp [hj, Function.update_of_ne hij.symm]
    · simp [swapSlots_of_ne _ hi hj, hi, hj]

/-- The sift towards the root as a chain of swaps. -/
def swapUp (before : α → α → Bool) : ℕ → (ℕ → α) → ℕ → ℕ → α
  | 0, a, _ => a
  | fuel + 1, a, i =>
    if 0 < i ∧ before (a i) (a (parent i)) then
      swapUp before fuel (swapSlots a i (parent i)) (parent i)
    else a

theorem siftUpLoop_eq (before : α → α → Bool) (item : α) (fuel : ℕ) (a : ℕ → α) (i : ℕ) :
    siftUpLoop before item fuel a i = swapUp before fuel (Function.update a i item) i := by
  induction fuel generalizing a i with
  | zero => rfl
  | succ fuel ih =>
    rw [siftUpLoop, swapUp]
    by_cases hi : 0 < i
    · have hne : parent i ≠ i := (parent_lt hi).ne
      simp only [Function.update_self, Function.update_of_ne hne, hi, true_and]
      split
      · rw [ih, update_update_eq_swapSlots _ _ hne.symm]
      · rfl
    · simp [hi]

/-- The sift towards the leaves as a chain of swaps. -/
def swapDown (before : α → α → Bool) (n : ℕ) : ℕ → (ℕ → α) → ℕ → ℕ → α
  | 0, a, _ => a
  | fuel + 1, a, i =>
    if 2 * i + 1 < n ∧ before (a (firstChild before a n i)) (a i) then
      swapDown before n fuel (swapSlots a i (firstChild before a n i)) (firstChild before a n i)
    else a

theorem firstChild_eq_or (before : α → α → Bool) (a : ℕ → α) (n i : ℕ) :
    firstChild before a n i = 2 * i + 1 ∨
      firstChild before a n i = 2 * i + 2 ∧ 2 * i + 2 < n := by
  unfold firstChild
  split <;> simp_all

theorem parent_firstChild (before : α → α → Bool) (a : ℕ → α) (n i : ℕ) :
    parent (firstChild before a n i) = i := by
  unfold parent
  rcases firstChild_eq_or before a n i with h | h <;> omega

theorem firstChild_update (before : α → α → Bool) (a : ℕ → α) (n i : ℕ) (item : α) :
    firstChild before (Function.update a i item) n i = firstChild before a n i := by
  unfold firstChild
  rw [Function.update_of_ne (by omega : 2 * i + 2 ≠ i),
    Function.update_of_ne (by omega : 2 * i + 1 ≠ i)]

theorem siftDownLoop_eq (before : α → α → Bool) (item : α) (n fuel : ℕ) (a : ℕ → α) (i : ℕ) :
    siftDownLoop before item n fuel a i =
      swapDown before n fuel (Function.update a i item) i := by
  induction fuel generalizing a i with
  | zero => rfl
  | succ fuel ih =>
    have hne : firstChild before a n i ≠ i := by
      rcases firstChild_eq_or before a n i with h | h <;> omega
    rw [siftDownLoop, swapDown, firstChild_update, Function.update_self,
      Function.update_of_ne hne]
    split
    · rw [ih, update_update_eq_swapSlots _ _ hne.symm]
    · rfl

/-! ## The elements of the heap -/

/-- The multiset in the first `n` slots. -/
def elements (a : ℕ → α) (n : ℕ) : Multiset α := (Multiset.range n).map a

@[simp]
theorem elements_zero (a : ℕ → α) : elements a 0 = 0 := by
  simp [elements]

theorem elements_succ (a : ℕ → α) (n : ℕ) : elements a (n + 1) = a n ::ₘ elements a n := by
  simp [elements, Multiset.range_succ]

@[simp]
theorem card_elements (a : ℕ → α) (n : ℕ) : (elements a n).card = n := by
  simp [elements]

theorem mem_elements {a : ℕ → α} {n : ℕ} {x : α} : x ∈ elements a n ↔ ∃ i < n, a i = x := by
  simp [elements]

theorem elements_congr {a b : ℕ → α} {n : ℕ} (h : ∀ i < n, a i = b i) :
    elements a n = elements b n :=
  Multiset.map_congr rfl fun i hi => h i (Multiset.mem_range.mp hi)

/-- A swap of two slots of the heap keeps its elements. -/
theorem elements_swapSlots (a : ℕ → α) {n i j : ℕ} (hi : i < n) (hj : j < n) :
    elements (swapSlots a i j) n = elements a n := by
  have hperm : (Multiset.range n).map (Equiv.swap i j) = Multiset.range n := by
    refine (Multiset.Nodup.ext ?_ (Multiset.nodup_range n)).mpr fun k => ?_
    · exact (Multiset.nodup_range n).map (Equiv.swap i j).injective
    · rw [Multiset.mem_map, Multiset.mem_range]
      constructor
      · rintro ⟨m, hm, rfl⟩
        rw [Multiset.mem_range] at hm
        rw [Equiv.swap_apply_def]
        split_ifs <;> assumption
      · intro hk
        refine ⟨Equiv.swap i j k, ?_, Equiv.swap_apply_self i j k⟩
        rw [Multiset.mem_range, Equiv.swap_apply_def]
        split_ifs <;> assumption
  calc elements (swapSlots a i j) n
      = ((Multiset.range n).map (Equiv.swap i j)).map a := by
        rw [Multiset.map_map]
        rfl
    _ = elements a n := by rw [hperm, elements]

theorem elements_swapUp (before : α → α → Bool) {n : ℕ} (fuel : ℕ) (a : ℕ → α) {i : ℕ}
    (hi : i < n) : elements (swapUp before fuel a i) n = elements a n := by
  induction fuel generalizing a i with
  | zero => rfl
  | succ fuel ih =>
    rw [swapUp]
    split
    · have hp : parent i < n := (parent_lt (by omega)).trans hi
      rw [ih _ hp, elements_swapSlots _ hi hp]
    · rfl

theorem elements_swapDown (before : α → α → Bool) {n : ℕ} (fuel : ℕ) (a : ℕ → α) {i : ℕ}
    (hi : i < n) : elements (swapDown before n fuel a i) n = elements a n := by
  induction fuel generalizing a i with
  | zero => rfl
  | succ fuel ih =>
    rw [swapDown]
    split
    · have hc : firstChild before a n i < n := by
        rcases firstChild_eq_or before a n i with h | h <;> omega
      rw [ih _ hc, elements_swapSlots _ hi hc]
    · rfl

theorem elements_siftUp (before : α → α → Bool) {n : ℕ} (a : ℕ → α) {start : ℕ}
    (hs : start < n) : elements (siftUp before a start) n = elements a n := by
  rw [siftUp, siftUpLoop_eq, Function.update_eq_self, elements_swapUp _ _ _ hs]

theorem elements_siftDown (before : α → α → Bool) {n : ℕ} (a : ℕ → α) {start : ℕ}
    (hs : start < n) : elements (siftDown before n a start) n = elements a n := by
  rw [siftDown, siftDownLoop_eq, Function.update_eq_self, elements_swapDown _ _ _ hs]

/-! ## Heap order -/

section Order

variable [LinearOrder K] (key : α → K)

/-- Every slot below `n` whose parent is at `lo` or later is at or after its parent. -/
def HeapFrom (lo : ℕ) (a : ℕ → α) (n : ℕ) : Prop :=
  ∀ i, 0 < i → i < n → lo ≤ parent i → key (a (parent i)) ≤ key (a i)

/-- The first `n` slots are in heap order. -/
def HeapOn (a : ℕ → α) (n : ℕ) : Prop :=
  ∀ i, 0 < i → i < n → key (a (parent i)) ≤ key (a i)

variable {key}

theorem heapOn_iff_heapFrom {a : ℕ → α} {n : ℕ} : HeapOn key a n ↔ HeapFrom key 0 a n := by
  simp [HeapOn, HeapFrom]

/-- No slot from `n / 2` on is a parent. -/
theorem heapFrom_half (a : ℕ → α) (n : ℕ) : HeapFrom key (n / 2) a n := by
  intro i hi hin hlo
  unfold parent at hlo
  omega

/-- The root of a heap is a minimum. -/
theorem HeapOn.root_le {a : ℕ → α} {n : ℕ} (h : HeapOn key a n) {i : ℕ} (hi : i < n) :
    key (a 0) ≤ key (a i) := by
  induction i using Nat.strongRecOn with
  | ind i ih =>
    rcases Nat.eq_zero_or_pos i with rfl | hpos
    · exact le_rfl
    · have hlt := parent_lt hpos
      exact (ih (parent i) hlt (hlt.trans hi)).trans (h i hpos hi)

/-- In order except between slot `i` and its parent, with the children of `i` at or after that
parent: what a sift towards the root starts from. -/
structure UpOrder (key : α → K) (a : ℕ → α) (n i : ℕ) : Prop where
  /-- Every other pair is in order. -/
  others : ∀ j, 0 < j → j < n → j ≠ i → key (a (parent j)) ≤ key (a j)
  /-- The children of `i` are at or after the parent of `i`. -/
  grand : ∀ j, 0 < j → j < n → parent j = i → 0 < i → key (a (parent i)) ≤ key (a j)

/-- In order from `lo` on, except between slot `i` and its children, which are at or after the
parent of `i`: what a sift towards the leaves starts from. -/
structure DownOrder (key : α → K) (lo : ℕ) (a : ℕ → α) (n i : ℕ) : Prop where
  /-- Every other pair is in order. -/
  others : ∀ j, 0 < j → j < n → lo ≤ parent j → parent j ≠ i → key (a (parent j)) ≤ key (a j)
  /-- The children of `i` are at or after the parent of `i`. -/
  grand : ∀ j, 0 < j → j < n → parent j = i → 0 < i → lo ≤ parent i →
    key (a (parent i)) ≤ key (a j)

variable {before : α → α → Bool} (hb : ∀ x y, before x y = true ↔ key x < key y)

include hb

theorem heapOn_swapUp {n fuel i : ℕ} {a : ℕ → α} (hfuel : i ≤ fuel) (hi : i < n)
    (h : UpOrder key a n i) : HeapOn key (swapUp before fuel a i) n := by
  induction fuel generalizing a i with
  | zero =>
    have hi0 : i = 0 := by omega
    subst hi0
    intro j hj hjn
    exact h.others j hj hjn hj.ne'
  | succ fuel ih =>
    rw [swapUp]
    split_ifs with hc
    · obtain ⟨hpos, hlt⟩ := hc
      rw [hb] at hlt
      have hp := parent_lt hpos
      refine ih (by omega) (by omega) ⟨fun j hj hjn hjp => ?_, fun j hj hjn hjp hp0 => ?_⟩
      · -- a pair that is not the one above the new hole
        by_cases hji : j = i
        · subst hji
          simpa using hlt.le
        · rw [swapSlots_of_ne a hji hjp]
          by_cases hpj : parent j = i
          · rw [hpj, swapSlots_left]
            exact h.grand j hj hjn hpj hpos
          · by_cases hpp : parent j = parent i
            · rw [hpp, swapSlots_right]
              have hle := h.others j hj hjn hji
              rw [hpp] at hle
              exact hlt.le.trans hle
            · rw [swapSlots_of_ne a hpj hpp]
              exact h.others j hj hjn hji
      · -- the children of the new hole, against its parent
        have hpp := parent_lt hp0
        have hup := h.others (parent i) hp0 (by omega) (by omega)
        rw [swapSlots_of_ne a (by omega : parent (parent i) ≠ i) (by omega)]
        by_cases hji : j = i
        · subst hji
          simpa using hup
        · have hjp' : j ≠ parent i := by
            have := parent_lt hj
            omega
          rw [swapSlots_of_ne a hji hjp']
          have hle := h.others j hj hjn hji
          rw [hjp] at hle
          exact hup.trans hle
    · intro j hj hjn
      by_cases hji : j = i
      · subst hji
        have hn : ¬ before (a j) (a (parent j)) = true := fun hlt => hc ⟨hj, hlt⟩
        rw [hb] at hn
        exact not_lt.mp hn
      · exact h.others j hj hjn hji

/-- Adding a slot at the end and sifting it towards the root keeps heap order. -/
theorem heapOn_siftUp {n : ℕ} {a : ℕ → α} (h : HeapOn key a n) :
    HeapOn key (siftUp before a n) (n + 1) := by
  rw [siftUp, siftUpLoop_eq, Function.update_eq_self]
  refine heapOn_swapUp hb le_rfl (by omega) ⟨fun j hj hjn hne => ?_, fun j hj hjn hp _ => ?_⟩
  · exact h j hj (by omega)
  · have := parent_lt hj
    omega

theorem firstChild_le {n i j : ℕ} (a : ℕ → α) (hj : 0 < j) (hjn : j < n) (hp : parent j = i) :
    key (a (firstChild before a n i)) ≤ key (a j) := by
  rw [parent_eq_iff hj] at hp
  unfold firstChild
  split_ifs with hc
  · obtain ⟨-, hlt⟩ := hc
    rw [hb] at hlt
    rcases hp with rfl | rfl
    · exact hlt.le
    · exact le_rfl
  · rcases hp with rfl | rfl
    · exact le_rfl
    · have hn : ¬ before (a (2 * i + 2)) (a (2 * i + 1)) = true := fun hlt => hc ⟨hjn, hlt⟩
      rw [hb] at hn
      exact not_lt.mp hn

theorem heapFrom_swapDown {lo n fuel i : ℕ} {a : ℕ → α} (hfuel : n ≤ i + fuel) (hlo : lo ≤ i)
    (h : DownOrder key lo a n i) : HeapFrom key lo (swapDown before n fuel a i) n := by
  induction fuel generalizing a i with
  | zero =>
    intro j hj hjn hlj
    refine h.others j hj hjn hlj ?_
    have := parent_lt hj
    omega
  | succ fuel ih =>
    rw [swapDown]
    have hpc := parent_firstChild before a n i
    have hmin := fun j => firstChild_le hb (n := n) (i := i) (j := j) a
    split_ifs with hc
    · obtain ⟨hleft, hlt⟩ := hc
      rw [hb] at hlt
      have hcn : i < firstChild before a n i ∧ firstChild before a n i < n := by
        rcases firstChild_eq_or before a n i with he | he <;> omega
      generalize firstChild before a n i = c at hlt hcn hpc hmin
      refine ih (by omega) (by omega) ⟨fun j hj hjn hlj hpj => ?_, fun j hj hjn hpj _ hlc => ?_⟩
      · -- a pair that is not below the new hole
        by_cases hji : j = i
        · subst hji
          have := parent_lt hj
          rw [swapSlots_left, swapSlots_of_ne a (by omega) (by omega)]
          exact h.grand c (by omega) hcn.2 hpc hj hlj
        · by_cases hjc : j = c
          · subst hjc
            rw [hpc]
            simpa using hlt.le
          · rw [swapSlots_of_ne a hji hjc]
            by_cases hpi : parent j = i
            · rw [hpi, swapSlots_left]
              exact hmin j hj hjn hpi
            · rw [swapSlots_of_ne a hpi hpj]
              exact h.others j hj hjn hlj hpi
      · -- the children of the new hole, against the slot it left
        have hcj := parent_lt hj
        rw [hpc, swapSlots_left, swapSlots_of_ne a (by omega) (by omega)]
        have hle := h.others j hj hjn (by omega) (by omega)
        rwa [hpj] at hle
    · intro j hj hjn hlj
      by_cases hpi : parent j = i
      · have hleft : 2 * i + 1 < n := by
          rw [parent_eq_iff hj] at hpi
          omega
        have hn : ¬ before (a (firstChild before a n i)) (a i) = true :=
          fun hlt => hc ⟨hleft, hlt⟩
        rw [hb] at hn
        rw [hpi]
        exact (not_lt.mp hn).trans (hmin j hj hjn hpi)
      · exact h.others j hj hjn hlj hpi

/-- Sifting slot `lo` towards the leaves extends heap order from `lo + 1` on to `lo`. -/
theorem heapFrom_siftDown {lo n : ℕ} {a : ℕ → α} (h : HeapFrom key (lo + 1) a n) :
    HeapFrom key lo (siftDown before n a lo) n := by
  rw [siftDown, siftDownLoop_eq, Function.update_eq_self]
  refine heapFrom_swapDown hb (by omega) le_rfl
    ⟨fun j hj hjn hlj hne => ?_, fun j hj hjn hp hlo hlp => ?_⟩
  · exact h j hj hjn (by omega)
  · have := parent_lt hlo
    omega

end Order

end SlotHeap
