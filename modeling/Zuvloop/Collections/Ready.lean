import Mathlib.Data.Int.ModEq
import Mathlib.Data.List.Range
import Mathlib.Data.Nat.Bitwise
import Mathlib.Logic.Function.Basic
import Mathlib.Tactic.Common

/-!
# The ready queue

`Ready` of `zig/collections.zig`: a power-of-two ring buffer of handles. The slots are a function
from positions to optional handles, `cap` is the length of the slice, and the positions in use
are `len` consecutive ones from `head` on, wrapped by a mask.

## Main definitions

* `Ready.ensureUnusedCapacity`, `Ready.pushAssumeCapacity`, `Ready.push`, `Ready.pop`: the
  operations of the source. `alloc` says whether an allocation succeeds.
* `Ready.toList`: the handles in queue order.
* `Queue`: a ring buffer whose capacity, head and slots are well formed. On it the operations are
  those of a list that is appended to at the tail and popped at the front.
-/

namespace Zuvloop

variable {α : Type}

/-- The ring buffer. -/
structure Ready (α : Type) where
  /-- The slots of the slice. -/
  items : ℕ → Option α
  /-- The length of the slice. -/
  cap : ℕ
  /-- The position of the first handle. -/
  head : ℕ
  /-- The number of handles. -/
  len : ℕ

namespace Ready

/-- `Ready.empty`: no slice, nothing in it. -/
def empty : Ready α := { items := fun _ => none, cap := 0, head := 0, len := 0 }

/-- The position of the `i`-th handle. -/
def slot (self : Ready α) (i : ℕ) : ℕ := (self.head + i) &&& (self.cap - 1)

/-- Double `cap` until it is at least `needed`. The first argument bounds the number of
doublings. -/
def doubleUntil : ℕ → ℕ → ℕ → ℕ
  | 0, _, cap => cap
  | fuel + 1, needed, cap => if cap < needed then doubleUntil fuel needed (cap * 2) else cap

/-- Move the handles to the start of a new slice; `none` when the allocation fails. -/
def grow (alloc : Bool) (self : Ready α) (newCap : ℕ) : Option (Ready α) :=
  if alloc then
    some
      { items := fun i => if i < self.len then self.items (self.slot i) else none
        cap := newCap
        head := 0
        len := self.len }
  else none

/-- Make room for `additional` handles; `none` when that takes an allocation that fails. -/
def ensureUnusedCapacity (alloc : Bool) (self : Ready α) (additional : ℕ) :
    Option (Ready α) :=
  if additional ≤ self.cap - self.len then some self
  else
    let newCap := if self.cap = 0 then 64 else self.cap
    let needed := self.len + additional
    self.grow alloc (doubleUntil needed needed newCap)

/-- Append a handle. The source asserts that there is room for it. -/
def pushAssumeCapacity (self : Ready α) (item : α) : Ready α :=
  { self with
    items := Function.update self.items (self.slot self.len) (some item)
    len := self.len + 1 }

/-- Append a handle, making room for it first. -/
def push (alloc : Bool) (self : Ready α) (item : α) : Option (Ready α) :=
  (self.ensureUnusedCapacity alloc 1).map fun r => r.pushAssumeCapacity item

/-- Take the first handle. -/
def pop (self : Ready α) : Option α × Ready α :=
  if self.len = 0 then (none, self)
  else
    (self.items self.head,
      { self with head := (self.head + 1) &&& (self.cap - 1), len := self.len - 1 })

/-- The handles in queue order. -/
def toList (self : Ready α) : List α :=
  (List.range self.len).filterMap fun i => self.items (self.slot i)

/-! ## Well-formed ring buffers -/

/-- What every operation keeps: the capacity is `0` or a power of two from 64 on, the head is a
slot of the slice, there are no more handles than slots, and the slots in use are filled. -/
structure WF (r : Ready α) : Prop where
  /-- The slice is absent, or its length is a power of two, at least 64. -/
  cap_eq : r.cap = 0 ∨ ∃ k, 6 ≤ k ∧ r.cap = 2 ^ k
  /-- The head is a slot of the slice. -/
  head_lt : 0 < r.cap → r.head < r.cap
  /-- There are no more handles than slots. -/
  len_le : r.len ≤ r.cap
  /-- The slots in use are filled. -/
  filled : ∀ i < r.len, (r.items (r.slot i)).isSome

theorem wf_empty : (empty : Ready α).WF where
  cap_eq := Or.inl rfl
  head_lt := fun h => h
  len_le := le_rfl
  filled := fun i hi => absurd hi (Nat.not_lt_zero i)

@[simp]
theorem toList_empty : (empty : Ready α).toList = [] := rfl

/-- In a slice of power-of-two length the mask is the remainder. -/
theorem slot_eq_mod {r : Ready α} (h : r.WF) (i : ℕ) (hc : 0 < r.cap) :
    r.slot i = (r.head + i) % r.cap := by
  rcases h.cap_eq with h0 | ⟨k, -, hk⟩
  · omega
  · rw [slot, hk, Nat.and_two_pow_sub_one_eq_mod]

theorem slot_lt {r : Ready α} (h : r.WF) (i : ℕ) (hc : 0 < r.cap) : r.slot i < r.cap := by
  rw [slot_eq_mod h i hc]
  exact Nat.mod_lt _ hc

/-- Different places in the queue are different slots. -/
theorem slot_injOn {r : Ready α} (h : r.WF) {i j : ℕ} (hi : i < r.cap) (hj : j < r.cap)
    (hij : r.slot i = r.slot j) : i = j := by
  have hc : 0 < r.cap := by omega
  have hmod : (r.head + i) ≡ (r.head + j) [MOD r.cap] := by
    rw [slot_eq_mod h i hc, slot_eq_mod h j hc] at hij
    exact hij
  have := Nat.ModEq.add_left_cancel' r.head hmod
  exact Nat.ModEq.eq_of_lt_of_lt this hi hj

theorem length_toList {r : Ready α} (h : r.WF) : r.toList.length = r.len := by
  have hfill := h.filled
  rw [toList]
  generalize r.len = n at hfill
  induction n with
  | zero => rfl
  | succ n ih =>
    obtain ⟨x, hx⟩ := Option.isSome_iff_exists.mp (hfill n (Nat.lt_succ_self n))
    rw [List.range_succ, List.filterMap_append, List.length_append,
      ih fun i hi => hfill i (by omega)]
    simp [hx]

theorem toList_eq_nil_iff {r : Ready α} (h : r.WF) : r.toList = [] ↔ r.len = 0 := by
  rw [← List.length_eq_zero_iff, length_toList h]

theorem le_doubleUntil (fuel needed cap : ℕ) (hcap : 0 < cap) (hfuel : needed ≤ cap + fuel) :
    needed ≤ doubleUntil fuel needed cap ∧ cap ≤ doubleUntil fuel needed cap := by
  induction fuel generalizing cap with
  | zero => exact ⟨by simpa [doubleUntil] using hfuel, le_rfl⟩
  | succ fuel ih =>
    rw [doubleUntil]
    split
    · obtain ⟨h1, h2⟩ := ih (cap * 2) (by omega) (by omega)
      exact ⟨h1, by omega⟩
    · exact ⟨by omega, le_rfl⟩

theorem doubleUntil_eq_two_pow (fuel needed k : ℕ) :
    ∃ j, k ≤ j ∧ doubleUntil fuel needed (2 ^ k) = 2 ^ j := by
  induction fuel generalizing k with
  | zero => exact ⟨k, le_rfl, rfl⟩
  | succ fuel ih =>
    rw [doubleUntil]
    split
    · rw [← Nat.pow_succ]
      obtain ⟨j, hj, heq⟩ := ih (k + 1)
      exact ⟨j, by omega, heq⟩
    · exact ⟨k, le_rfl, rfl⟩

/-- Making room keeps the ring well formed and the handles in order, and succeeds whenever the
allocation does. -/
theorem ensureUnusedCapacity_spec (alloc : Bool) {r : Ready α} (h : r.WF) (additional : ℕ) :
    match r.ensureUnusedCapacity alloc additional with
    | some r' => r'.WF ∧ r'.toList = r.toList ∧ r'.len = r.len ∧ r.len + additional ≤ r'.cap
    | none => alloc = false := by
  have hlen := h.len_le
  unfold ensureUnusedCapacity
  by_cases hroom : additional ≤ r.cap - r.len
  · rw [if_pos hroom]
    exact ⟨h, rfl, rfl, by omega⟩
  · rw [if_neg hroom]
    unfold grow
    cases alloc with
    | false => rfl
    | true =>
      simp only [↓reduceIte]
      have hpow : ∃ k, 6 ≤ k ∧ (if r.cap = 0 then 64 else r.cap) = 2 ^ k := by
        rcases h.cap_eq with h0 | ⟨k, hk, heq⟩
        · exact ⟨6, le_rfl, by simp [h0]⟩
        · exact ⟨k, hk, by rw [if_neg (heq ▸ (Nat.two_pow_pos k).ne'), heq]⟩
      obtain ⟨k, hk, heq⟩ := hpow
      rw [heq]
      obtain ⟨j, hj, hjeq⟩ := doubleUntil_eq_two_pow (r.len + additional) (r.len + additional) k
      have hbig := le_doubleUntil (r.len + additional) (r.len + additional) (2 ^ k)
        (Nat.two_pow_pos k) (by omega)
      rw [hjeq] at hbig ⊢
      have hslot : ∀ i < r.len, (0 + i) &&& (2 ^ j - 1) = i := fun i hi => by
        rw [Nat.zero_add, Nat.and_two_pow_sub_one_eq_mod, Nat.mod_eq_of_lt (by omega)]
      refine ⟨⟨Or.inr ⟨j, by omega, rfl⟩, fun hp => hp, by dsimp only; omega, ?_⟩, ?_,
        trivial, hbig.1⟩
      · intro i hi
        dsimp only [slot] at hi ⊢
        rw [hslot i hi, if_pos hi]
        exact h.filled i hi
      · rw [toList, toList]
        refine List.filterMap_congr fun i hi => ?_
        rw [List.mem_range] at hi
        dsimp only [slot] at hi ⊢
        rw [hslot i hi, if_pos hi]

/-- Appending to a ring with room keeps it well formed and appends to the list. -/
theorem pushAssumeCapacity_spec {r : Ready α} (h : r.WF) (hroom : r.len < r.cap) (item : α) :
    (r.pushAssumeCapacity item).WF ∧ (r.pushAssumeCapacity item).toList = r.toList ++ [item] := by
  have hother : ∀ i < r.len,
      Function.update r.items (r.slot r.len) (some item) (r.slot i) = r.items (r.slot i) :=
    fun i hi => Function.update_of_ne
      (fun heq => hi.ne (slot_injOn h (by omega) (by omega) heq)) _ _
  refine ⟨⟨h.cap_eq, h.head_lt, hroom, fun i hi => ?_⟩, ?_⟩
  · change (Function.update r.items (r.slot r.len) (some item) (r.slot i)).isSome
    rcases Nat.lt_succ_iff_lt_or_eq.mp hi with hlt | rfl
    · rw [hother i hlt]
      exact h.filled i hlt
    · simp
  · change (List.range (r.len + 1)).filterMap
        (fun i => Function.update r.items (r.slot r.len) (some item) (r.slot i)) = _
    rw [List.range_succ, List.filterMap_append, toList]
    congr 1
    · exact List.filterMap_congr fun i hi => hother i (List.mem_range.mp hi)
    · simp

/-- Popping keeps the ring well formed and takes the first handle off the list. -/
theorem pop_spec {r : Ready α} (h : r.WF) :
    r.pop.2.WF ∧ r.pop.1 = r.toList.head? ∧ r.pop.2.toList = r.toList.tail := by
  unfold pop
  split_ifs with hlen
  · have hnil := (toList_eq_nil_iff h).mpr hlen
    exact ⟨h, by simp [hnil], by simp [hnil]⟩
  · dsimp only
    have hc : 0 < r.cap := by
      have := h.len_le
      omega
    have hnext : ∀ i, (((r.head + 1) &&& (r.cap - 1)) + i) &&& (r.cap - 1) = r.slot (i + 1) := by
      intro i
      rcases h.cap_eq with h0 | ⟨k, -, hk⟩
      · omega
      · rw [slot, hk, Nat.and_two_pow_sub_one_eq_mod, Nat.and_two_pow_sub_one_eq_mod,
          Nat.and_two_pow_sub_one_eq_mod, Nat.mod_add_mod]
        congr 1
        omega
    have hhead : r.slot 0 = r.head := by
      rw [slot_eq_mod h 0 hc, Nat.add_zero, Nat.mod_eq_of_lt (h.head_lt hc)]
    obtain ⟨x, hx⟩ := Option.isSome_iff_exists.mp (h.filled 0 (by omega))
    rw [hhead] at hx
    have hlist : r.toList =
        x :: (List.range (r.len - 1)).filterMap fun i => r.items (r.slot (i + 1)) := by
      rw [toList, show r.len = r.len - 1 + 1 by omega, List.range_succ_eq_map,
        List.filterMap_cons, hhead, hx, List.filterMap_map]
      rfl
    refine ⟨⟨h.cap_eq, fun _ => ?_, ?_, fun i hi => ?_⟩, ?_, ?_⟩
    · have := slot_lt h 1 hc
      rwa [slot] at this
    · dsimp only
      have := h.len_le
      omega
    · change (r.items ((((r.head + 1) &&& (r.cap - 1)) + i) &&& (r.cap - 1))).isSome
      dsimp only at hi
      rw [hnext]
      exact h.filled (i + 1) (by omega)
    · rw [hlist, hx]
      rfl
    · rw [hlist]
      change (List.range (r.len - 1)).filterMap
        (fun i => r.items ((((r.head + 1) &&& (r.cap - 1)) + i) &&& (r.cap - 1))) = _
      simp only [hnext, List.tail_cons]

end Ready

/-! ## Queues -/

/-- A well-formed ring buffer. -/
structure Queue (α : Type) extends Ready α where
  /-- The ring is well formed. -/
  wf : toReady.WF

namespace Queue

/-- The empty queue. -/
def empty : Queue α := ⟨.empty, Ready.wf_empty⟩

/-- `Ready.ensureUnusedCapacity`. -/
def ensureUnusedCapacity (alloc : Bool) (self : Queue α) (additional : ℕ) : Option (Queue α) :=
  match h : self.toReady.ensureUnusedCapacity alloc additional with
  | none => none
  | some r => some ⟨r, by
      have := Ready.ensureUnusedCapacity_spec alloc self.wf additional
      rw [h] at this
      exact this.1⟩

/-- `Ready.pushAssumeCapacity`; `none` is the assertion of the source failing. -/
def pushAssumeCapacity (self : Queue α) (item : α) : Option (Queue α) :=
  if h : self.len < self.cap then
    some ⟨self.toReady.pushAssumeCapacity item, (Ready.pushAssumeCapacity_spec self.wf h item).1⟩
  else none

/-- `Ready.push`; `none` when it takes an allocation that fails. -/
def push (alloc : Bool) (self : Queue α) (item : α) : Option (Queue α) :=
  (self.ensureUnusedCapacity alloc 1).bind fun q => q.pushAssumeCapacity item

/-- `Ready.pop`. -/
def pop (self : Queue α) : Option α × Queue α :=
  (self.toReady.pop.1, ⟨self.toReady.pop.2, (Ready.pop_spec self.wf).1⟩)

@[simp]
theorem toList_empty : (empty : Queue α).toList = [] := rfl

theorem length_toList (self : Queue α) : self.toList.length = self.len :=
  Ready.length_toList self.wf

theorem len_eq_zero_iff (self : Queue α) : self.len = 0 ↔ self.toList = [] :=
  (Ready.toList_eq_nil_iff self.wf).symm

/-- Making room with an allocation that succeeds. -/
theorem ensureUnusedCapacity_true (self : Queue α) (additional : ℕ) :
    ∃ q : Queue α, self.ensureUnusedCapacity true additional = some q ∧
      q.toList = self.toList ∧ q.len = self.len ∧ self.len + additional ≤ q.cap := by
  have hspec := Ready.ensureUnusedCapacity_spec true self.wf additional
  unfold ensureUnusedCapacity
  split
  · rename_i hnone
    rw [hnone] at hspec
    cases hspec
  · rename_i r hsome
    rw [hsome] at hspec
    exact ⟨_, rfl, hspec.2⟩

/-- Appending to a queue with room. -/
theorem pushAssumeCapacity_of_lt {self : Queue α} (h : self.len < self.cap) (item : α) :
    ∃ q : Queue α, self.pushAssumeCapacity item = some q ∧
      q.toList = self.toList ++ [item] ∧ q.cap = self.cap ∧ q.len = self.len + 1 := by
  rw [pushAssumeCapacity, dif_pos h]
  exact ⟨_, rfl, (Ready.pushAssumeCapacity_spec self.wf h item).2, rfl, rfl⟩

/-- A push whose allocation succeeds appends to the list. -/
theorem push_true (self : Queue α) (item : α) :
    ∃ q : Queue α, self.push true item = some q ∧ q.toList = self.toList ++ [item] := by
  obtain ⟨q, hq, hlist, hlen, hcap⟩ := self.ensureUnusedCapacity_true 1
  obtain ⟨q', hq', hlist', -, -⟩ := pushAssumeCapacity_of_lt (by omega : q.len < q.cap) item
  exact ⟨q', by rw [push, hq, Option.bind_some, hq'], by rw [hlist', hlist]⟩

/-- Making room leaves the list alone. -/
theorem toList_of_ensureUnusedCapacity {alloc : Bool} {additional : ℕ} {self q : Queue α}
    (h : self.ensureUnusedCapacity alloc additional = some q) : q.toList = self.toList := by
  have hspec := Ready.ensureUnusedCapacity_spec alloc self.wf additional
  unfold ensureUnusedCapacity at h
  split at h
  · cases h
  · rename_i r hsome
    rw [hsome] at hspec
    cases h
    exact hspec.2.1

/-- Appending that goes through appends to the list. -/
theorem toList_of_pushAssumeCapacity {item : α} {self q : Queue α}
    (h : self.pushAssumeCapacity item = some q) : q.toList = self.toList ++ [item] := by
  unfold pushAssumeCapacity at h
  split at h
  · rename_i hroom
    cases h
    exact (Ready.pushAssumeCapacity_spec self.wf hroom item).2
  · cases h

/-- A push that goes through appends to the list. -/
theorem toList_of_push {alloc : Bool} {item : α} {self q : Queue α}
    (h : self.push alloc item = some q) : q.toList = self.toList ++ [item] := by
  obtain ⟨r, hr, hq⟩ := Option.bind_eq_some_iff.mp h
  rw [toList_of_pushAssumeCapacity hq, toList_of_ensureUnusedCapacity hr]

@[simp]
theorem pop_fst (self : Queue α) : self.pop.1 = self.toList.head? := (Ready.pop_spec self.wf).2.1

@[simp]
theorem toList_pop (self : Queue α) : self.pop.2.toList = self.toList.tail :=
  (Ready.pop_spec self.wf).2.2

end Queue

end Zuvloop
