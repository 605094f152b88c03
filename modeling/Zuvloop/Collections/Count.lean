import Mathlib.Data.List.GetD
import Mathlib.Data.List.Count
import Mathlib.Data.Nat.Notation

/-!
# Lists that are changed in one place

A list as a table: its entries are read with a default and changed one at a time. What such a change
does to an entry, and to the number of entries with a property.

## Main results

* `getD_modify`: what is read after a change.
* `countP_modify`: how many entries have a property after a change.
-/

namespace Table

variable {α : Type*} {l : List α} {i j : ℕ} {f : α → α} {d : α}

/-- Beyond the end there is only the default. -/
theorem getD_of_length_le (h : l.length ≤ i) : l.getD i d = d := List.getD_eq_default _ _ h

/-- An entry that differs from the default is in the list. -/
theorem lt_of_getD_ne (h : l.getD i d ≠ d) : i < l.length := by
  by_contra hlt
  exact h (getD_of_length_le (Nat.le_of_not_lt hlt))

/-- A change changes its own entry and no other. -/
theorem getD_modify (hi : i < l.length) :
    (l.modify i f).getD j d = if i = j then f (l.getD j d) else l.getD j d := by
  simp only [List.getD_eq_getElem?_getD, List.getElem?_modify]
  split
  · rename_i heq
    subst heq
    rw [List.getElem?_eq_getElem hi]
    rfl
  · simp

theorem getD_modify_self (hi : i < l.length) : (l.modify i f).getD i d = f (l.getD i d) := by
  rw [getD_modify hi, if_pos rfl]

theorem getD_modify_ne (h : i ≠ j) : (l.modify i f).getD j d = l.getD j d := by
  simp only [List.getD_eq_getElem?_getD, List.getElem?_modify, if_neg h]
  simp

/-- A new entry at the end. -/
theorem getD_concat_self (a : α) : (l ++ [a]).getD l.length d = a := by
  rw [List.getD_append_right _ _ _ _ (Nat.le_refl _), Nat.sub_self]
  rfl

/-- A new entry leaves the others alone. -/
theorem getD_concat_ne (a : α) (h : j ≠ l.length) : (l ++ [a]).getD j d = l.getD j d := by
  by_cases hlt : j < l.length
  · exact List.getD_append _ _ _ _ hlt
  · have hle : l.length + 1 ≤ j := by omega
    rw [getD_of_length_le (by simpa using hle), getD_of_length_le (by omega)]

/-- Counting after a change of one element. -/
theorem countP_modify (p : α → Bool) (f : α → α) (hi : i < l.length) :
    (l.modify i f).countP p + (p (l.getD i d)).toNat =
      l.countP p + (p (f (l.getD i d))).toNat := by
  induction l generalizing i with
  | nil => cases hi
  | cons a l ih =>
    cases i with
    | zero =>
      simp only [List.modify_zero_cons, List.countP_cons, List.getD_cons_zero]
      cases p a <;> cases p (f a) <;> simp
    | succ i =>
      have hlt : i < l.length := Nat.lt_of_succ_lt_succ hi
      simp only [List.modify_succ_cons, List.countP_cons, List.getD_cons_succ]
      have := ih hlt
      omega

/-- A change that is not counted. -/
theorem countP_modify_of_eq (p : α → Bool) (h : p (f (l.getD i d)) = p (l.getD i d)) :
    (l.modify i f).countP p = l.countP p := by
  by_cases hi : i < l.length
  · have := countP_modify (d := d) p f hi
    rw [h] at this
    omega
  · rw [List.modify_eq_self (by omega)]

/-- What is in the list after a change was there before, or has been changed. -/
theorem mem_modify {x : α} (h : x ∈ l.modify i f) : x ∈ l ∨ ∃ y ∈ l, f y = x := by
  obtain ⟨j, hj⟩ := List.mem_iff_getElem?.mp h
  rw [List.getElem?_modify] at hj
  obtain ⟨y, hy, heq⟩ := Option.map_eq_some_iff.mp hj
  have hmem := List.mem_of_getElem? hy
  split at heq
  · exact Or.inr ⟨y, hmem, heq⟩
  · exact Or.inl (heq ▸ hmem)

/-- An entry with the property is there to be counted. -/
theorem countP_pos (p : α → Bool) (hi : i < l.length) (h : p (l.getD i d) = true) :
    0 < l.countP p := by
  rw [List.getD_eq_getElem _ _ hi] at h
  exact List.countP_pos_iff.mpr ⟨l[i], List.getElem_mem hi, h⟩

end Table
