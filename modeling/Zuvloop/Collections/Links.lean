import Mathlib.Data.List.Nodup
import Mathlib.Logic.Function.Basic

/-!
# Lists linked through their elements

Elements that carry the links of the list they are on. A path follows one link from element to
element; a singly linked list is a path that ends nowhere, and a doubly linked list is a path
together with the way back.

## Main definitions

* `Linked.Path`: the elements between two places along a link.
* `Linked.Links`: the head of a doubly linked list and the links of its elements.
* `Linked.Links.push`, `Linked.Links.unlink`: put an element in front, and take one out.
* `Linked.Links.IsList`: the elements of the list, in order.

## Main results

* `Linked.Path.nodup`, `Linked.Path.unique`: a path that ends goes through every element once, and
  is determined by where it starts.
* `Linked.Links.IsList.push`, `Linked.Links.IsList.unlink`: what the operations do to the list.
-/

namespace Linked

variable {α : Type*}

/-! ## Paths -/

/-- `Path next p l q`: following `next` from `p`, one goes through `l` and comes to `q`. -/
def Path (next : α → Option α) : Option α → List α → Option α → Prop
  | p, [], q => p = q
  | p, a :: l, q => p = some a ∧ Path next (next a) l q

namespace Path

variable {next next' : α → Option α} {p q q' : Option α} {l l' l₁ l₂ : List α} {a b : α}

@[simp]
theorem nil_iff : Path next p [] q ↔ p = q := Iff.rfl

@[simp]
theorem cons_iff : Path next p (a :: l) q ↔ p = some a ∧ Path next (next a) l q := Iff.rfl

/-- A path to somewhere starts at its first element. -/
theorem head_eq (h : Path next p l none) : p = l.head? := by
  cases l with
  | nil => exact h
  | cons a l => exact h.1

/-- Paths one after another. -/
theorem append_iff : Path next p (l₁ ++ l₂) q ↔ ∃ m, Path next p l₁ m ∧ Path next m l₂ q := by
  induction l₁ generalizing p with
  | nil => simp
  | cons a l₁ ih => simp [ih, and_assoc]

/-- The last step of a path. -/
theorem concat_iff : Path next p (l ++ [a]) q ↔ Path next p l (some a) ∧ next a = q := by
  rw [append_iff]
  constructor
  · rintro ⟨m, hl, rfl, hq⟩
    exact ⟨hl, hq⟩
  · rintro ⟨hl, hq⟩
    exact ⟨some a, hl, rfl, hq⟩

/-- The middle of a path. -/
theorem middle_iff :
    Path next p (l₁ ++ a :: l₂) q ↔ Path next p l₁ (some a) ∧ Path next (next a) l₂ q := by
  rw [append_iff]
  constructor
  · rintro ⟨m, hl, rfl, hq⟩
    exact ⟨hl, hq⟩
  · rintro ⟨hl, hq⟩
    exact ⟨some a, hl, rfl, hq⟩

/-- A path only depends on the links of its elements. -/
theorem congr (h : Path next p l q) (hnext : ∀ a ∈ l, next' a = next a) : Path next' p l q := by
  induction l generalizing p with
  | nil => exact h
  | cons a l ih =>
    refine ⟨h.1, ?_⟩
    rw [hnext a List.mem_cons_self]
    exact ih h.2 fun b hb => hnext b (List.mem_cons_of_mem a hb)

/-- A path that ends is determined by where it starts. -/
theorem unique (h : Path next p l none) (h' : Path next p l' none) : l = l' := by
  induction l generalizing p l' with
  | nil =>
    obtain rfl := nil_iff.mp h
    cases l' with
    | nil => rfl
    | cons a l' => exact absurd h'.1 (by simp)
  | cons a l ih =>
    obtain ⟨rfl, h⟩ := h
    cases l' with
    | nil => exact absurd h' (by simp)
    | cons b l' =>
      obtain ⟨hb, h'⟩ := h'
      obtain rfl := Option.some.inj hb
      rw [ih h h']

/-- A path that ends does not come back. -/
theorem nodup (h : Path next p l none) : l.Nodup := by
  induction l generalizing p with
  | nil => exact List.nodup_nil
  | cons a l ih =>
    refine List.nodup_cons.mpr ⟨fun ha => ?_, ih h.2⟩
    -- from its second visit on, the path would be the one from the first visit on
    obtain ⟨l₁, l₂, rfl⟩ := List.mem_iff_append.mp ha
    have hrest := (middle_iff.mp h.2).2
    have hlen := congrArg List.length (unique h.2 hrest)
    simp only [List.length_append, List.length_cons] at hlen
    omega

section Update

variable [DecidableEq α]

/-- The links of other elements do not matter. -/
theorem update_of_notMem (h : Path next p l q) (ha : a ∉ l) :
    Path (Function.update next a q') p l q :=
  h.congr fun _ hb => Function.update_of_ne (ne_of_mem_of_not_mem hb ha) _ _

/-- A path whose last element is made to lead elsewhere. -/
theorem redirect (h : Path next p (l ++ [a]) q) (ha : a ∉ l) :
    Path (Function.update next a q') p (l ++ [a]) q' :=
  concat_iff.mpr ⟨(concat_iff.mp h).1.update_of_notMem ha, Function.update_self ..⟩

end Update

end Path

/-! ## Doubly linked lists -/

/-- The links of elements, and the head of the list. -/
structure Links (α : Type*) where
  /-- The first element. -/
  head : Option α
  /-- The element after. -/
  next : α → Option α
  /-- The element before. -/
  prev : α → Option α

namespace Links

variable [DecidableEq α]

/-- Put a fresh element in front. -/
def push (L : Links α) (a : α) : Links α where
  head := some a
  next := Function.update L.next a L.head
  prev :=
    match L.head with
    | some b => Function.update (Function.update L.prev a none) b (some a)
    | none => Function.update L.prev a none

/-- Take an element out. -/
def unlink (L : Links α) (a : α) : Links α where
  head :=
    match L.prev a with
    | some _ => L.head
    | none => L.next a
  next :=
    match L.prev a with
    | some b => Function.update L.next b (L.next a)
    | none => L.next
  prev :=
    match L.next a with
    | some b => Function.update L.prev b (L.prev a)
    | none => L.prev

/-- The elements of the list: the way there, and the way back. -/
structure IsList (L : Links α) (l : List α) : Prop where
  forth : Path L.next L.head l none
  back : Path L.prev l.getLast? l.reverse none

namespace IsList

variable {L : Links α} {l l' : List α} {a b : α}

omit [DecidableEq α] in
theorem nodup (h : L.IsList l) : l.Nodup := h.forth.nodup

omit [DecidableEq α] in
theorem head_eq (h : L.IsList l) : L.head = l.head? := h.forth.head_eq

omit [DecidableEq α] in
theorem nil (h : L.head = none) : L.IsList [] := ⟨h, rfl⟩

omit [DecidableEq α] in
/-- The links of an element in the middle. -/
theorem next_eq {l₁ l₂ : List α} (h : L.IsList (l₁ ++ a :: l₂)) : L.next a = l₂.head? :=
  (Path.middle_iff.mp h.forth).2.head_eq

omit [DecidableEq α] in
theorem prev_eq {l₁ l₂ : List α} (h : L.IsList (l₁ ++ a :: l₂)) : L.prev a = l₁.getLast? := by
  have hback := h.back
  rw [List.reverse_append, List.reverse_cons, List.append_assoc, List.singleton_append,
    Path.middle_iff] at hback
  rw [hback.2.head_eq, List.head?_reverse]

omit [DecidableEq α] in
/-- The links of an element lead to elements of the list. -/
theorem next_mem (h : L.IsList l) (ha : a ∈ l) (hb : L.next a = some b) : b ∈ l := by
  obtain ⟨l₁, l₂, rfl⟩ := List.mem_iff_append.mp ha
  have hmem := List.mem_of_mem_head? (h.next_eq.symm.trans hb)
  exact List.mem_append_right _ (List.mem_cons_of_mem a hmem)

omit [DecidableEq α] in
theorem prev_mem (h : L.IsList l) (ha : a ∈ l) (hb : L.prev a = some b) : b ∈ l := by
  obtain ⟨l₁, l₂, rfl⟩ := List.mem_iff_append.mp ha
  have hmem := List.mem_of_getLast? (h.prev_eq.symm.trans hb)
  exact List.mem_append_left _ hmem

/-- A fresh element comes first. -/
theorem push (h : L.IsList l) (ha : a ∉ l) : (L.push a).IsList (a :: l) := by
  have hforth : Path (Function.update L.next a L.head) (some a) (a :: l) none := by
    refine ⟨rfl, ?_⟩
    rw [Function.update_self]
    exact h.forth.update_of_notMem ha
  refine ⟨hforth, ?_⟩
  cases l with
  | nil =>
    have hhead : L.head = none := h.head_eq
    simp [Links.push, hhead]
  | cons b l =>
    have hhead : L.head = some b := h.head_eq
    have hba : a ≠ b := fun hab => ha (hab ▸ List.mem_cons_self)
    have hb : b ∉ l.reverse := fun hmem =>
      (List.nodup_cons.mp h.nodup).1 (List.mem_reverse.mp hmem)
    -- the way back ends at `b`, and is made to go on to `a`
    have hback : Path (Function.update L.prev a none) (b :: l).getLast? (b :: l).reverse none :=
      h.back.update_of_notMem fun hmem => ha (List.mem_reverse.mp hmem)
    rw [List.reverse_cons] at hback
    have hback : Path (Function.update (Function.update L.prev a none) b (some a))
        (b :: l).getLast? (l.reverse ++ [b]) (some a) := hback.redirect hb
    simp only [Links.push, hhead, List.getLast?_cons_cons, List.reverse_cons]
    refine Path.concat_iff.mpr ⟨hback, ?_⟩
    rw [Function.update_of_ne hba, Function.update_self]

omit [DecidableEq α] in
/-- The elements around one are not the same. -/
theorem disjoint {l₁ l₂ : List α} (h : L.IsList (l₁ ++ a :: l₂)) :
    l₁.Nodup ∧ l₂.Nodup ∧ ∀ b, b ∈ l₁ → b ∉ l₂ := by
  obtain ⟨h₁, h₂, hdis⟩ := List.nodup_append.mp h.nodup
  refine ⟨h₁, (List.nodup_cons.mp h₂).2, fun b hb hb' => ?_⟩
  exact hdis b hb b (List.mem_cons_of_mem a hb') rfl

/-- The way there, around an element that is taken out. -/
theorem forth_unlink {l₁ l₂ : List α} (h : L.IsList (l₁ ++ a :: l₂)) :
    Path (L.unlink a).next (L.unlink a).head (l₁ ++ l₂) none := by
  obtain ⟨hnodup₁, -, hdis⟩ := h.disjoint
  obtain ⟨hto, hfrom⟩ := Path.middle_iff.mp h.forth
  have hprev := h.prev_eq
  rcases List.eq_nil_or_concat l₁ with rfl | ⟨l₁, b, rfl⟩
  · simpa [Links.unlink, hprev] using hfrom
  · rw [List.concat_eq_append] at *
    rw [List.getLast?_concat] at hprev
    simp only [Links.unlink, hprev]
    have hb : b ∉ l₁ := by
      have hnot := List.disjoint_of_nodup_append hnodup₁
      exact fun hmem => hnot hmem List.mem_cons_self
    refine Path.append_iff.mpr ⟨L.next a, hto.redirect hb, ?_⟩
    exact hfrom.update_of_notMem (hdis b (by simp))

/-- The way back, around an element that is taken out. -/
theorem back_unlink {l₁ l₂ : List α} (h : L.IsList (l₁ ++ a :: l₂)) :
    Path (L.unlink a).prev (l₁ ++ l₂).getLast? (l₁ ++ l₂).reverse none := by
  obtain ⟨-, hnodup₂, hdis⟩ := h.disjoint
  have hback := h.back
  rw [List.reverse_append, List.reverse_cons, List.append_assoc, List.singleton_append,
    Path.middle_iff] at hback
  obtain ⟨hto, hfrom⟩ := hback
  have hnext := h.next_eq
  cases l₂ with
  | nil =>
    have hlast : L.prev a = l₁.getLast? := h.prev_eq
    rw [hlast] at hfrom
    simpa [Links.unlink, hnext] using hfrom
  | cons b l₂ =>
    have hnext' : L.next a = some b := hnext
    have hb : b ∉ l₂.reverse := fun hmem =>
      (List.nodup_cons.mp hnodup₂).1 (List.mem_reverse.mp hmem)
    have hb₁ : b ∉ l₁.reverse := fun hmem =>
      hdis b (List.mem_reverse.mp hmem) List.mem_cons_self
    have hlast : (l₁ ++ b :: l₂).getLast? = (l₁ ++ a :: b :: l₂).getLast? := by
      simp [List.getLast?_append]
    simp only [Links.unlink, hnext', List.reverse_append]
    rw [hlast]
    rw [List.reverse_cons] at hto ⊢
    exact Path.append_iff.mpr ⟨L.prev a, hto.redirect hb, hfrom.update_of_notMem hb₁⟩

/-- The list without an element that is taken out. -/
theorem unlink (h : L.IsList l) (ha : a ∈ l) : (L.unlink a).IsList (l.erase a) := by
  obtain ⟨l₁, l₂, hnot, rfl, herase⟩ := List.exists_erase_eq ha
  rw [herase]
  exact ⟨h.forth_unlink, h.back_unlink⟩

end IsList

end Links

end Linked
