import Mathlib.Data.Int.Notation
import Mathlib.Data.List.Basic
import Mathlib.Tactic.Common

/-!
# Numerals

Two readings of a numeral in base ten. `parseInt` is `std.fmt.parseInt` of an unsigned type, which
allows underscores between the digits; `numeric` allows an optional sign and digits, and nothing
else. Both take bytes.

## Main definitions

* `parseInt`: the number up to `max` that bytes spell, with underscores ignored;
* `numeric`: the integer that bytes spell.

## Main results

* `numeric_of_parseInt`: without an underscore the two agree;
* `numeric_underscore`: with one there is no second reading.
-/

namespace Text

/-- `_` -/
def underscore : UInt8 := 0x5F

/-- `+` -/
def plus : UInt8 := 0x2B

/-- `-` -/
def minus : UInt8 := 0x2D

/-- The value of a digit. -/
def charToDigit (c : UInt8) : Option ℕ :=
  if 0x30 ≤ c.toNat ∧ c.toNat ≤ 0x39 then some (c.toNat - 0x30) else none

/-! ## `std.fmt.parseInt` -/

/-- The sign of a numeral. -/
inductive Sign
  | pos
  | neg
  deriving DecidableEq

/-- `math.add` and `math.sub` of the accumulator and a digit. -/
def Sign.add (max : ℕ) : Sign → ℕ → ℕ → Option ℕ
  | pos, acc, digit => if acc + digit ≤ max then some (acc + digit) else none
  | neg, acc, digit => if digit ≤ acc then some (acc - digit) else none

/-- The loop of `parseIntWithSign`. -/
def accumulate (max : ℕ) (sign : Sign) : ℕ → List UInt8 → Option ℕ
  | acc, [] => some acc
  | acc, c :: cs =>
    if c = underscore then accumulate max sign acc cs
    else do
      let digit ← charToDigit c
      if acc ≠ 0 then
        if max < acc * 10 then none
        else accumulate max sign (← sign.add max (acc * 10) digit) cs
      else if sign = .neg then
        -- the first digit of a negative number, which an unsigned type has no room for
        if digit = 0 then accumulate max sign 0 cs else none
      else accumulate max sign (← sign.add max acc digit) cs

/-- `parseIntWithSign` -/
def parseIntWithSign (max : ℕ) (sign : Sign) (buf : List UInt8) : Option ℕ :=
  if buf = [] then none
  else if buf.head? = some underscore ∨ buf.getLast? = some underscore then none
  else accumulate max sign 0 buf

/-- `std.fmt.parseInt`, in base ten and of an unsigned type with this largest value. -/
def parseInt (max : ℕ) : List UInt8 → Option ℕ
  | [] => none
  | c :: cs =>
    if c = plus then parseIntWithSign max .pos cs
    else if c = minus then parseIntWithSign max .neg cs
    else parseIntWithSign max .pos (c :: cs)

/-! ## Digits only -/

/-- The number that digits spell behind what they are preceded by. -/
def digitsFrom : ℕ → List UInt8 → Option ℕ
  | acc, [] => some acc
  | acc, c :: cs => do digitsFrom (acc * 10 + (← charToDigit c)) cs

/-- The number that a nonempty run of digits spells. -/
def decimal (digits : List UInt8) : Option ℕ := if digits = [] then none else digitsFrom 0 digits

/-- The integer that an optionally signed run of digits spells. -/
def numeric : List UInt8 → Option ℤ
  | [] => none
  | c :: cs =>
    if c = plus then (decimal cs).map fun n => (n : ℤ)
    else if c = minus then (decimal cs).map fun n => -(n : ℤ)
    else (decimal (c :: cs)).map fun n => (n : ℤ)

variable {max acc n : ℕ} {sign : Sign} {buf cs : List UInt8}

@[simp]
theorem charToDigit_underscore : charToDigit underscore = none := by decide

/-- An underscore is no digit. -/
theorem digitsFrom_underscore (h : underscore ∈ cs) : digitsFrom acc cs = none := by
  induction cs generalizing acc with
  | nil => cases h
  | cons c cs ih =>
    rw [digitsFrom]
    rcases List.mem_cons.mp h with rfl | h
    · rfl
    · cases charToDigit c with
      | none => rfl
      | some digit => exact ih h

theorem decimal_underscore (h : underscore ∈ cs) : decimal cs = none := by
  rw [decimal, if_neg (List.ne_nil_of_mem h), digitsFrom_underscore h]

/-- A numeral with an underscore spells no integer. -/
theorem numeric_underscore (h : underscore ∈ buf) : numeric buf = none := by
  cases buf with
  | nil => rfl
  | cons c cs =>
    rw [numeric]
    split
    · rename_i hplus
      rw [decimal_underscore (List.mem_of_ne_of_mem (by rw [hplus]; decide) h)]
      rfl
    split
    · rename_i hminus
      rw [decimal_underscore (List.mem_of_ne_of_mem (by rw [hminus]; decide) h)]
      rfl
    · rw [decimal_underscore h]
      rfl

/-! ## Agreement -/

/-- With a positive sign the loop accumulates what the digits spell. -/
theorem digitsFrom_of_accumulate (hno : underscore ∉ cs)
    (h : accumulate max .pos acc cs = some n) : digitsFrom acc cs = some n := by
  induction cs generalizing acc with
  | nil => exact h
  | cons c cs ih =>
    rw [List.mem_cons, not_or] at hno
    rw [accumulate, if_neg (Ne.symm hno.1)] at h
    rw [digitsFrom]
    cases hdigit : charToDigit c with
    | none => simp [hdigit] at h
    | some digit =>
      simp only [hdigit, Option.bind_eq_bind, Option.bind_some] at h ⊢
      split at h
      · split at h
        · cases h
        · obtain ⟨acc', hadd, hrest⟩ := Option.bind_eq_some_iff.mp h
          rw [Sign.add] at hadd
          obtain ⟨-, hacc⟩ := Option.ite_none_right_eq_some.mp hadd
          cases hacc
          exact ih hno.2 hrest
      · rename_i hzero
        rw [if_neg (by simp)] at h
        obtain ⟨acc', hadd, hrest⟩ := Option.bind_eq_some_iff.mp h
        rw [Sign.add] at hadd
        obtain ⟨-, hacc⟩ := Option.ite_none_right_eq_some.mp hadd
        cases hacc
        have hacc₀ : acc = 0 := by simpa using hzero
        rw [hacc₀, Nat.zero_mul]
        rw [hacc₀] at hrest
        exact ih hno.2 hrest

/-- With a negative sign every digit is zero. -/
theorem digitsFrom_of_accumulate_neg (hno : underscore ∉ cs)
    (h : accumulate max .neg 0 cs = some n) : n = 0 ∧ digitsFrom 0 cs = some 0 := by
  induction cs with
  | nil => exact ⟨(Option.some.inj h).symm, rfl⟩
  | cons c cs ih =>
    rw [List.mem_cons, not_or] at hno
    rw [accumulate, if_neg (Ne.symm hno.1)] at h
    rw [digitsFrom]
    cases hdigit : charToDigit c with
    | none => simp [hdigit] at h
    | some digit =>
      simp only [hdigit, Option.bind_eq_bind, Option.bind_some] at h ⊢
      rw [if_neg (by simp), if_pos trivial] at h
      obtain ⟨hzero, hrest⟩ := Option.ite_none_right_eq_some.mp h
      rw [hzero]
      exact ih hno.2 hrest

theorem accumulate_of_parseIntWithSign (h : parseIntWithSign max sign buf = some n) :
    buf ≠ [] ∧ accumulate max sign 0 buf = some n := by
  rw [parseIntWithSign] at h
  obtain ⟨hne, h⟩ := Option.ite_none_left_eq_some.mp h
  exact ⟨hne, (Option.ite_none_left_eq_some.mp h).2⟩

/-- Without an underscore the two readings agree. -/
theorem numeric_of_parseInt (hno : underscore ∉ buf) (h : parseInt max buf = some n) :
    numeric buf = some (n : ℤ) := by
  have hpos : ∀ cs, underscore ∉ cs → parseIntWithSign max .pos cs = some n →
      decimal cs = some n := by
    intro cs hno h
    obtain ⟨hne, hacc⟩ := accumulate_of_parseIntWithSign h
    rw [decimal, if_neg hne]
    exact digitsFrom_of_accumulate hno hacc
  cases buf with
  | nil => cases h
  | cons c cs =>
    have hno' : underscore ∉ cs := fun hmem => hno (List.mem_cons_of_mem _ hmem)
    rw [parseInt] at h
    rw [numeric]
    split at h
    · rename_i hplus
      rw [if_pos hplus, hpos cs hno' h]
      rfl
    split at h
    · rename_i hplus hminus
      obtain ⟨hne, hacc⟩ := accumulate_of_parseIntWithSign h
      obtain ⟨rfl, hdigits⟩ := digitsFrom_of_accumulate_neg hno' hacc
      rw [if_neg hplus, if_pos hminus, decimal, if_neg hne, hdigits]
      rfl
    · rename_i hplus hminus
      rw [if_neg hplus, if_neg hminus, hpos _ hno h]
      rfl

/-- What is read is at most the largest value. -/
theorem accumulate_le (hacc : acc ≤ max) (h : accumulate max sign acc buf = some n) : n ≤ max := by
  induction buf generalizing acc with
  | nil => exact Option.some.inj h ▸ hacc
  | cons c cs ih =>
    rw [accumulate] at h
    split at h
    · exact ih hacc h
    cases hdigit : charToDigit c with
    | none => simp [hdigit] at h
    | some digit =>
      simp only [hdigit, Option.bind_eq_bind, Option.bind_some] at h
      have hadd : ∀ a a', a ≤ max → sign.add max a digit = some a' → a' ≤ max := by
        intro a a' ha hadd
        cases sign with
        | pos =>
          obtain ⟨hle, heq⟩ := Option.ite_none_right_eq_some.mp hadd
          exact Option.some.inj heq ▸ hle
        | neg =>
          obtain ⟨-, heq⟩ := Option.ite_none_right_eq_some.mp hadd
          exact Option.some.inj heq ▸ Nat.le_trans (Nat.sub_le _ _) ha
      split at h
      · split at h
        · cases h
        · rename_i hmul
          obtain ⟨a', ha', hrest⟩ := Option.bind_eq_some_iff.mp h
          exact ih (hadd _ _ (Nat.le_of_not_lt hmul) ha') hrest
      · split at h
        · exact ih (Nat.zero_le _) (Option.ite_none_right_eq_some.mp h).2
        · obtain ⟨a', ha', hrest⟩ := Option.bind_eq_some_iff.mp h
          exact ih (hadd _ _ hacc ha') hrest

theorem parseInt_le (h : parseInt max buf = some n) : n ≤ max := by
  have hsigned : ∀ sign cs, parseIntWithSign max sign cs = some n → n ≤ max := fun sign cs h =>
    accumulate_le (Nat.zero_le _) (accumulate_of_parseIntWithSign h).2
  cases buf with
  | nil => cases h
  | cons c cs =>
    rw [parseInt] at h
    split at h
    · exact hsigned _ _ h
    split at h
    · exact hsigned _ _ h
    · exact hsigned _ _ h

end Text
