import Mathlib.Algebra.Order.Group.Nat
import Mathlib.Data.Int.Notation
import Mathlib.Data.List.Basic
import Mathlib.Tactic.Common

/-!
# Digits as C prints and finds them

`%u` and `%x` of `snprintf`, and `strchr` in a table of digits, over bytes.

## Main definitions

* `printed`: the numeral of a number in a base;
* `strchr`: where a byte stands in a table;
* `digits`, `xdigitsL`, `xdigitsU`, `xdigit`: the tables, and a hexadecimal digit of either case;
* `hexFrom`: the number that hexadecimal digits spell.

## Main results

* `printed_append`: one digit more;
* `printed_of_strchr`: what a digit was found for is printed as that digit;
* `hexFrom_printed`: a number printed in base sixteen is read as itself.
-/

namespace Text

/-! ## Printing -/

/-- An ASCII character as a byte. -/
def byteOf (c : Char) : UInt8 := UInt8.ofNat c.toNat

/-- The numeral of a number in a base of at most sixteen. -/
def printed (base n : ℕ) : List UInt8 := (Nat.toDigits base n).map byteOf

variable {base n d k : ℕ} {c : UInt8}

theorem printed_of_lt (h : n < base) : printed base n = [byteOf n.digitChar] := by
  rw [printed, Nat.toDigits_of_lt_base h]
  rfl

/-- A numeral that does not begin with a zero goes on with any digit. -/
theorem printed_append (hbase : 1 < base) (hn : 0 < n) (hd : d < base) :
    printed base (base * n + d) = printed base n ++ printed base d := by
  rw [printed, ← Nat.toDigits_append_toDigits hbase hn hd, List.map_append]
  rfl

/-- All digits but the last, and the last. -/
theorem printed_of_le (hbase : 1 < base) (h : base ≤ n) :
    printed base n = printed base (n / base) ++ printed base (n % base) := by
  have hdiv : 0 < n / base := Nat.div_pos h (by omega)
  rw [← printed_append hbase hdiv (Nat.mod_lt n (by omega)), Nat.div_add_mod]

theorem printed_ne_nil (base n : ℕ) : printed base n ≠ [] := by
  simp [printed]

theorem length_printed_le (hbase : 1 < base) (hk : 0 < k) (h : n < base ^ k) :
    (printed base n).length ≤ k := by
  rw [printed, List.length_map]
  exact (Nat.length_toDigits_le_iff hbase hk).mpr h

/-! ## Finding digits -/

/-- `strchr`, with the position in the table in place of a pointer. -/
def strchr (table : String) (c : UInt8) : Option ℕ := (table.toList.map byteOf).idxOf? c

/-- `digits` -/
def digits : String := "0123456789"

/-- `xdigits_l` -/
def xdigitsL : String := "0123456789abcdef"

/-- `xdigits_u` -/
def xdigitsU : String := "0123456789ABCDEF"

/-- The value of a hexadecimal digit, which is sought among the small digits first. -/
def xdigit (c : UInt8) : Option ℕ := (strchr xdigitsL c).or (strchr xdigitsU c)

/-- What is found stands where it is said to be. -/
theorem getElem?_of_strchr {table : String} (h : strchr table c = some d) :
    (table.toList.map byteOf)[d]? = some c := by
  obtain ⟨hd, hget, -⟩ := List.idxOf?_eq_some_iff.mp h
  rw [List.getElem?_eq_getElem hd, hget]

theorem lt_of_strchr (h : strchr digits c = some d) : d < 10 := by
  obtain ⟨hd, -⟩ := List.idxOf?_eq_some_iff.mp h
  exact hd

/-- A decimal digit is printed as itself. -/
theorem printed_of_strchr (h : strchr digits c = some d) : printed 10 d = [c] := by
  have htable : ∀ d < 10, (digits.toList.map byteOf)[d]? = (printed 10 d).head? := by decide
  have hd := lt_of_strchr h
  have hget := getElem?_of_strchr h
  rw [htable d hd, printed_of_lt hd] at hget
  rw [printed_of_lt hd]
  exact congrArg (fun c => [c]) (Option.some.inj hget)

theorem strchr_digitChar (hd : d < 10) : strchr digits (byteOf d.digitChar) = some d := by
  have htable : ∀ d < 10, strchr digits (byteOf d.digitChar) = some d := by decide
  exact htable d hd

theorem xdigit_digitChar (hd : d < 16) : xdigit (byteOf d.digitChar) = some d := by
  have htable : ∀ d < 16, xdigit (byteOf d.digitChar) = some d := by decide
  exact htable d hd

/-! ## Values of hexadecimal numerals -/

/-- The number that hexadecimal digits spell behind what they are preceded by. -/
def hexFrom : ℕ → List UInt8 → Option ℕ
  | acc, [] => some acc
  | acc, c :: cs => do hexFrom (acc * 16 + (← xdigit c)) cs

theorem hexFrom_append (acc : ℕ) (cs : List UInt8) (c : UInt8) :
    hexFrom acc (cs ++ [c]) =
      (hexFrom acc cs).bind fun v => (xdigit c).map fun d => v * 16 + d := by
  induction cs generalizing acc with
  | nil =>
    cases hc : xdigit c with
    | none => simp [hexFrom, hc]
    | some d => simp [hexFrom, hc]
  | cons c' cs ih =>
    cases hc' : xdigit c' with
    | none => simp [hexFrom, hc']
    | some d => simp [hexFrom, hc', ih]

/-- Only digits spell a number. -/
theorem exists_of_hexFrom {acc : ℕ} {cs : List UInt8} (h : hexFrom acc cs = some n)
    (hc : c ∈ cs) : ∃ d, xdigit c = some d := by
  induction cs generalizing acc with
  | nil => cases hc
  | cons c' cs ih =>
    obtain ⟨d, hd, hrest⟩ := Option.bind_eq_some_iff.mp h
    rcases List.mem_cons.mp hc with rfl | hc
    · exact ⟨d, hd⟩
    · exact ih hrest hc

/-- Digits spell a number. -/
theorem exists_hexFrom (acc : ℕ) {cs : List UInt8} (h : ∀ c ∈ cs, ∃ d, xdigit c = some d) :
    ∃ n, hexFrom acc cs = some n := by
  induction cs generalizing acc with
  | nil => exact ⟨acc, rfl⟩
  | cons c cs ih =>
    obtain ⟨d, hd⟩ := h c List.mem_cons_self
    obtain ⟨n, hn⟩ := ih (acc * 16 + d) fun c hc => h c (List.mem_cons_of_mem _ hc)
    exact ⟨n, by rw [hexFrom, hd]; exact hn⟩

/-- A decimal digit is a hexadecimal one. -/
theorem exists_xdigit_of_mem_printed (hc : c ∈ printed 10 n) : ∃ d, xdigit c = some d := by
  induction n using Nat.strongRecOn with
  | ind n ih =>
    by_cases hn : n < 10
    · rw [printed_of_lt hn] at hc
      obtain rfl := List.mem_singleton.mp hc
      exact ⟨n, xdigit_digitChar (by omega)⟩
    · have hmod : n % 10 < 10 := Nat.mod_lt n (by decide)
      rw [printed_of_le (by decide) (by omega), printed_of_lt hmod] at hc
      rcases List.mem_append.mp hc with hc | hc
      · exact ih (n / 10) (by omega) hc
      · obtain rfl := List.mem_singleton.mp hc
        exact ⟨n % 10, xdigit_digitChar (by omega)⟩

/-- A printed number is read as itself. -/
theorem hexFrom_printed (n : ℕ) : hexFrom 0 (printed 16 n) = some n := by
  induction n using Nat.strongRecOn with
  | ind n ih =>
    by_cases hn : n < 16
    · rw [printed_of_lt hn]
      simp [hexFrom, xdigit_digitChar hn]
    · have hdiv : n / 16 < n := Nat.div_lt_self (by omega) (by decide)
      have hmod : n % 16 < 16 := Nat.mod_lt n (by decide)
      rw [printed_of_le (by decide) (by omega), printed_of_lt hmod, hexFrom_append, ih _ hdiv,
        xdigit_digitChar hmod]
      simp only [Option.bind_some, Option.map_some]
      exact congrArg some (by omega)

end Text
