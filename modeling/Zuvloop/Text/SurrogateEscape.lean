import Mathlib.Data.List.Basic

/-!
# Bytes as strings, with surrogate escapes

A string is a list of code points, and a code point may be a lone surrogate, which no character
is. That leaves room for every byte string: what is UTF-8 becomes the characters it encodes, and
each byte that is not becomes a surrogate of its own. Encoding strictly refuses surrogates.

## Main definitions

* `decode`: bytes as a string, with the bytes that are not UTF-8 escaped;
* `encodeStrict`: the UTF-8 encoding of a string, none when it holds a surrogate.

## Main results

* `decode_injective`: no two byte strings become the same string;
* `encodeStrict_decode`: the strict encoding of what bytes became gives the bytes back when they
  are UTF-8, and nothing when they are not.
-/

namespace Text

/-- A code point, of a character or of a surrogate. -/
abbrev CodePoint := Fin 0x110000

/-- The code point of a character. -/
def ofChar (c : Char) : CodePoint :=
  ⟨c.toNat, c.valid.elim (fun h => Nat.lt_trans h (by decide)) And.right⟩

/-- The character a code point is of, none for a surrogate. -/
def char? (p : CodePoint) : Option Char :=
  if h : p.val.isValidChar then some (Char.ofNatAux p.val h) else none

/-- The surrogate that stands for a byte. -/
def escape (b : UInt8) : CodePoint := ⟨0xDC00 + b.toNat, by have := b.toNat_lt; omega⟩

/-- The character whose encoding bytes begin with. -/
def firstChar (bs : List UInt8) : Option Char := bs.toByteArray.utf8DecodeChar? 0

/-- The string that bytes stand for. The first `skip` bytes belong to a character that is already
decoded. -/
def decodeAfter : (skip : ℕ) → List UInt8 → List CodePoint
  | _, [] => []
  | skip + 1, _ :: bs => decodeAfter skip bs
  | 0, b :: bs =>
    match firstChar (b :: bs) with
    | some c => ofChar c :: decodeAfter (c.utf8Size - 1) bs
    | none => escape b :: decodeAfter 0 bs

/-- The string that bytes stand for: UTF-8 with surrogate escapes. -/
def decode (bs : List UInt8) : List CodePoint := decodeAfter 0 bs

/-- The UTF-8 encoding of a string, none when it holds a surrogate. -/
def encodeStrict : List CodePoint → Option (List UInt8)
  | [] => some []
  | p :: s =>
    match char? p, encodeStrict s with
    | some c, some bs => some (String.utf8EncodeChar c ++ bs)
    | _, _ => none

/-- Bytes that are the encoding of characters. -/
abbrev IsUtf8 (bs : List UInt8) : Prop := bs.toByteArray.IsValidUTF8

/-! ## Single characters -/

@[simp]
theorem char?_ofChar (c : Char) : char? (ofChar c) = some c :=
  dif_pos c.valid

@[simp]
theorem char?_escape (b : UInt8) : char? (escape b) = none := by
  have hb := b.toNat_lt
  refine dif_neg fun hvalid => ?_
  simp only [escape, Nat.isValidChar] at hvalid
  omega

theorem utf8EncodeChar_ne_nil (c : Char) : String.utf8EncodeChar c ≠ [] := by
  intro h
  have hpos := c.utf8Size_pos
  rw [← String.length_utf8EncodeChar, h] at hpos
  exact Nat.lt_irrefl 0 hpos

theorem firstChar_append (c : Char) (bs : List UInt8) :
    firstChar (String.utf8EncodeChar c ++ bs) = some c := by
  rw [firstChar, List.toByteArray_append]
  exact ByteArray.utf8DecodeChar?_utf8EncodeChar_append

theorem exists_of_firstChar {bs : List UInt8} {c : Char} (h : firstChar bs = some c) :
    ∃ rest, bs = String.utf8EncodeChar c ++ rest := by
  obtain ⟨rest, hrest⟩ := ByteArray.exists_of_utf8DecodeChar?_eq_some h
  refine ⟨rest.data.toList, ?_⟩
  have hlist := congrArg (fun b => b.data.toList) hrest
  simpa using hlist

/-! ## Decoding, character by character -/

theorem decodeAfter_eq_drop (skip : ℕ) (bs : List UInt8) :
    decodeAfter skip bs = decode (bs.drop skip) := by
  induction bs generalizing skip with
  | nil => cases skip <;> simp [decodeAfter, decode]
  | cons b bs ih =>
    cases skip with
    | zero => rfl
    | succ skip => rw [decodeAfter, ih, List.drop_succ_cons]

@[simp]
theorem decode_nil : decode [] = [] := rfl

/-- Bytes that begin with a character are decoded to it and to what follows it. -/
@[simp]
theorem decode_append (c : Char) (bs : List UInt8) :
    decode (String.utf8EncodeChar c ++ bs) = ofChar c :: decode bs := by
  have hfirst := firstChar_append c bs
  have hsize := String.length_utf8EncodeChar c
  obtain ⟨b, tail, htail⟩ := List.exists_cons_of_ne_nil (utf8EncodeChar_ne_nil c)
  rw [htail, List.length_cons] at hsize
  rw [htail, List.cons_append] at hfirst ⊢
  rw [decode, decodeAfter, hfirst]
  change ofChar c :: decodeAfter (c.utf8Size - 1) (tail ++ bs) = _
  rw [decodeAfter_eq_drop, ← hsize, Nat.add_sub_cancel, List.drop_left]

/-- A byte no character begins with is escaped. -/
theorem decode_cons {b : UInt8} {bs : List UInt8} (h : firstChar (b :: bs) = none) :
    decode (b :: bs) = escape b :: decode bs := by
  rw [decode, decodeAfter, h, decodeAfter_eq_drop, List.drop_zero]

/-- Induction along the decoder: bytes end, or begin with a character, or begin with a byte that
no character begins with. -/
theorem decode_induction {motive : List UInt8 → Prop} (nil : motive [])
    (char : ∀ c bs, motive bs → motive (String.utf8EncodeChar c ++ bs))
    (escape : ∀ b bs, firstChar (b :: bs) = none → motive bs → motive (b :: bs))
    (bs : List UInt8) : motive bs := by
  induction h : bs.length using Nat.strongRecOn generalizing bs with
  | ind n ih =>
    subst h
    cases hfirst : firstChar bs with
    | some c =>
      obtain ⟨rest, rfl⟩ := exists_of_firstChar hfirst
      refine char c rest (ih rest.length ?_ rest rfl)
      have hpos := List.length_pos_iff.mpr (utf8EncodeChar_ne_nil c)
      rw [List.length_append]
      omega
    | none =>
      cases bs with
      | nil => exact nil
      | cons b bs => exact escape b bs hfirst (ih bs.length (Nat.lt_succ_self _) bs rfl)

/-! ## Encoding what was decoded -/

/-- The bytes a string stands for, when each surrogate is the escape of a byte. -/
def encodeEscaped (s : List CodePoint) : List UInt8 :=
  s.flatMap fun p => match char? p with
    | some c => String.utf8EncodeChar c
    | none => [UInt8.ofNat (p.val - 0xDC00)]

theorem encodeEscaped_decode (bs : List UInt8) : encodeEscaped (decode bs) = bs := by
  induction bs using decode_induction with
  | nil => rfl
  | char c bs ih =>
    rw [decode_append, encodeEscaped, List.flatMap_cons, char?_ofChar]
    exact congrArg (String.utf8EncodeChar c ++ ·) ih
  | escape b bs h ih =>
    rw [decode_cons h, encodeEscaped, List.flatMap_cons, char?_escape]
    have hb : UInt8.ofNat ((escape b).val - 0xDC00) = b := by
      rw [escape, Nat.add_sub_cancel_left, UInt8.ofNat_toNat]
    rw [hb]
    exact congrArg (b :: ·) ih

/-- No two byte strings become the same string. -/
theorem decode_injective : Function.Injective decode := by
  intro bs bs' h
  rw [← encodeEscaped_decode bs, h, encodeEscaped_decode]

/-! ## Strict encoding -/

theorem isUtf8_nil : IsUtf8 [] := ⟨[], rfl⟩

/-- Bytes that begin with a character are UTF-8 if the bytes after it are. -/
theorem isUtf8_append (c : Char) (bs : List UInt8) :
    IsUtf8 (String.utf8EncodeChar c ++ bs) ↔ IsUtf8 bs := by
  constructor
  · rintro ⟨cs, hcs⟩
    rw [List.utf8Encode, List.toByteArray_inj] at hcs
    cases cs with
    | nil => exact absurd (List.append_eq_nil_iff.mp hcs).1 (utf8EncodeChar_ne_nil c)
    | cons c' cs =>
      rw [List.flatMap_cons] at hcs
      -- the first character is read off the bytes
      have hfirst := firstChar_append c bs
      rw [hcs, firstChar_append] at hfirst
      obtain rfl := Option.some.inj hfirst
      exact ⟨cs, congrArg List.toByteArray (List.append_cancel_left hcs)⟩
  · rintro ⟨cs, hcs⟩
    rw [List.utf8Encode, List.toByteArray_inj] at hcs
    exact ⟨c :: cs, by rw [List.utf8Encode, List.flatMap_cons, hcs]⟩

/-- Bytes that begin with a byte no character begins with are not UTF-8. -/
theorem not_isUtf8_cons {b : UInt8} {bs : List UInt8} (h : firstChar (b :: bs) = none) :
    ¬IsUtf8 (b :: bs) := by
  rintro ⟨cs, hcs⟩
  rw [List.utf8Encode, List.toByteArray_inj] at hcs
  cases cs with
  | nil => exact absurd hcs (List.cons_ne_nil b bs)
  | cons c cs =>
    rw [hcs, List.flatMap_cons, firstChar_append] at h
    cases h

theorem encodeStrict_decode_of_isUtf8 {bs : List UInt8} (h : IsUtf8 bs) :
    encodeStrict (decode bs) = some bs := by
  induction bs using decode_induction with
  | nil => rfl
  | char c bs ih =>
    rw [decode_append, encodeStrict, char?_ofChar, ih ((isUtf8_append c bs).mp h)]
  | escape b bs hfirst _ => exact absurd h (not_isUtf8_cons hfirst)

theorem encodeStrict_decode_of_not_isUtf8 {bs : List UInt8} (h : ¬IsUtf8 bs) :
    encodeStrict (decode bs) = none := by
  induction bs using decode_induction with
  | nil => exact absurd isUtf8_nil h
  | char c bs ih =>
    rw [decode_append, encodeStrict, char?_ofChar, ih fun hbs => h ((isUtf8_append c bs).mpr hbs)]
  | escape b bs hfirst _ => rw [decode_cons hfirst, encodeStrict, char?_escape]

/-- What bytes became encodes strictly to the same bytes, and only if they are UTF-8. -/
theorem encodeStrict_decode (bs bs' : List UInt8) :
    encodeStrict (decode bs) = some bs' ↔ bs' = bs ∧ IsUtf8 bs := by
  by_cases h : IsUtf8 bs
  · rw [encodeStrict_decode_of_isUtf8 h]
    simp [h, eq_comm]
  · rw [encodeStrict_decode_of_not_isUtf8 h]
    simp [h]

end Text
