import Zuvloop.Address.Sockaddr
import Zuvloop.Text.Numeral

/-!
# IPv4 addresses as text

`inet_ntop4` and `inet_pton4` of libuv (`vendor/libuv/src/inet.c`), behind `uv_inet_ntop` and
`uv_inet_pton`. Text has no terminator here, and ends where it ends.

## Main definitions

* `inetNtop4`, `inetPton4`: the functions of the source;
* `dotted`: the only text that an address has.

## Main results

* `inet_pton4_accepts_iff`: text is accepted if and only if it is the text of an address.
-/

namespace Zuvloop.Presentation

open Text
open Address (Ip4)

/-- `.` -/
def dot : UInt8 := 0x2E

/-- `UV_ENOSPC` -/
def enospc : ℤ := -28

/-! ## Printing -/

/-- `"%u.%u.%u.%u"` -/
def dotted (src : Ip4) : List UInt8 :=
  printed 10 src[0].toNat ++ dot :: (printed 10 src[1].toNat ++ dot ::
    (printed 10 src[2].toNat ++ dot :: printed 10 src[3].toNat))

/-- `inet_ntop4`, into a buffer of this many bytes. -/
def inetNtop4 (src : Ip4) (size : ℕ) : Except ℤ (List UInt8) :=
  if size ≤ (dotted src).length then .error enospc else .ok (dotted src)

theorem length_printed_byte (b : UInt8) : (printed 10 b.toNat).length ≤ 3 :=
  length_printed_le (by decide) (by decide) (Nat.lt_trans b.toNat_lt (by decide))

/-- The text fits into `tmp`, with its terminator. -/
theorem length_dotted (src : Ip4) : (dotted src).length < 16 := by
  have h0 := length_printed_byte src[0]
  have h1 := length_printed_byte src[1]
  have h2 := length_printed_byte src[2]
  have h3 := length_printed_byte src[3]
  simp only [dotted, List.length_append, List.length_cons]
  omega

theorem inetNtop4_eq (src : Ip4) {size : ℕ} (h : 16 ≤ size) :
    inetNtop4 src size = .ok (dotted src) := by
  have hlength := length_dotted src
  rw [inetNtop4, if_neg (by omega)]

/-! ## Reading -/

/-- The variables of `inet_pton4`. -/
structure Octets where
  /-- `tmp` -/
  tmp : Ip4
  /-- `tp`, as an index -/
  tp : ℕ
  /-- `saw_digit` -/
  sawDigit : Bool
  /-- `octets` -/
  octets : ℕ

namespace Octets

/-- The variables before the loop. -/
def start : Octets := { tmp := Vector.replicate 4 0, tp := 0, sawDigit := false, octets := 0 }

variable (st : Octets)

/-- `*tp` -/
def cur : UInt8 := st.tmp.toList.getD st.tp 0

/-- `*tp = nw` -/
def store (nw : ℕ) : Octets := { st with tmp := st.tmp.setIfInBounds st.tp (UInt8.ofNat nw) }

/-- A digit. -/
def digit (d : ℕ) : Option Octets :=
  let nw := st.cur.toNat * 10 + d
  if st.sawDigit ∧ st.cur = 0 then none
  else if 255 < nw then none
  else if st.sawDigit then some (st.store nw)
  else if 4 < st.octets + 1 then none
  else some { st.store nw with octets := st.octets + 1, sawDigit := true }

/-- A dot behind a digit. -/
def next : Option Octets :=
  if st.octets = 4 then none
  else some { { st with tp := st.tp + 1 }.store 0 with sawDigit := false }

end Octets

/-- The loop of `inet_pton4`. -/
def pton4Loop : List UInt8 → Octets → Option Octets
  | [], st => some st
  | ch :: src, st =>
    match strchr digits ch with
    | some d => do pton4Loop src (← st.digit d)
    | none =>
      if ch = dot ∧ st.sawDigit then do pton4Loop src (← st.next)
      else none

/-- `inet_pton4`, with no address for `UV_EINVAL`. -/
def inetPton4 (src : List UInt8) : Option Ip4 := do
  let st ← pton4Loop src .start
  if st.octets < 4 then none else some st.tmp

/-! ## What has been read -/

/-- The octets up to an index, each with a dot behind it. -/
def leading (tmp : Ip4) : ℕ → List UInt8
  | 0 => []
  | n + 1 => leading tmp n ++ printed 10 (tmp.toList.getD n 0).toNat ++ [dot]

/-- Octets further on play no part. -/
theorem leading_congr {tmp tmp' : Ip4} {n : ℕ}
    (h : ∀ i < n, tmp.toList.getD i 0 = tmp'.toList.getD i 0) : leading tmp n = leading tmp' n := by
  induction n with
  | zero => rfl
  | succ n ih => rw [leading, leading, ih fun i hi => h i (by omega), h n (by omega)]

theorem leading_three (a : Ip4) : leading a 3 ++ printed 10 a[3].toNat = dotted a := by
  have hget : ∀ i (hi : i < 4), a.toList.getD i 0 = a[i] := fun i hi => by
    simp [List.getD, hi]
  rw [leading, leading, leading, leading, hget 0 (by decide), hget 1 (by decide),
    hget 2 (by decide), dotted]
  simp

namespace Octets

variable {st : Octets}

/-- The text that leads to these variables. -/
def text (st : Octets) : List UInt8 :=
  leading st.tmp st.tp ++ if st.sawDigit then printed 10 st.cur.toNat else []

/-- What the variables are to each other. -/
structure WF (st : Octets) : Prop where
  octets : st.octets = if st.sawDigit then st.tp + 1 else st.tp
  tp : st.tp < 4
  fresh : st.sawDigit = false → st.cur = 0

theorem wf_start : start.WF := ⟨rfl, by decide, fun _ => rfl⟩

theorem text_start : start.text = [] := rfl

theorem cur_store (st : Octets) (h : st.tp < 4) (nw : ℕ) : (st.store nw).cur = UInt8.ofNat nw := by
  simp [store, cur, List.getD, h]

theorem leading_store (st : Octets) (nw : ℕ) :
    leading (st.store nw).tmp st.tp = leading st.tmp st.tp :=
  leading_congr fun i hi => by
    have hne : st.tp ≠ i := by omega
    simp [store, List.getD, hne]

/-- A digit continues the text. -/
theorem digit_text (h : st.WF) {d : ℕ} {c : UInt8} (hc : strchr digits c = some d) {st' : Octets}
    (hst : st.digit d = some st') : st'.WF ∧ st'.text = st.text ++ [c] := by
  have hd := lt_of_strchr hc
  have hprinted := printed_of_strchr hc
  unfold digit at hst
  dsimp only at hst
  split at hst
  · cases hst
  · rename_i hzero
    split at hst
    · cases hst
    · rename_i hbound
      have hnw : (UInt8.ofNat (st.cur.toNat * 10 + d)).toNat = st.cur.toNat * 10 + d := by
        simp only [UInt8.toNat_ofNat']
        omega
      split at hst
      · rename_i hsaw
        obtain rfl := Option.some.inj hst
        refine ⟨⟨h.octets, h.tp, fun hno => ?_⟩, ?_⟩
        · rw [show (st.store _).sawDigit = st.sawDigit from rfl, hsaw] at hno
          cases hno
        · have hpos : 0 < st.cur.toNat := Nat.pos_of_ne_zero fun h0 =>
            hzero ⟨hsaw, UInt8.toNat_inj.mp h0⟩
          have happend : printed 10 (10 * st.cur.toNat + d) =
              printed 10 st.cur.toNat ++ printed 10 d := printed_append (by decide) hpos hd
          rw [text, text, cur_store st h.tp, hnw,
            show (st.store _).tp = st.tp from rfl, leading_store st,
            show (st.store _).sawDigit = st.sawDigit from rfl, if_pos hsaw, if_pos hsaw,
            Nat.mul_comm, happend, hprinted, List.append_assoc]
      · rename_i hsaw
        split at hst
        · cases hst
        · rename_i hfull
          obtain rfl := Option.some.inj hst
          rw [Bool.not_eq_true] at hsaw
          have hoct := h.octets
          rw [hsaw, if_neg (by decide)] at hoct
          refine ⟨⟨?_, h.tp, nofun⟩, ?_⟩
          · exact congrArg (· + 1) hoct
          · have hcur : st.cur.toNat = 0 := by rw [h.fresh hsaw]; rfl
            change leading (st.store _).tmp st.tp ++ printed 10 (st.store _).cur.toNat = _
            rw [text, cur_store st h.tp, hnw, leading_store st, hsaw, if_neg (by decide), hcur,
              Nat.zero_mul, Nat.zero_add, hprinted, List.append_nil]

/-- A dot continues the text. -/
theorem next_text (h : st.WF) (hsaw : st.sawDigit = true) {st' : Octets}
    (hst : st.next = some st') : st'.WF ∧ st'.text = st.text ++ [dot] := by
  unfold next at hst
  split at hst
  · cases hst
  · rename_i hoct
    obtain rfl := Option.some.inj hst
    have hocts := h.octets
    rw [hsaw, if_pos rfl] at hocts
    have htp : st.tp + 1 < 4 := by have := h.tp; omega
    have hlead : leading (st.tmp.setIfInBounds (st.tp + 1) (UInt8.ofNat 0)) (st.tp + 1) =
        leading st.tmp (st.tp + 1) :=
      leading_store { st with tp := st.tp + 1 } 0
    refine ⟨⟨hocts, htp, fun _ => ?_⟩, ?_⟩
    · exact cur_store { st with tp := st.tp + 1 } htp 0
    · change leading (st.tmp.setIfInBounds _ _) (st.tp + 1) ++ [] = _
      rw [hlead, leading, text, hsaw, if_pos rfl, List.append_nil]
      rfl

end Octets

/-- The loop reads the text it leads to. -/
theorem text_of_pton4Loop {src : List UInt8} {st st' : Octets} (h : st.WF)
    (hloop : pton4Loop src st = some st') : st'.WF ∧ st'.text = st.text ++ src := by
  induction src generalizing st with
  | nil =>
    obtain rfl := Option.some.inj hloop
    exact ⟨h, (List.append_nil _).symm⟩
  | cons ch src ih =>
    rw [pton4Loop] at hloop
    split at hloop
    · rename_i d hd
      obtain ⟨st₁, hst₁, hrest⟩ := Option.bind_eq_some_iff.mp hloop
      obtain ⟨h₁, htext⟩ := Octets.digit_text h hd hst₁
      obtain ⟨h', htext'⟩ := ih h₁ hrest
      exact ⟨h', by rw [htext', htext, List.append_assoc]; rfl⟩
    · split at hloop
      · rename_i hdot
        obtain ⟨st₁, hst₁, hrest⟩ := Option.bind_eq_some_iff.mp hloop
        obtain ⟨h₁, htext⟩ := Octets.next_text h hdot.2 hst₁
        obtain ⟨h', htext'⟩ := ih h₁ hrest
        exact ⟨h', by rw [htext', htext, hdot.1, List.append_assoc]; rfl⟩
      · cases hloop

/-- Text that is accepted is the text of the address it is accepted as. -/
theorem dotted_of_inetPton4 {src : List UInt8} {a : Ip4} (h : inetPton4 src = some a) :
    dotted a = src := by
  obtain ⟨st, hloop, hst⟩ := Option.bind_eq_some_iff.mp h
  obtain ⟨hwf, htext⟩ := text_of_pton4Loop Octets.wf_start hloop
  split at hst
  · cases hst
  · rename_i hoct
    obtain rfl := Option.some.inj hst
    have hocts := hwf.octets
    have htp := hwf.tp
    cases hsaw : st.sawDigit with
    | false =>
      rw [hsaw, if_neg (by decide)] at hocts
      omega
    | true =>
      rw [hsaw, if_pos rfl] at hocts
      have htp3 : st.tp = 3 := by omega
      rw [Octets.text, Octets.cur, hsaw, if_pos rfl, htp3, Octets.text_start, List.nil_append]
        at htext
      rw [← leading_three, ← htext]
      simp [List.getD]

/-! ## What is read of a text -/

namespace Octets

variable {st : Octets}

/-- A whole octet has been read. -/
def read (st : Octets) (n : ℕ) : Octets :=
  { st.store n with octets := st.octets + 1, sawDigit := true }

theorem store_read (n m : ℕ) : (st.read n).store m = st.read m := by
  simp [read, store, Vector.setIfInBounds]

end Octets

/-- An octet is read as it is printed. -/
theorem pton4Loop_printed {st : Octets} (h : st.WF) (hsaw : st.sawDigit = false) {n : ℕ}
    (hn : n < 256) (rest : List UInt8) :
    pton4Loop (printed 10 n ++ rest) st = pton4Loop rest (st.read n) := by
  have hoct : st.octets = st.tp := by rw [h.octets, hsaw]; rfl
  have htp := h.tp
  induction n using Nat.strongRecOn generalizing rest with
  | ind n ih =>
    by_cases hlt : n < 10
    · have hcur : st.cur.toNat = 0 := by rw [h.fresh hsaw]; rfl
      have hdigit : st.digit n = some (st.read n) := by
        unfold Octets.digit
        dsimp only
        rw [hsaw, if_neg (by simp), hcur, Nat.zero_mul, Nat.zero_add, if_neg (by omega),
          if_neg (by decide), if_neg (by omega)]
        rfl
      rw [printed_of_lt hlt, List.singleton_append, pton4Loop, strchr_digitChar hlt]
      simp only [hdigit, Option.bind_eq_bind, Option.bind_some]
    · have hmod : n % 10 < 10 := Nat.mod_lt n (by decide)
      have hdigit : (st.read (n / 10)).digit (n % 10) = some (st.read n) := by
        have hcur : (st.read (n / 10)).cur = UInt8.ofNat (n / 10) := Octets.cur_store st htp _
        have hval : (UInt8.ofNat (n / 10)).toNat = n / 10 := by
          simp only [UInt8.toNat_ofNat']
          omega
        unfold Octets.digit
        dsimp only
        rw [hcur, hval, if_neg, if_neg (by omega),
          if_pos (show (st.read (n / 10)).sawDigit = true from rfl)]
        · rw [show n / 10 * 10 + n % 10 = n by omega]
          exact congrArg some (Octets.store_read _ _)
        · rintro ⟨-, hzero⟩
          have := congrArg UInt8.toNat hzero
          rw [hval] at this
          exact absurd this (by simp; omega)
      rw [printed_of_le (by decide) (by omega), printed_of_lt hmod, List.append_assoc,
        ih (n / 10) (by omega) (by omega), List.singleton_append, pton4Loop,
        strchr_digitChar hmod]
      simp only [hdigit, Option.bind_eq_bind, Option.bind_some]

/-- What follows an octet that is not the last is read as the next octet. -/
def Octets.after (st : Octets) (n : ℕ) : Octets :=
  { { st.read n with tp := st.tp + 1 }.store 0 with sawDigit := false }

theorem Octets.wf_after (st : Octets) (n : ℕ) (hoct : st.octets = st.tp) (h : st.tp < 3) :
    (st.after n).WF where
  octets := by
    change st.octets + 1 = st.tp + 1
    rw [hoct]
  tp := by
    change st.tp + 1 < 4
    omega
  fresh := fun _ => Octets.cur_store { st.read n with tp := st.tp + 1 }
    (show st.tp + 1 < 4 by omega) 0

/-- An octet and the dot behind it. -/
theorem pton4Loop_octet {st : Octets} (h : st.WF) (hsaw : st.sawDigit = false) (htp : st.tp < 3)
    {n : ℕ} (hn : n < 256) (rest : List UInt8) :
    pton4Loop (printed 10 n ++ dot :: rest) st = pton4Loop rest (st.after n) := by
  have hoct : st.octets = st.tp := by rw [h.octets, hsaw]; rfl
  have hnext : (st.read n).next = some (st.after n) := by
    rw [Octets.next, if_neg]
    · rfl
    · change st.octets + 1 ≠ 4
      omega
  have hdot : strchr digits dot = none := by decide
  rw [pton4Loop_printed h hsaw hn, pton4Loop, hdot]
  dsimp only
  rw [if_pos ⟨rfl, rfl⟩, hnext]
  rfl

/-- The text of an address is read as that address. -/
theorem inetPton4_dotted (a : Ip4) : inetPton4 (dotted a) = some a := by
  have hoctet (i : ℕ) (hi : i < 4) : a[i].toNat < 256 := a[i].toNat_lt
  let st₁ := Octets.start.after a[0].toNat
  let st₂ := st₁.after a[1].toNat
  let st₃ := st₂.after a[2].toNat
  have h₁ : st₁.WF := Octets.wf_after .start _ rfl (by decide)
  have h₂ : st₂.WF := Octets.wf_after st₁ _ rfl (show 1 < 3 by decide)
  have h₃ : st₃.WF := Octets.wf_after st₂ _ rfl (show 2 < 3 by decide)
  have hloop : pton4Loop (dotted a) .start = some (st₃.read a[3].toNat) := by
    rw [dotted, pton4Loop_octet Octets.wf_start rfl (by decide) (hoctet 0 (by decide)),
      pton4Loop_octet h₁ rfl (show 1 < 3 by decide) (hoctet 1 (by decide)),
      pton4Loop_octet h₂ rfl (show 2 < 3 by decide) (hoctet 2 (by decide)),
      ← List.append_nil (printed 10 a[3].toNat),
      pton4Loop_printed h₃ rfl (hoctet 3 (by decide)), pton4Loop]
  have htmp : (st₃.read a[3].toNat).tmp = a := by
    ext i hi
    have hi' : i = 0 ∨ i = 1 ∨ i = 2 ∨ i = 3 := by omega
    rcases hi' with rfl | rfl | rfl | rfl <;>
      simp [st₃, st₂, st₁, Octets.read, Octets.after, Octets.store, Octets.start]
  rw [inetPton4, hloop]
  exact congrArg some htmp

/-- Text is accepted as an address if and only if it is the text that is printed for that address:
four numbers up to 255 without leading zeros. -/
theorem inet_pton4_accepts_iff (src : List UInt8) (a : Ip4) :
    inetPton4 src = some a ↔ inetNtop4 a 16 = .ok src := by
  rw [inetNtop4_eq a (Nat.le_refl _), Except.ok.injEq]
  constructor
  · exact dotted_of_inetPton4
  · rintro rfl
    exact inetPton4_dotted a

end Zuvloop.Presentation
