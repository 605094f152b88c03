import Mathlib.Data.List.Induction
import Zuvloop.Presentation.Dotted

/-!
# IPv6 addresses from text

`inet_pton6` of libuv (`vendor/libuv/src/inet.c`), and what it accepts, as a grammar.

## Main definitions

* `inetPton6`: the function of the source, with `pton6Loop` and the `shift` done by hand;
* `Groups`, `Denotes`: groups of hexadecimal digits between colons, with at most one gap and a
  dotted address in place of the last two.

## Main results

* `inet_pton6_accepts_iff`: text is accepted as the address that it denotes, and no other text is.
-/

namespace Zuvloop.Presentation

open Text
open Address (Ip4 Ip6)

/-- `:` -/
def colon : UInt8 := 0x3A

/-- The first byte of a word. -/
def hi (val : ℕ) : UInt8 := UInt8.ofNat (val >>> 8)

/-- The second byte of a word. -/
def lo (val : ℕ) : UInt8 := UInt8.ofNat val

/-! ## The function -/

/-- The variables of `inet_pton6`. -/
structure Scan6 where
  /-- `tmp` -/
  tmp : Ip6
  /-- `tp`, as an index -/
  tp : ℕ
  /-- `colonp`, as an index -/
  colonp : Option ℕ
  /-- `curtok` -/
  curtok : List UInt8
  /-- `seen_xdigits` -/
  seenXdigits : ℕ
  /-- `val` -/
  val : ℕ

namespace Scan6

/-- The variables before the loop. -/
def start (src : List UInt8) : Scan6 :=
  { tmp := Vector.replicate 16 0, tp := 0, colonp := none, curtok := src, seenXdigits := 0
    val := 0 }

variable (st : Scan6)

/-- `*tp++ = b` -/
def put (b : UInt8) : Scan6 :=
  { st with tmp := st.tmp.setIfInBounds st.tp b, tp := st.tp + 1 }

/-- Store `val`, if there is room. -/
def putVal : Option Scan6 :=
  if 16 < st.tp + 2 then none else some ((st.put (hi st.val)).put (lo st.val))

/-- `inet_pton4(curtok, tp)`, which stores four bytes at `tp` -/
def putDotted (a : Ip4) : Scan6 := a.toList.foldl put st

end Scan6

/-- The loop of `inet_pton6`. -/
def pton6Loop : List UInt8 → Scan6 → Option Scan6
  | [], st => some st
  | ch :: src, st =>
    match xdigit ch with
    | some d =>
      if 4 < st.seenXdigits + 1 then none
      else
        pton6Loop src { st with val := st.val * 16 + d, seenXdigits := st.seenXdigits + 1 }
    | none =>
      if ch = colon then
        if st.seenXdigits = 0 then
          if st.colonp.isSome then none
          else pton6Loop src { st with curtok := src, colonp := some st.tp }
        else if src = [] then none
        else do
          let st ← { st with curtok := src }.putVal
          pton6Loop src { st with seenXdigits := 0, val := 0 }
      else if ch = dot ∧ st.tp + 4 ≤ 16 then do
        -- the rest of the text has been read
        some { st.putDotted (← inetPton4 st.curtok) with seenXdigits := 0 }
      else none

/-- The digits that the text ends in. -/
def Scan6.flush (st : Scan6) : Option Scan6 :=
  if st.seenXdigits ≠ 0 then st.putVal else some st

/-- The loop that moves the `n` bytes behind a gap to the end, when `m` of them are left:
`endp[-i] = colonp[n - i]; colonp[n - i] = 0` with `i = n - m`. -/
def shift (colonp n : ℕ) : (m : ℕ) → Ip6 → Ip6
  | 0, tmp => tmp
  | m + 1, tmp =>
    shift colonp n m
      ((tmp.setIfInBounds (16 - (n - m)) (tmp.toList.getD (colonp + m) 0)).setIfInBounds
        (colonp + m) 0)

/-- The gap is filled. -/
def Scan6.expand (st : Scan6) : Option Ip6 :=
  match st.colonp with
  | some colonp =>
    if st.tp = 16 then none else some (shift colonp (st.tp - colonp) (st.tp - colonp) st.tmp)
  | none => if st.tp ≠ 16 then none else some st.tmp

/-- Leading colons: the first of two is skipped. -/
def skipColon : List UInt8 → Option (List UInt8)
  | ch :: src => if ch = colon then if src.head? = some colon then some src else none
    else some (ch :: src)
  | [] => some []

/-- `inet_pton6`, with no address for `UV_EINVAL`. -/
def inetPton6 (src : List UInt8) : Option Ip6 := do
  let src ← skipColon src
  let st ← pton6Loop src (.start src)
  let st ← st.flush
  st.expand

/-! ## The grammar -/

/-- Up to four hexadecimal digits, and their value. -/
structure Hextet (t : List UInt8) (w : ℕ) : Prop where
  ne_nil : t ≠ []
  length : t.length ≤ 4
  value : hexFrom 0 t = some w

/-- Groups with a colon between them, and the bytes they stand for. The last two groups may be
written as a dotted address where that is allowed. -/
inductive Groups : (quad : Bool) → List UInt8 → List UInt8 → Prop
  | hextet {quad : Bool} {t : List UInt8} {w : ℕ} (h : Hextet t w) : Groups quad t [hi w, lo w]
  | dotted (a : Ip4) : Groups true (dotted a) a.toList
  | cons {quad : Bool} {t s bs : List UInt8} {w : ℕ} (h : Hextet t w) (hs : Groups quad s bs) :
    Groups quad (t ++ colon :: s) (hi w :: lo w :: bs)

/-- Any number of groups. -/
def OptGroups (quad : Bool) (s bs : List UInt8) : Prop := s = [] ∧ bs = [] ∨ Groups quad s bs

/-- Text of an address: all of its groups, or a gap that stands for the zeros missing. -/
inductive Denotes : List UInt8 → Ip6 → Prop
  | full {s : List UInt8} {a : Ip6} (h : Groups true s a.toList) : Denotes s a
  | gap {s₁ s₂ b₁ b₂ : List UInt8} {k : ℕ} {a : Ip6} (h₁ : OptGroups false s₁ b₁)
    (h₂ : OptGroups true s₂ b₂) (hk : 0 < k) (ha : a.toList = b₁ ++ List.replicate k 0 ++ b₂) :
    Denotes (s₁ ++ colon :: colon :: s₂) a

/-! ## What is stored -/

namespace Scan6

variable {st : Scan6} {out : List UInt8}

/-- These bytes have been stored. -/
structure Holds (st : Scan6) (out : List UInt8) : Prop where
  tp : st.tp = out.length
  tmp : st.tmp.toList = out ++ List.replicate (16 - out.length) 0
  le : out.length ≤ 16

theorem holds_start (src : List UInt8) : (start src).Holds [] := ⟨rfl, rfl, by decide⟩

theorem Holds.put (h : st.Holds out) (hlt : out.length < 16) (b : UInt8) :
    (st.put b).Holds (out ++ [b]) where
  tp := by
    rw [List.length_append]
    exact congrArg (· + 1) h.tp
  tmp := by
    have hreplicate : List.replicate (16 - out.length) (0 : UInt8) =
        0 :: List.replicate (16 - (out.length + 1)) 0 := by
      rw [← List.replicate_succ]
      congr 1
      omega
    have hset : (st.put b).tmp.toList = st.tmp.toList.set st.tp b := by simp [Scan6.put]
    rw [hset, h.tmp, h.tp, hreplicate]
    simp
  le := by
    rw [List.length_append]
    exact hlt

theorem Holds.putVal (h : st.Holds out) (hle : out.length + 2 ≤ 16) :
    ∃ st', st.putVal = some st' ∧ st'.Holds (out ++ [hi st.val, lo st.val]) ∧
      st'.colonp = st.colonp ∧ st'.curtok = st.curtok := by
  have hput := (h.put (by omega) (hi st.val)).put
    (by rw [List.length_append]; exact hle) (lo st.val)
  rw [List.append_assoc] at hput
  refine ⟨_, ?_, hput, rfl, rfl⟩
  rw [Scan6.putVal, if_neg (by rw [h.tp]; omega)]

theorem le_of_putVal (h : st.Holds out) {st' : Scan6} (hst : st.putVal = some st') :
    out.length + 2 ≤ 16 := by
  unfold Scan6.putVal at hst
  split at hst
  · cases hst
  · rw [h.tp] at *
    omega

theorem Holds.foldl_put (h : st.Holds out) {bs : List UInt8} (hle : out.length + bs.length ≤ 16) :
    (bs.foldl Scan6.put st).Holds (out ++ bs) := by
  induction bs generalizing st out with
  | nil => simpa using h
  | cons b bs ih =>
    rw [List.length_cons] at hle
    have hput := ih (h.put (by omega) b) (by rw [List.length_append, List.length_singleton]; omega)
    rwa [List.append_assoc] at hput

theorem Holds.putDotted (h : st.Holds out) (hle : out.length + 4 ≤ 16) (a : Ip4) :
    (st.putDotted a).Holds (out ++ a.toList) :=
  h.foldl_put (by rwa [Vector.length_toList])

theorem colonp_foldl_put (bs : List UInt8) (st : Scan6) :
    (bs.foldl Scan6.put st).colonp = st.colonp := by
  induction bs generalizing st with
  | nil => rfl
  | cons b bs ih => exact ih (st.put b)

@[simp]
theorem colonp_putDotted (a : Ip4) : (st.putDotted a).colonp = st.colonp :=
  colonp_foldl_put a.toList st

end Scan6

/-- The bytes behind a gap are moved to the end, one by one from the last. -/
theorem toList_shift {before mid zeros done : List UInt8} {n k : ℕ} {tmp : Ip6}
    (hk : 0 < k) (hzeros : zeros = List.replicate k 0) (hn : n = mid.length + done.length)
    (htmp : tmp.toList = before ++ mid ++ zeros ++ done) :
    (shift before.length n mid.length tmp).toList = before ++ zeros ++ mid ++ done := by
  induction mid using List.reverseRecOn generalizing done tmp with
  | nil => simpa [shift] using htmp
  | append_singleton mid b ih =>
    have hlength : before.length + (mid.length + 1) + k + done.length = 16 := by
      have := congrArg List.length htmp
      simp [hzeros] at this
      omega
    have hget : tmp.toList.getD (before.length + mid.length) 0 = b := by
      simp [htmp, List.getD]
    have hpos : 16 - (n - mid.length) = before.length + mid.length + k := by
      rw [hn, List.length_append, List.length_singleton]
      omega
    obtain ⟨k, rfl⟩ : ∃ k', k = k' + 1 := ⟨k - 1, by omega⟩
    rw [List.length_append, List.length_singleton, shift, hget, hpos]
    have hstep : ((tmp.setIfInBounds (before.length + mid.length + (k + 1)) b).setIfInBounds
        (before.length + mid.length) 0).toList = before ++ mid ++ zeros ++ (b :: done) := by
      have hsplit : tmp.toList = (before ++ mid) ++ (b :: (List.replicate k 0 ++ (0 :: done))) := by
        rw [htmp, hzeros, List.replicate_succ']
        simp
      have hset : ((tmp.setIfInBounds (before.length + mid.length + (k + 1)) b).setIfInBounds
          (before.length + mid.length) 0).toList =
          (tmp.toList.set (before.length + mid.length + (k + 1)) b).set
            (before.length + mid.length) 0 := by simp
      rw [hset, hsplit, List.set_append_right _ _ (by simp), List.set_append_right _ _ (by simp),
        hzeros, List.replicate_succ]
      simp
    rw [ih (by rw [hn]; simp; omega) hstep]
    simp

/-! ## The loop against the grammar -/

/-- What is left of a text at the beginning of a group, the bytes it stands for, and where among
them the gap is, unless it has been `seen`. -/
inductive Rest : (seen : Bool) → List UInt8 → List UInt8 → Option ℕ → Prop
  | done {seen : Bool} : Rest seen [] [] none
  | last {seen : Bool} {t : List UInt8} {w : ℕ} (h : Hextet t w) : Rest seen t [hi w, lo w] none
  | dotted {seen : Bool} (a : Ip4) : Rest seen (dotted a) a.toList none
  | more {seen : Bool} {t s bs : List UInt8} {w : ℕ} {o : Option ℕ} (h : Hextet t w) (hne : s ≠ [])
    (hs : Rest seen s bs o) : Rest seen (t ++ colon :: s) (hi w :: lo w :: bs) (o.map (· + 2))
  | gap {s bs : List UInt8} (hs : Rest true s bs none) : Rest false (colon :: s) bs (some 0)

/-- There is one gap at most. -/
theorem Rest.eq_none {seen : Bool} {s bs : List UInt8} {o : Option ℕ} (h : Rest seen s bs o)
    (hseen : seen = true) : o = none := by
  induction h with
  | done => rfl
  | last => rfl
  | dotted => rfl
  | more _ _ _ ih => rw [ih hseen]; rfl
  | gap => cases hseen

/-- A group is being read, and these digits of it have been. -/
structure Scan6.At (st : Scan6) (out tok : List UInt8) (src : List UInt8) : Prop where
  holds : st.Holds out
  curtok : st.curtok = tok ++ src
  seenXdigits : st.seenXdigits = tok.length
  length : tok.length ≤ 4
  value : hexFrom 0 tok = some st.val

/-- What the loop and the digits behind it leave. -/
structure Scan6.Ends (st st' : Scan6) (out bs : List UInt8) (o : Option ℕ) : Prop where
  holds : st'.Holds (out ++ bs)
  colonp : st'.colonp = st.colonp.or (o.map (out.length + ·))

theorem Scan6.At.hextet {st : Scan6} {out tok src : List UInt8} (h : st.At out tok src)
    (hne : st.seenXdigits ≠ 0) : Hextet tok st.val :=
  ⟨fun hnil => hne (by rw [h.seenXdigits, hnil]; rfl), h.length, h.value⟩

theorem Scan6.At.eq_nil {st : Scan6} {out tok src : List UInt8} (h : st.At out tok src)
    (hseen : st.seenXdigits = 0) : tok = [] :=
  List.eq_nil_of_length_eq_zero (h.seenXdigits.symm.trans hseen)

/-- One digit more. -/
theorem Scan6.At.digit {st : Scan6} {out tok src : List UInt8} {ch : UInt8} {d : ℕ}
    (h : st.At out tok (ch :: src)) (hd : xdigit ch = some d) (hlt : tok.length < 4) :
    Scan6.At { st with val := st.val * 16 + d, seenXdigits := st.seenXdigits + 1 } out
      (tok ++ [ch]) src where
  holds := ⟨h.holds.tp, h.holds.tmp, h.holds.le⟩
  curtok := by
    rw [List.append_assoc]
    exact h.curtok
  seenXdigits := by
    rw [List.length_append]
    exact congrArg (· + 1) h.seenXdigits
  length := by
    rw [List.length_append]
    exact hlt
  value := by
    rw [hexFrom_append, h.value, hd]
    rfl

/-- The next group begins. -/
theorem Scan6.Holds.at_nil {st : Scan6} {out src : List UInt8} (h : st.Holds out)
    (hcurtok : st.curtok = src) (hseen : st.seenXdigits = 0) (hval : st.val = 0) :
    st.At out [] src :=
  ⟨h, hcurtok, hseen, by decide, by rw [hval]; rfl⟩

/-- What the loop reads is what is left of a text. -/
theorem rest_of_pton6Loop {src : List UInt8} : ∀ {st st₁ st' : Scan6} {out tok : List UInt8},
    st.At out tok src → pton6Loop src st = some st₁ → st₁.flush = some st' →
    ∃ bs o, Rest st.colonp.isSome (tok ++ src) bs o ∧ st.Ends st' out bs o := by
  induction src with
  | nil =>
    intro st st₁ st' out tok h hloop hflush
    obtain rfl := Option.some.inj hloop
    unfold Scan6.flush at hflush
    split at hflush
    · rename_i hseen
      obtain ⟨st₂, hput, hholds, hcolonp, -⟩ :=
        h.holds.putVal (Scan6.le_of_putVal h.holds hflush)
      obtain rfl := Option.some.inj (hput.symm.trans hflush)
      refine ⟨_, none, ?_, hholds, by simpa using hcolonp⟩
      rw [List.append_nil]
      exact .last (h.hextet hseen)
    · rename_i hseen
      obtain rfl := Option.some.inj hflush
      have htok := h.eq_nil (by simpa using hseen)
      refine ⟨[], none, by rw [htok]; exact .done, by simpa using h.holds, by simp⟩
  | cons ch src ih =>
    intro st st₁ st' out tok h hloop hflush
    rw [pton6Loop] at hloop
    split at hloop
    · rename_i d hd
      split at hloop
      · cases hloop
      · rename_i hfour
        have hlt : tok.length < 4 := by have := h.seenXdigits; omega
        obtain ⟨bs, o, hrest, hends⟩ := ih (h.digit hd hlt) hloop hflush
        exact ⟨bs, o, by simpa using hrest, hends.holds, hends.colonp⟩
    · split at hloop
      · rename_i hcolon
        subst hcolon
        split at hloop
        · rename_i hseen
          have htok := h.eq_nil hseen
          have hval : st.val = 0 := by
            have hvalue := h.value
            rw [htok] at hvalue
            exact (Option.some.inj hvalue).symm
          split at hloop
          · cases hloop
          · rename_i hnone
            rw [Bool.not_eq_true, Option.isSome_eq_false_iff, Option.isNone_iff_eq_none] at hnone
            have hat : Scan6.At { st with curtok := src, colonp := some st.tp } out [] src :=
              Scan6.Holds.at_nil ⟨h.holds.tp, h.holds.tmp, h.holds.le⟩ rfl hseen hval
            obtain ⟨bs, o, hrest, hends⟩ := ih hat hloop hflush
            refine ⟨bs, some 0, ?_, hends.holds, ?_⟩
            · have hgap := hrest.eq_none rfl
              rw [hgap] at hrest
              rw [htok, hnone]
              exact .gap hrest
            · rw [hends.colonp, hnone, h.holds.tp]
              rfl
        · rename_i hseen
          split at hloop
          · cases hloop
          · rename_i hne
            obtain ⟨st₂, hput, hrun⟩ := Option.bind_eq_some_iff.mp hloop
            have hbefore : Scan6.Holds { st with curtok := src } out :=
              ⟨h.holds.tp, h.holds.tmp, h.holds.le⟩
            obtain ⟨st₃, hput', hholds, hcolonp, hcurtok⟩ :=
              hbefore.putVal (Scan6.le_of_putVal hbefore hput)
            obtain rfl := Option.some.inj (hput'.symm.trans hput)
            have hat : Scan6.At { st₃ with seenXdigits := 0, val := 0 }
                (out ++ [hi st.val, lo st.val]) [] src :=
              Scan6.Holds.at_nil ⟨hholds.tp, hholds.tmp, hholds.le⟩ hcurtok rfl rfl
            obtain ⟨bs, o, hrest, hends⟩ := ih hat hrun hflush
            rw [show Scan6.colonp _ = st.colonp from hcolonp] at hrest
            refine ⟨_, _, .more (h.hextet hseen) hne hrest, ?_, ?_⟩
            · simpa using hends.holds
            · rw [hends.colonp, show Scan6.colonp _ = st.colonp from hcolonp]
              cases o with
              | none => rfl
              | some k => simp [Nat.add_comm, Nat.add_left_comm]
      · split at hloop
        · rename_i hdot
          obtain ⟨a, ha, hst⟩ := Option.bind_eq_some_iff.mp hloop
          obtain rfl := Option.some.inj hst
          obtain rfl := Option.some.inj (show some _ = some st' from hflush)
          have hholds := h.holds.putDotted (by have := h.holds.tp; omega) a
          refine ⟨a.toList, none, ?_, ⟨hholds.tp, hholds.tmp, hholds.le⟩, by simp⟩
          have htext := dotted_of_inetPton4 ha
          rw [← h.curtok, ← htext]
          exact .dotted a
        · cases hloop

/-- The loop reads the digits of a group. -/
theorem pton6Loop_digits {t rest : List UInt8} {w : ℕ} {st : Scan6} {out tok : List UInt8}
    (h : st.At out tok (t ++ rest)) (hlength : (tok ++ t).length ≤ 4)
    (hvalue : hexFrom 0 (tok ++ t) = some w) :
    ∃ st', pton6Loop (t ++ rest) st = pton6Loop rest st' ∧ st'.At out (tok ++ t) rest ∧
      st'.colonp = st.colonp := by
  induction t generalizing st tok with
  | nil => exact ⟨st, rfl, by rwa [List.append_nil], rfl⟩
  | cons c t ih =>
    obtain ⟨d, hd⟩ := exists_of_hexFrom hvalue (c := c) (by simp)
    have hlt : tok.length < 4 := by simp at hlength; omega
    rw [← List.singleton_append, ← List.append_assoc] at hlength hvalue ⊢
    obtain ⟨st', hloop, hat, hcolonp⟩ := ih (h.digit hd hlt) hlength hvalue
    refine ⟨st', ?_, hat, hcolonp⟩
    rw [List.append_assoc, List.singleton_append, pton6Loop, hd]
    dsimp only
    rw [if_neg (by have := h.seenXdigits; omega)]
    exact hloop

/-- The loop reads a group. -/
theorem pton6Loop_hextet {t rest : List UInt8} {w : ℕ} {st : Scan6} {out : List UInt8}
    (h : st.At out [] (t ++ rest)) (ht : Hextet t w) :
    ∃ st', pton6Loop (t ++ rest) st = pton6Loop rest st' ∧ st'.At out t rest ∧
      st'.colonp = st.colonp ∧ st'.seenXdigits ≠ 0 ∧ st'.val = w := by
  obtain ⟨st', hloop, hat, hcolonp⟩ := pton6Loop_digits h ht.length ht.value
  refine ⟨st', hloop, hat, hcolonp, ?_, Option.some.inj (hat.value.symm.trans ht.value)⟩
  rw [hat.seenXdigits]
  exact fun hzero => ht.ne_nil (List.eq_nil_of_length_eq_zero hzero)

/-- What is left of a text is what the loop reads. -/
theorem pton6Loop_of_rest {seen : Bool} {src bs : List UInt8} {o : Option ℕ}
    (h : Rest seen src bs o) : ∀ {st : Scan6} {out : List UInt8}, st.At out [] src →
      st.colonp.isSome = seen → out.length + bs.length ≤ 16 →
      ∃ st₁ st', pton6Loop src st = some st₁ ∧ st₁.flush = some st' ∧ st.Ends st' out bs o := by
  induction h with
  | done =>
    intro st out hat _ _
    refine ⟨st, st, rfl, ?_, by simpa using hat.holds, by simp⟩
    rw [Scan6.flush, if_neg (by rw [hat.seenXdigits]; decide)]
  | @last seen t w ht =>
    intro st out hat _ hle
    rw [← List.append_nil t] at hat ⊢
    obtain ⟨st₁, hloop, hat₁, hcolonp, hseen, hval⟩ := pton6Loop_hextet hat ht
    obtain ⟨st', hput, hholds, hcolonp', -⟩ := hat₁.holds.putVal hle
    refine ⟨st₁, st', hloop, ?_, ?_, ?_⟩
    · rw [Scan6.flush, if_pos hseen, hput]
    · rwa [hval] at hholds
    · rw [hcolonp', hcolonp]
      simp
  | @dotted seen a =>
    intro st out hat _ hle
    obtain ⟨w, hw⟩ := exists_hexFrom 0 fun c (hc : c ∈ printed 10 a[0].toNat) =>
      exists_xdigit_of_mem_printed hc
    have ht : Hextet (printed 10 a[0].toNat) w :=
      ⟨printed_ne_nil _ _, by have := length_printed_byte a[0]; omega, hw⟩
    have htext : dotted a = printed 10 a[0].toNat ++ dot :: (printed 10 a[1].toNat ++ dot ::
      (printed 10 a[2].toNat ++ dot :: printed 10 a[3].toNat)) := rfl
    rw [htext] at hat ⊢
    obtain ⟨st₁, hloop, hat₁, hcolonp, -, -⟩ := pton6Loop_hextet hat ht
    have hcurtok : inetPton4 st₁.curtok = some a := by
      rw [hat₁.curtok, ← htext]
      exact inetPton4_dotted a
    have hroom : st₁.tp + 4 ≤ 16 := by
      have := hat₁.holds.tp
      simp at hle
      omega
    have hdot : xdigit dot = none := by decide
    have hholds := hat₁.holds.putDotted (by have := hat₁.holds.tp; omega) a
    refine ⟨{ st₁.putDotted a with seenXdigits := 0 }, _, ?_, rfl,
      ⟨hholds.tp, hholds.tmp, hholds.le⟩, ?_⟩
    · rw [hloop, pton6Loop, hdot]
      dsimp only
      rw [if_neg (by decide), if_pos ⟨rfl, hroom⟩, hcurtok]
      rfl
    · change (st₁.putDotted a).colonp = _
      rw [Scan6.colonp_putDotted, hcolonp]
      simp
  | @more seen t s bs w o ht hne _ ih =>
    intro st out hat hseen hle
    obtain ⟨st₁, hloop, hat₁, hcolonp, hdigits, hval⟩ := pton6Loop_hextet hat ht
    have hbefore : Scan6.Holds { st₁ with curtok := s } out :=
      ⟨hat₁.holds.tp, hat₁.holds.tmp, hat₁.holds.le⟩
    obtain ⟨st₂, hput, hholds, hcolonp₂, hcurtok⟩ :=
      hbefore.putVal (by simp at hle; omega)
    have hat₂ : Scan6.At { st₂ with seenXdigits := 0, val := 0 } (out ++ [hi w, lo w]) [] s :=
      Scan6.Holds.at_nil (by rw [← hval]; exact ⟨hholds.tp, hholds.tmp, hholds.le⟩) hcurtok rfl rfl
    have hcolonp' : st₂.colonp = st.colonp := hcolonp₂.trans hcolonp
    obtain ⟨st₃, st', hrun, hflush, hends⟩ := ih hat₂ (by rw [← hseen, ← hcolonp'])
      (by simp at hle ⊢; omega)
    have hxdigit : xdigit colon = none := by decide
    refine ⟨st₃, st', ?_, hflush, ?_, ?_⟩
    · rw [hloop, pton6Loop, hxdigit]
      dsimp only
      rw [if_pos rfl, if_neg hdigits, if_neg hne, hput]
      exact hrun
    · simpa using hends.holds
    · rw [hends.colonp, show Scan6.colonp _ = st.colonp from hcolonp']
      cases o with
      | none => rfl
      | some k => simp [Nat.add_comm, Nat.add_left_comm]
  | @gap s bs _ ih =>
    intro st out hat hseen hle
    have hnone : st.colonp = none := by simpa using hseen
    have hzero : st.seenXdigits = 0 := hat.seenXdigits
    have hat₁ : Scan6.At { st with curtok := s, colonp := some st.tp } out [] s :=
      Scan6.Holds.at_nil ⟨hat.holds.tp, hat.holds.tmp, hat.holds.le⟩ rfl hzero
        (Option.some.inj hat.value).symm
    obtain ⟨st₁, st', hrun, hflush, hends⟩ := ih hat₁ rfl hle
    have hxdigit : xdigit colon = none := by decide
    refine ⟨st₁, st', ?_, hflush, hends.holds, ?_⟩
    · rw [pton6Loop, hxdigit]
      dsimp only
      rw [if_pos rfl, if_pos hzero, if_neg (by rw [hnone]; decide)]
      exact hrun
    · rw [hends.colonp, hnone, hat.holds.tp]
      rfl

/-! ## Groups and gaps -/

theorem Hextet.exists_cons {t : List UInt8} {w : ℕ} (h : Hextet t w) :
    ∃ c t', t = c :: t' ∧ ∃ d, xdigit c = some d := by
  obtain ⟨c, t', rfl⟩ := List.exists_cons_of_ne_nil h.ne_nil
  exact ⟨c, t', rfl, exists_of_hexFrom h.value List.mem_cons_self⟩

/-- A group begins with a digit. -/
theorem Groups.exists_cons {quad : Bool} {s bs : List UInt8} (h : Groups quad s bs) :
    ∃ c s', s = c :: s' ∧ ∃ d, xdigit c = some d := by
  cases h with
  | hextet h => exact h.exists_cons
  | dotted a =>
    obtain ⟨c, t, ht⟩ := List.exists_cons_of_ne_nil (printed_ne_nil 10 a[0].toNat)
    refine ⟨c, _, by rw [Presentation.dotted, ht, List.cons_append], ?_⟩
    exact exists_xdigit_of_mem_printed (ht ▸ List.mem_cons_self)
  | cons h _ =>
    obtain ⟨c, t', rfl, hd⟩ := h.exists_cons
    exact ⟨c, _, List.cons_append, hd⟩

theorem Groups.ne_nil {quad : Bool} {s bs : List UInt8} (h : Groups quad s bs) : s ≠ [] := by
  obtain ⟨c, s', rfl, -⟩ := h.exists_cons
  exact List.cons_ne_nil _ _

/-- Groups are what is left of a text without a gap. -/
theorem Groups.rest {quad : Bool} {s bs : List UInt8} (h : Groups quad s bs) (seen : Bool) :
    Rest seen s bs none := by
  induction h with
  | hextet h => exact .last h
  | dotted a => exact .dotted a
  | cons h hs ih => exact .more h hs.ne_nil ih

theorem OptGroups.rest {s bs : List UInt8} (h : OptGroups true s bs) (seen : Bool) :
    Rest seen s bs none := by
  rcases h with ⟨rfl, rfl⟩ | h
  · exact .done
  · exact h.rest seen

/-- Groups before a gap. -/
theorem Groups.rest_gap {s₁ b₁ s₂ b₂ : List UInt8} {quad : Bool} (h : Groups quad s₁ b₁)
    (hquad : quad = false) (hs : Rest true s₂ b₂ none) :
    Rest false (s₁ ++ colon :: colon :: s₂) (b₁ ++ b₂) (some b₁.length) := by
  induction h with
  | hextet h => exact .more h (List.cons_ne_nil _ _) (.gap hs)
  | dotted a => cases hquad
  | cons h _ ih =>
    have hrest := Rest.more h (by simp) (ih hquad)
    simpa using hrest

/-- What is left without a gap are groups. -/
theorem Rest.groups {seen : Bool} {s bs : List UInt8} {o : Option ℕ} (h : Rest seen s bs o)
    (ho : o = none) : OptGroups true s bs := by
  induction h with
  | done => exact .inl ⟨rfl, rfl⟩
  | last h => exact .inr (.hextet h)
  | dotted a => exact .inr (.dotted a)
  | more h hne _ ih =>
    rcases ih (Option.map_eq_none_iff.mp ho) with ⟨hnil, -⟩ | hgroups
    · exact absurd hnil hne
    · exact .inr (.cons h hgroups)
  | gap => cases ho

/-- What is left with a gap are groups, the gap and groups; unless it begins with the gap, whose
first colon has been read. -/
theorem Rest.split {seen : Bool} {s bs : List UInt8} {o : Option ℕ} (h : Rest seen s bs o) {k : ℕ}
    (ho : o = some k) :
    ∃ s₁ b₁ s₂ b₂, OptGroups false s₁ b₁ ∧ OptGroups true s₂ b₂ ∧ b₁.length = k ∧
      bs = b₁ ++ b₂ ∧ (if s₁ = [] then s = colon :: s₂ else s = s₁ ++ colon :: colon :: s₂) := by
  induction h generalizing k with
  | done => cases ho
  | last => cases ho
  | dotted => cases ho
  | @more _ t s bs w o h hne _ ih =>
    obtain ⟨k', ho', rfl⟩ := Option.map_eq_some_iff.mp ho
    obtain ⟨s₁, b₁, s₂, b₂, h₁, h₂, hlength, rfl, hs⟩ := ih ho'
    rcases h₁ with ⟨rfl, rfl⟩ | h₁
    · rw [if_pos rfl] at hs
      refine ⟨t, [hi w, lo w], s₂, b₂, .inr (.hextet h), h₂, ?_, rfl, ?_⟩
      · rw [← hlength]
        rfl
      · rw [if_neg h.ne_nil, hs]
    · rw [if_neg h₁.ne_nil] at hs
      refine ⟨t ++ colon :: s₁, hi w :: lo w :: b₁, s₂, b₂, .inr (.cons h h₁), h₂, ?_, rfl, ?_⟩
      · rw [← hlength]
        rfl
      · rw [if_neg (by simp), hs]
        simp
  | @gap s bs hs =>
    obtain rfl := Option.some.inj ho
    exact ⟨[], [], s, bs, .inl ⟨rfl, rfl⟩, hs.groups rfl, rfl, rfl, by rw [if_pos rfl]⟩

/-! ## The function against the grammar -/

/-- The address of these bytes, with the zeros that are missing in the place of a gap. -/
def Filled (bs : List UInt8) (a : Ip6) : Option ℕ → Prop
  | none => a.toList = bs
  | some k => bs.length < 16 ∧
    a.toList = bs.take k ++ List.replicate (16 - bs.length) 0 ++ bs.drop k

/-- The gap is filled. -/
theorem expand_eq_some_iff {st : Scan6} {bs : List UInt8} (h : st.Holds bs)
    (hcolonp : ∀ k, st.colonp = some k → k ≤ bs.length) (a : Ip6) :
    st.expand = some a ↔ Filled bs a st.colonp := by
  rw [Scan6.expand, h.tp]
  cases ho : st.colonp with
  | none =>
    dsimp only [Filled]
    split
    · rename_i hne
      refine ⟨nofun, fun ha => absurd ?_ hne⟩
      rw [← ha]
      simp
    · rename_i hlength
      have htmp := h.tmp
      rw [Decidable.not_not.mp hlength, Nat.sub_self, List.replicate_zero, List.append_nil] at htmp
      rw [← htmp, Option.some_inj, Vector.toList_inj, eq_comm]
  | some k =>
    have hk := hcolonp k ho
    have hle := h.le
    dsimp only [Filled]
    split
    · refine ⟨nofun, fun ha => ?_⟩
      omega
    · rename_i hne
      have htmp : st.tmp.toList =
          bs.take k ++ bs.drop k ++ List.replicate (16 - bs.length) 0 ++ [] := by
        rw [List.take_append_drop, List.append_nil, h.tmp]
      have hn : bs.length - k = (bs.drop k).length + ([] : List UInt8).length := by simp
      have hshift := toList_shift (show 0 < 16 - bs.length by omega) rfl hn htmp
      rw [List.length_take, Nat.min_eq_left hk, List.length_drop, List.append_nil] at hshift
      rw [Option.some_inj, ← Vector.toList_inj, hshift, eq_comm]
      exact ⟨fun ha => ⟨by omega, ha⟩, And.right⟩

theorem Rest.le {seen : Bool} {s bs : List UInt8} {o : Option ℕ} (h : Rest seen s bs o) {k : ℕ}
    (ho : o = some k) : k ≤ bs.length := by
  obtain ⟨s₁, b₁, s₂, b₂, -, -, rfl, rfl, -⟩ := h.split ho
  simp

/-- Text without its leading colon is what the loop is given. -/
theorem inetPton6_eq_some_iff_rest {src s : List UInt8} (hsrc : skipColon src = some s) (a : Ip6) :
    inetPton6 src = some a ↔
      ∃ bs o, Rest false s bs o ∧ bs.length ≤ 16 ∧ Filled bs a o := by
  have hat : (Scan6.start s).At [] [] s := (Scan6.holds_start s).at_nil rfl rfl rfl
  have hexpand {bs : List UInt8} {o : Option ℕ} {st' : Scan6} (hrest : Rest false s bs o)
      (hends : (Scan6.start s).Ends st' [] bs o) : st'.expand = some a ↔ Filled bs a o := by
    have hcolonp : st'.colonp = o := by simpa [Scan6.start] using hends.colonp
    rw [expand_eq_some_iff hends.holds (fun k hk => hrest.le (hcolonp.symm.trans hk)), hcolonp]
    rfl
  rw [inetPton6, hsrc, Option.bind_eq_bind, Option.bind_some]
  constructor
  · intro h
    obtain ⟨st₁, hloop, hflush⟩ := Option.bind_eq_some_iff.mp h
    obtain ⟨st', hflush, ha⟩ := Option.bind_eq_some_iff.mp hflush
    obtain ⟨bs, o, hrest, hends⟩ := rest_of_pton6Loop hat hloop hflush
    exact ⟨bs, o, hrest, hends.holds.le, (hexpand hrest hends).mp ha⟩
  · rintro ⟨bs, o, hrest, hle, ha⟩
    obtain ⟨st₁, st', hloop, hflush, hends⟩ :=
      pton6Loop_of_rest hrest hat rfl (by simpa using hle)
    rw [hloop, Option.bind_eq_bind, Option.bind_some, hflush, Option.bind_some]
    exact (hexpand hrest hends).mpr ha

theorem skipColon_of_xdigit {c : UInt8} {d : ℕ} (h : xdigit c = some d) (s : List UInt8) :
    skipColon (c :: s) = some (c :: s) := by
  rw [skipColon, if_neg]
  rintro rfl
  rw [show xdigit colon = none from by decide] at h
  cases h

/-- Text that has no group before its gap is not skipped into. -/
theorem skipColon_colon (s : List UInt8) : skipColon (colon :: colon :: s) = some (colon :: s) := by
  rw [skipColon, if_pos rfl, List.head?_cons, if_pos rfl]

/-- The zeros of a gap are as many as are missing. -/
theorem length_gap {a : Ip6} {b₁ b₂ : List UInt8} {k : ℕ}
    (ha : a.toList = b₁ ++ List.replicate k 0 ++ b₂) : (b₁ ++ b₂).length + k = 16 := by
  have hlength := congrArg List.length ha
  simp at hlength ⊢
  omega

/-- What is accepted as an address denotes it. -/
theorem denotes_of_inetPton6 {src : List UInt8} {a : Ip6} (h : inetPton6 src = some a) :
    Denotes src a := by
  obtain ⟨s, hs, -⟩ := Option.bind_eq_some_iff.mp h
  obtain ⟨bs, o, hrest, hle, ha⟩ := (inetPton6_eq_some_iff_rest hs a).mp h
  have hsrc : src = s ∨ src = colon :: s ∧ s.head? = some colon := by
    unfold skipColon at hs
    split at hs
    · split at hs
      · split at hs
        · rename_i ch src hch hhead
          obtain rfl := Option.some.inj hs
          exact .inr ⟨by rw [hch], hhead⟩
        · cases hs
      · exact .inl (Option.some.inj hs)
    · exact .inl (Option.some.inj hs)
  cases o with
  | none =>
    rcases hrest.groups rfl with ⟨-, rfl⟩ | hgroups
    · have := congrArg List.length ha
      simp at this
    · obtain ⟨c, s', rfl, d, hd⟩ := hgroups.exists_cons
      rcases hsrc with rfl | ⟨-, hhead⟩
      · exact .full (ha ▸ hgroups)
      · obtain rfl := Option.some.inj hhead
        rw [show xdigit colon = none from by decide] at hd
        cases hd
  | some k =>
    obtain ⟨s₁, b₁, s₂, b₂, h₁, h₂, rfl, rfl, htext⟩ := hrest.split rfl
    obtain ⟨hlt, ha⟩ := ha
    rw [List.take_left, List.drop_left] at ha
    have hgap : Denotes (s₁ ++ colon :: colon :: s₂) a := .gap h₁ h₂ (by omega) ha
    rcases h₁ with ⟨rfl, rfl⟩ | h₁
    · rw [if_pos rfl] at htext
      rcases hsrc with rfl | ⟨rfl, -⟩
      · -- a text cannot begin with the second colon of a gap
        exfalso
        rw [htext, skipColon, if_pos rfl] at hs
        split at hs
        · have := congrArg List.length (Option.some.inj hs)
          simp at this
        · cases hs
      · rwa [htext]
    · obtain ⟨c, s', rfl, d, hd⟩ := h₁.exists_cons
      rw [if_neg (List.cons_ne_nil _ _)] at htext
      rcases hsrc with rfl | ⟨-, hhead⟩
      · rwa [htext]
      · rw [htext] at hhead
        obtain rfl := Option.some.inj hhead
        rw [show xdigit colon = none from by decide] at hd
        cases hd

/-- What denotes an address is accepted as it. -/
theorem inetPton6_of_denotes {src : List UInt8} {a : Ip6} (h : Denotes src a) :
    inetPton6 src = some a := by
  cases h with
  | full h =>
    obtain ⟨c, s', rfl, d, hd⟩ := h.exists_cons
    refine (inetPton6_eq_some_iff_rest (skipColon_of_xdigit hd s') a).mpr ?_
    exact ⟨a.toList, none, h.rest false, by simp, rfl⟩
  | @gap s₁ s₂ b₁ b₂ k _ h₁ h₂ hk ha =>
    have hlength := length_gap ha
    have hfilled : Filled (b₁ ++ b₂) a (some b₁.length) := by
      refine ⟨by omega, ?_⟩
      rw [List.take_left, List.drop_left, ha]
      congr 3
      omega
    rcases h₁ with ⟨rfl, rfl⟩ | h₁
    · refine (inetPton6_eq_some_iff_rest (skipColon_colon s₂) a).mpr ?_
      exact ⟨b₂, some 0, .gap (h₂.rest true), by simp at hlength; omega, hfilled⟩
    · obtain ⟨c, s', rfl, d, hd⟩ := h₁.exists_cons
      refine (inetPton6_eq_some_iff_rest (skipColon_of_xdigit hd _) a).mpr ?_
      exact ⟨_, _, h₁.rest_gap rfl (h₂.rest true), by omega, hfilled⟩

/-- Text is accepted as an address if and only if it denotes that address: eight groups of up to
four digits each, or fewer with one gap, the last two of which may be an IPv4 address. -/
theorem inet_pton6_accepts_iff (src : List UInt8) (a : Ip6) :
    inetPton6 src = some a ↔ Denotes src a :=
  ⟨denotes_of_inetPton6, inetPton6_of_denotes⟩

end Zuvloop.Presentation
