import Zuvloop.Presentation.Colon

/-!
# IPv6 addresses as text

`inet_ntop6` of libuv (`vendor/libuv/src/inet.c`): the words of the address in base sixteen, with
the first of the longest runs of zeros written as a gap, and an embedded IPv4 address with dots.

## Main definitions

* `bestRun`: the scan for the run of zeros to leave out;
* `inetNtop6`: the function of the source, with `formatLoop`.

## Main results

* `best_run_iff`: the run is the first of the longest, and at least two words long;
* `inet_ntop6_round_trips`: the text fits into the buffer and is read as the address.
-/

namespace Zuvloop.Presentation

open Text
open Address (Ip4 Ip6)

/-! ## The function -/

/-- Bytes as words, two by two. -/
def pairs : List UInt8 → List ℕ
  | x :: y :: src => (x.toNat * 0x100 + y.toNat) :: pairs src
  | _ => []

/-- `words` -/
def words (src : Ip6) : List ℕ := pairs src.toList

/-- A run of zeros. -/
structure Run where
  base : ℕ
  len : ℕ
  deriving DecidableEq

/-- `best` and `cur`, none where `base` is -1. -/
structure Runs where
  best : Option Run
  cur : Option Run

/-- `if (best.base == -1 || cur.len > best.len) best = cur`, if there is a current run. -/
def Runs.settle (r : Runs) : Option Run :=
  match r.cur, r.best with
  | none, best => best
  | some cur, none => some cur
  | some cur, some best => if best.len < cur.len then some cur else some best

/-- What the loop does with a word. -/
def Runs.step (r : Runs) (i word : ℕ) : Runs :=
  if word = 0 then
    match r.cur with
    | none => { r with cur := some ⟨i, 1⟩ }
    | some cur => { r with cur := some { cur with len := cur.len + 1 } }
  else { best := r.settle, cur := none }

/-- The loop over the words from the `i`-th on. -/
def scanRuns : (i : ℕ) → List ℕ → Runs → Runs
  | _, [], r => r
  | i, w :: ws, r => scanRuns (i + 1) ws (r.step i w)

/-- The run to leave out, if one is at least two words long. -/
def bestRun (ws : List ℕ) : Option Run :=
  (scanRuns 0 ws ⟨none, none⟩).settle.filter fun best => 2 ≤ best.len

/-- `sizeof tmp` -/
def addrstrlen : ℕ := 46

/-- `src + 12` -/
def lastFour (src : Ip6) : Ip4 := #v[src[12], src[13], src[14], src[15]]

/-- Is this address an encapsulated IPv4? -/
def Run.encapsulates (best : Run) (ws : List ℕ) : Bool :=
  best.base = 0 ∧ (best.len = 6 ∨ best.len = 7 ∧ ws[7]? ≠ some 1 ∨
    best.len = 5 ∧ ws[5]? = some 0xffff)

/-- The loop over the words from the `i`-th on, with the text so far. -/
def formatLoop (src : Ip6) (best : Option Run) : (i : ℕ) → List ℕ → List UInt8 →
    Except ℤ (List UInt8)
  | _, [], tmp => .ok tmp
  | i, w :: ws, tmp =>
    if best.any fun best => best.base ≤ i ∧ i < best.base + best.len then
      formatLoop src best (i + 1) ws
        (if best.any fun best => i = best.base then tmp ++ [colon] else tmp)
    else
      let tmp := if i ≠ 0 then tmp ++ [colon] else tmp
      if i = 6 ∧ best.any fun best => best.encapsulates (words src) then do
        -- the rest of the address has been written
        return tmp ++ (← inetNtop4 (lastFour src) (addrstrlen - tmp.length))
      else formatLoop src best (i + 1) ws (tmp ++ printed 16 w)

/-- `inet_ntop6`, into a buffer of this many bytes. -/
def inetNtop6 (src : Ip6) (size : ℕ) : Except ℤ (List UInt8) := do
  let best := bestRun (words src)
  let tmp ← formatLoop src best 0 (words src) []
  let tmp := if best.any fun best => best.base + best.len = 8 then tmp ++ [colon] else tmp
  if size < tmp.length + 1 then throw enospc
  return tmp

/-! ## The run that is left out -/

/-- A run of zeros among these words. -/
structure IsRun (ws : List ℕ) (r : Run) : Prop where
  pos : 0 < r.len
  zero : ∀ i, r.base ≤ i → i < r.base + r.len → ws[i]? = some 0

/-- A run is longer, or as long and not behind the other. -/
def Run.Beats (b r : Run) : Prop := r.len < b.len ∨ r.len = b.len ∧ b.base ≤ r.base

variable {ws : List ℕ} {r : Run} {b c w : ℕ}

theorem IsRun.le_length (h : IsRun ws r) : r.base + r.len ≤ ws.length := by
  have hpos := h.pos
  have hlast := h.zero (r.base + r.len - 1) (by omega) (by omega)
  have := (List.getElem?_eq_some_iff.mp hlast).1
  omega

/-- A run that ends before the last word is a run of the words before it. -/
theorem IsRun.of_concat (h : IsRun (ws ++ [w]) r) (hle : r.base + r.len ≤ ws.length) :
    IsRun ws r where
  pos := h.pos
  zero := fun i hbase hi => by
    have hzero := h.zero i hbase hi
    rwa [List.getElem?_append_left (by omega)] at hzero

theorem IsRun.concat (h : IsRun ws r) : IsRun (ws ++ [w]) r where
  pos := h.pos
  zero := fun i hbase hi => by
    have := h.le_length
    rw [List.getElem?_append_left (by omega)]
    exact h.zero i hbase hi

/-- A run that ends in the last word is that word alone, or a run before it and that word. -/
theorem IsRun.init (h : IsRun (ws ++ [w]) r) (hend : r.base + r.len = ws.length + 1) :
    w = 0 ∧ (r.base = ws.length ∨ IsRun ws ⟨r.base, r.len - 1⟩) := by
  have hpos := h.pos
  have hlast := h.zero ws.length (by omega) (by omega)
  rw [List.getElem?_append_right (Nat.le_refl _), Nat.sub_self] at hlast
  refine ⟨Option.some.inj hlast, ?_⟩
  by_cases hone : r.len = 1
  · exact .inl (by omega)
  · refine .inr ⟨show 0 < r.len - 1 by omega, fun i hbase hi => ?_⟩
    change r.base ≤ i at hbase
    change i < r.base + (r.len - 1) at hi
    have hzero := h.zero i hbase (by omega)
    rwa [List.getElem?_append_left (by omega)] at hzero

/-- What the scan knows of the words before it. -/
structure Scanned (ws : List ℕ) (rs : Runs) : Prop where
  cur : ∀ c, rs.cur = some c → IsRun ws c ∧ c.base + c.len = ws.length
  best : ∀ b, rs.best = some b → IsRun ws b ∧ ∀ c, rs.cur = some c → b.base ≤ c.base
  /-- The current run is all there is at the end. -/
  ends : ∀ r, IsRun ws r → r.base + r.len = ws.length → ∃ c, rs.cur = some c ∧ c.base ≤ r.base
  /-- Every other run is beaten. -/
  beaten : ∀ r, IsRun ws r → (∃ c, rs.cur = some c ∧ c.base ≤ r.base) ∨
    ∃ b, rs.best = some b ∧ b.Beats r

namespace Scanned

variable {rs : Runs}

theorem start : Scanned [] ⟨none, none⟩ where
  cur := nofun
  best := nofun
  ends := fun r h hend => by
    have := h.pos
    simp only [List.length_nil] at hend
    omega
  beaten := fun r h => by
    have := h.pos
    have := h.le_length
    simp only [List.length_nil] at this
    omega

/-- The run that is settled on is one, and beats every run. -/
theorem settle (h : Scanned ws rs) :
    (∀ b, rs.settle = some b → IsRun ws b) ∧
      ∀ r, IsRun ws r → ∃ b, rs.settle = some b ∧ b.Beats r := by
  unfold Runs.settle
  cases hcur : rs.cur with
  | none =>
    refine ⟨fun b hb => (h.best b hb).1, fun r hr => ?_⟩
    rcases h.beaten r hr with ⟨c, hc, -⟩ | hb
    · rw [hcur] at hc
      cases hc
    · exact hb
  | some c =>
    obtain ⟨hrun, hend⟩ := h.cur c hcur
    -- the current run reaches further than any run that begins in it
    have hown (r : Run) (hr : IsRun ws r) (hle : c.base ≤ r.base) : c.Beats r := by
      have := hr.le_length
      unfold Run.Beats
      omega
    cases hbest : rs.best with
    | none =>
      dsimp only
      refine ⟨fun b hb => Option.some.inj hb ▸ hrun, fun r hr => ⟨c, rfl, ?_⟩⟩
      rcases h.beaten r hr with ⟨c', hc', hle⟩ | ⟨b, hb, -⟩
      · rw [hcur] at hc'
        obtain rfl := Option.some.inj hc'
        exact hown r hr hle
      · rw [hbest] at hb
        cases hb
    | some b =>
      obtain ⟨hbrun, hbefore⟩ := h.best b hbest
      have hbc := hbefore c hcur
      dsimp only
      split
      · rename_i hlt
        refine ⟨fun b hb => Option.some.inj hb ▸ hrun, fun r hr => ⟨c, rfl, ?_⟩⟩
        rcases h.beaten r hr with ⟨c', hc', hle⟩ | ⟨b', hb', hbeats⟩
        · rw [hcur] at hc'
          obtain rfl := Option.some.inj hc'
          exact hown r hr hle
        · rw [hbest] at hb'
          obtain rfl := Option.some.inj hb'
          unfold Run.Beats at hbeats ⊢
          omega
      · rename_i hlt
        refine ⟨fun b' hb' => Option.some.inj hb' ▸ hbrun, fun r hr => ⟨b, rfl, ?_⟩⟩
        rcases h.beaten r hr with ⟨c', hc', hle⟩ | ⟨b', hb', hbeats⟩
        · rw [hcur] at hc'
          obtain rfl := Option.some.inj hc'
          have hbeats := hown r hr hle
          unfold Run.Beats at hbeats ⊢
          omega
        · rw [hbest] at hb'
          obtain rfl := Option.some.inj hb'
          exact hbeats

/-- A word that is not zero ends the current run. -/
theorem step_ne_zero (h : Scanned ws rs) (hw : w ≠ 0) :
    Scanned (ws ++ [w]) (rs.step ws.length w) := by
  have hstep : rs.step ws.length w = { best := rs.settle, cur := none } := by
    rw [Runs.step, if_neg hw]
  -- no run ends in the word
  have hbefore (r : Run) (hr : IsRun (ws ++ [w]) r) : r.base + r.len ≤ ws.length := by
    have hle := hr.le_length
    rw [List.length_append, List.length_singleton] at hle
    by_contra hlt
    exact hw (hr.init (by omega)).1
  obtain ⟨hsettle, hbeats⟩ := h.settle
  rw [hstep]
  refine ⟨nofun, fun b hb => ⟨(hsettle b hb).concat, nofun⟩, fun r hr hend => ?_, fun r hr => ?_⟩
  · have := hbefore r hr
    rw [List.length_append, List.length_singleton] at hend
    omega
  · exact .inr (hbeats r (hr.of_concat (hbefore r hr)))

/-- A zero continues the current run, or begins one. -/
theorem step_zero (h : Scanned ws rs) : Scanned (ws ++ [0]) (rs.step ws.length 0) := by
  have hsplit (r : Run) (hr : IsRun (ws ++ [0]) r) : r.base + r.len ≤ ws.length ∨
      r.base + r.len = ws.length + 1 := by
    have hle := hr.le_length
    rw [List.length_append, List.length_singleton] at hle
    omega
  unfold Runs.step
  rw [if_pos rfl]
  cases hcur : rs.cur with
  | none =>
    have hends (r : Run) (hr : IsRun (ws ++ [0]) r) (hend : r.base + r.len = ws.length + 1) :
        ws.length ≤ r.base := by
      rcases (hr.init hend).2 with heq | hinit
      · omega
      · have hpos := hr.pos
        have hinit' := hinit.pos
        obtain ⟨c, hc, -⟩ := h.ends _ hinit (by dsimp only at hinit' ⊢; omega)
        rw [hcur] at hc
        cases hc
    refine ⟨fun c hc => ?_, fun b hb => ⟨(h.best b hb).1.concat, fun c hc => ?_⟩,
      fun r hr hend => ⟨_, rfl, ?_⟩, fun r hr => ?_⟩
    · obtain rfl := Option.some.inj hc
      refine ⟨⟨Nat.one_pos, fun i hbase hi => ?_⟩, by simp⟩
      have hi' : i = ws.length := Nat.le_antisymm (Nat.lt_succ_iff.mp hi) hbase
      rw [hi', List.getElem?_append_right (Nat.le_refl _), Nat.sub_self]
      rfl
    · obtain rfl := Option.some.inj hc
      have hle := (h.best b hb).1.le_length
      exact Nat.le_trans (Nat.le_add_right _ _) hle
    · rw [List.length_append, List.length_singleton] at hend
      exact hends r hr hend
    · rcases hsplit r hr with hle | hend
      · refine .inr ((h.beaten r (hr.of_concat hle)).resolve_left ?_)
        rintro ⟨c, hc, -⟩
        rw [hcur] at hc
        cases hc
      · exact .inl ⟨_, rfl, hends r hr hend⟩
  | some c =>
    obtain ⟨hrun, hlength⟩ := h.cur c hcur
    have hpos := hrun.pos
    have hends (r : Run) (hr : IsRun (ws ++ [0]) r) (hend : r.base + r.len = ws.length + 1) :
        c.base ≤ r.base := by
      rcases (hr.init hend).2 with heq | hinit
      · omega
      · have hinit' := hinit.pos
        obtain ⟨c', hc', hle⟩ := h.ends _ hinit (by dsimp only at hinit' ⊢; omega)
        rw [hcur] at hc'
        obtain rfl := Option.some.inj hc'
        exact hle
    refine ⟨fun c' hc' => ?_, fun b hb => ⟨(h.best b hb).1.concat, fun c' hc' => ?_⟩,
      fun r hr hend => ⟨_, rfl, ?_⟩, fun r hr => ?_⟩
    · obtain rfl := Option.some.inj hc'
      refine ⟨⟨Nat.succ_pos _, fun i hbase hi => ?_⟩, ?_⟩
      · dsimp only at hbase hi
        by_cases hlt : i < ws.length
        · rw [List.getElem?_append_left hlt]
          exact hrun.zero i hbase (by omega)
        · have hi' : i = ws.length := by omega
          rw [hi', List.getElem?_append_right (Nat.le_refl _), Nat.sub_self]
          rfl
      · rw [List.length_append, List.length_singleton]
        dsimp only
        omega
    · obtain rfl := Option.some.inj hc'
      exact (h.best b hb).2 c hcur
    · rw [List.length_append, List.length_singleton] at hend
      exact hends r hr hend
    · rcases hsplit r hr with hle | hend
      · rcases h.beaten r (hr.of_concat hle) with ⟨c', hc', hle'⟩ | hb
        · rw [hcur] at hc'
          obtain rfl := Option.some.inj hc'
          exact .inl ⟨_, rfl, hle'⟩
        · exact .inr hb
      · exact .inl ⟨_, rfl, hends r hr hend⟩

theorem step (h : Scanned ws rs) (w : ℕ) : Scanned (ws ++ [w]) (rs.step ws.length w) := by
  by_cases hw : w = 0
  · rw [hw]
    exact h.step_zero
  · exact h.step_ne_zero hw

/-- The loop over the words that are left. -/
theorem scanRuns (h : Scanned ws rs) (rest : List ℕ) :
    Scanned (ws ++ rest) (Presentation.scanRuns ws.length rest rs) := by
  induction rest generalizing ws rs with
  | nil => rwa [List.append_nil]
  | cons w rest ih =>
    have hstep := ih (h.step w)
    rwa [List.length_append, List.append_assoc, List.singleton_append] at hstep

end Scanned

/-- The run that is left out is at least two words long, and beats every other run. -/
theorem bestRun_some (h : bestRun ws = some r) :
    IsRun ws r ∧ 2 ≤ r.len ∧ ∀ r', IsRun ws r' → r.Beats r' := by
  obtain ⟨hrun, hbeats⟩ := (Scanned.start.scanRuns ws).settle
  obtain ⟨hsettle, hlen⟩ := Option.filter_eq_some_iff.mp h
  rw [List.nil_append] at hrun hbeats
  refine ⟨hrun r hsettle, by simpa using hlen, fun r' hr' => ?_⟩
  obtain ⟨b, hb, hb'⟩ := hbeats r' hr'
  rw [List.length_nil, hsettle] at hb
  obtain rfl := Option.some.inj hb
  exact hb'

/-- If nothing is left out, no two zeros are next to each other. -/
theorem bestRun_none (h : bestRun ws = none) (hr : IsRun ws r) : r.len < 2 := by
  obtain ⟨-, hbeats⟩ := (Scanned.start.scanRuns ws).settle
  rw [List.nil_append] at hbeats
  obtain ⟨b, hb, hb'⟩ := hbeats r hr
  rw [List.length_nil] at hb
  have hlen : ¬ 2 ≤ b.len := by
    have := Option.filter_eq_none_iff.mp h b hb
    simpa using this
  unfold Run.Beats at hb'
  omega

/-! ## The words -/

/-- The bytes of words. -/
def bytes (ws : List ℕ) : List UInt8 := ws.flatMap fun w => [hi w, lo w]

theorem hi_word (x y : UInt8) : hi (x.toNat * 0x100 + y.toNat) = x := by
  have hy := y.toNat_lt
  have hshift : (x.toNat * 0x100 + y.toNat) >>> 8 = x.toNat := by
    rw [Nat.shiftRight_eq_div_pow]
    omega
  rw [hi, hshift, UInt8.ofNat_toNat]

theorem lo_word (x y : UInt8) : lo (x.toNat * 0x100 + y.toNat) = y := by
  have hy := y.toNat_lt
  refine UInt8.toNat_inj.mp ?_
  rw [lo, UInt8.toNat_ofNat']
  omega

/-- Behind so many words are twice as many bytes. -/
theorem bytes_drop_pairs (n : ℕ) {src : List UInt8} (h : src.length % 2 = 0) :
    bytes ((pairs src).drop n) = src.drop (2 * n) := by
  fun_induction pairs src generalizing n with
  | case1 x y src ih =>
    have hsrc : src.length % 2 = 0 := by
      simp only [List.length_cons] at h
      omega
    cases n with
    | zero =>
      have hrest := ih 0 hsrc
      rw [List.drop_zero] at hrest ⊢
      rw [bytes, List.flatMap_cons, hi_word, lo_word]
      exact congrArg (x :: y :: ·) hrest
    | succ n => exact ih n hsrc
  | case2 src hsrc =>
    match src, hsrc, h with
    | [], _, _ => simp [bytes]
    | [_], _, h => simp at h
    | x :: y :: src, hsrc, _ => exact absurd rfl (hsrc x y src)

/-- The words hold the bytes. -/
theorem bytes_words (src : Ip6) : bytes (words src) = src.toList :=
  bytes_drop_pairs 0 (by simp)

theorem length_words (src : Ip6) : (words src).length = 8 := by
  have hlength := congrArg List.length (bytes_words src)
  simp [bytes] at hlength
  omega

theorem lt_of_mem_pairs {src : List UInt8} (h : w ∈ pairs src) : w < 0x10000 := by
  fun_induction pairs src with
  | case1 x y src ih =>
    rcases List.mem_cons.mp h with rfl | h
    · have hx := x.toNat_lt
      have hy := y.toNat_lt
      omega
    · exact ih h
  | case2 => cases h

theorem bytes_replicate (n : ℕ) : bytes (List.replicate n 0) = List.replicate (2 * n) 0 := by
  induction n with
  | zero => rfl
  | succ n ih =>
    rw [List.replicate_succ, Nat.mul_succ, List.replicate_succ, List.replicate_succ, ← ih]
    rfl

theorem bytes_append (ws ws' : List ℕ) : bytes (ws ++ ws') = bytes ws ++ bytes ws' :=
  List.flatMap_append

/-- The last two words are the embedded address. -/
theorem bytes_lastFour (src : Ip6) : bytes ((words src).drop 6) = (lastFour src).toList := by
  rw [words, bytes_drop_pairs 6 (by simp)]
  refine List.ext_getElem (by simp) fun i hi hi' => ?_
  have hi4 : i = 0 ∨ i = 1 ∨ i = 2 ∨ i = 3 := by
    simp at hi'
    omega
  rcases hi4 with rfl | rfl | rfl | rfl <;> simp [lastFour]

theorem hextet_printed (h : w < 0x10000) : Hextet (printed 16 w) w :=
  ⟨printed_ne_nil _ _, length_printed_le (by decide) (by decide) h, hexFrom_printed w⟩

/-! ## The text -/

/-- Words with a colon before each. -/
def tailText (ws : List ℕ) : List UInt8 := ws.flatMap fun w => colon :: printed 16 w

/-- Words with a colon between them. -/
def fullText : List ℕ → List UInt8
  | [] => []
  | w :: ws => printed 16 w ++ tailText ws

theorem tailText_cons (w : ℕ) (ws : List ℕ) : tailText (w :: ws) = colon :: fullText (w :: ws) :=
  rfl

theorem length_tailText_le (h : ∀ w ∈ ws, w < 0x10000) : (tailText ws).length ≤ 5 * ws.length := by
  induction ws with
  | nil => exact Nat.le_refl _
  | cons w ws ih =>
    have hw := (hextet_printed (h w List.mem_cons_self)).length
    have hws := ih fun w hw => h w (List.mem_cons_of_mem _ hw)
    rw [tailText_cons, fullText]
    simp only [List.length_cons, List.length_append]
    omega

theorem length_fullText_le (h : ∀ w ∈ ws, w < 0x10000) : (fullText ws).length ≤ 5 * ws.length := by
  cases ws with
  | nil => exact Nat.le_refl _
  | cons w ws =>
    have hlength := length_tailText_le h
    rw [tailText_cons] at hlength
    exact Nat.le_of_succ_le hlength

/-- Words are groups. -/
theorem groups_fullText (quad : Bool) (h : ∀ w ∈ ws, w < 0x10000) (hne : ws ≠ []) :
    Groups quad (fullText ws) (bytes ws) := by
  induction ws with
  | nil => exact absurd rfl hne
  | cons w ws ih =>
    have hw := hextet_printed (h w List.mem_cons_self)
    cases ws with
    | nil =>
      rw [fullText, show tailText [] = [] from rfl, List.append_nil]
      exact .hextet hw
    | cons w' ws =>
      have hrest := ih (fun w hw => h w (List.mem_cons_of_mem _ hw)) (List.cons_ne_nil _ _)
      rw [fullText, tailText_cons]
      exact .cons hw hrest

theorem optGroups_fullText (quad : Bool) (h : ∀ w ∈ ws, w < 0x10000) :
    OptGroups quad (fullText ws) (bytes ws) := by
  cases ws with
  | nil => exact .inl ⟨rfl, rfl⟩
  | cons w ws => exact .inr (groups_fullText quad h (List.cons_ne_nil _ _))

/-- Words and an embedded address are groups. -/
theorem groups_dotted (a : Ip4) (h : ∀ w ∈ ws, w < 0x10000) :
    ∃ s, tailText ws ++ colon :: dotted a = colon :: s ∧ Groups true s (bytes ws ++ a.toList) := by
  induction ws with
  | nil => exact ⟨_, rfl, .dotted a⟩
  | cons w ws ih =>
    obtain ⟨s, hs, hgroups⟩ := ih fun w hw => h w (List.mem_cons_of_mem _ hw)
    refine ⟨printed 16 w ++ colon :: s, ?_, .cons (hextet_printed (h w List.mem_cons_self)) hgroups⟩
    rw [tailText_cons, fullText, List.cons_append, List.append_assoc, hs]

/-! ## The loop -/

variable {src : Ip6} {best : Option Run} {tmp : List UInt8} {i : ℕ}

/-- Behind the gap the words are written one by one. -/
theorem formatLoop_after (hi : i ≠ 0) (hbest : ∀ b, best = some b → b.base + b.len ≤ i ∧
    (i ≤ 6 → b.encapsulates (words src) = false)) :
    formatLoop src best i ws tmp = .ok (tmp ++ tailText ws) := by
  induction ws generalizing i tmp with
  | nil =>
    rw [formatLoop]
    exact congrArg Except.ok (List.append_nil _).symm
  | cons w ws ih =>
    have hout : (best.any fun b => b.base ≤ i ∧ i < b.base + b.len) = false := by
      cases best with
      | none => rfl
      | some b =>
        have := (hbest b rfl).1
        simp; omega
    have hquad : ¬ (i = 6 ∧ (best.any fun b => b.encapsulates (words src)) = true) := by
      rintro ⟨rfl, hany⟩
      obtain ⟨b, rfl, hb⟩ := (Option.any_eq_true _ _).mp hany
      rw [(hbest _ rfl).2 (Nat.le_refl _)] at hb
      cases hb
    rw [formatLoop, hout, if_neg (by decide)]
    dsimp only
    rw [if_pos hi, if_neg hquad, ih (by omega) fun b hb => ⟨by have := (hbest b hb).1; omega,
      fun hle => (hbest b hb).2 (by omega)⟩, tailText_cons, fullText]
    simp

/-- The words up to an embedded address, and that address. -/
theorem formatLoop_dotted {b : Run} (hb : b.encapsulates (words src) = true) (hi : i ≠ 0)
    (hout : b.base + b.len ≤ i) (hsix : i + ws.length = 6) (hws : ∀ w ∈ ws, w < 0x10000)
    (hroom : tmp.length + 5 * ws.length + 17 ≤ addrstrlen) {w : ℕ} {rest : List ℕ} :
    formatLoop src (some b) i (ws ++ w :: rest) tmp =
      .ok (tmp ++ (tailText ws ++ colon :: dotted (lastFour src))) := by
  induction ws generalizing i tmp with
  | nil =>
    have hcovered : ((some b).any fun b => b.base ≤ i ∧ i < b.base + b.len) = false := by
      simp; omega
    rw [List.nil_append, formatLoop, hcovered, if_neg (by decide)]
    dsimp only
    rw [if_pos hi, if_pos ⟨by simpa using hsix, hb⟩, inetNtop4_eq _ (by
      rw [List.length_append, List.length_singleton]
      have : tmp.length + 5 * 0 + 17 ≤ addrstrlen := hroom
      omega)]
    simp [tailText, pure, Except.pure, bind, Except.bind]
  | cons v ws ih =>
    have hcovered : ((some b).any fun b => b.base ≤ i ∧ i < b.base + b.len) = false := by
      simp; omega
    have hv := (hextet_printed (hws v List.mem_cons_self)).length
    rw [List.length_cons] at hsix hroom
    rw [List.cons_append, formatLoop, hcovered, if_neg (by decide)]
    dsimp only
    rw [if_pos hi, if_neg (by omega), ih (by omega) (by omega) (by omega)
      (fun w hw => hws w (List.mem_cons_of_mem _ hw)) (by simp; omega), tailText_cons, fullText]
    simp

/-- The words of the gap leave one colon. -/
theorem formatLoop_gap {b : Run} {gap rest : List ℕ} (hbase : b.base ≤ i)
    (hgap : i + gap.length = b.base + b.len) :
    formatLoop src (some b) i (gap ++ rest) tmp = formatLoop src (some b) (b.base + b.len) rest
      (if i = b.base ∧ gap ≠ [] then tmp ++ [colon] else tmp) := by
  induction gap generalizing i tmp with
  | nil =>
    rw [if_neg (by simp), List.nil_append, ← hgap]
    rfl
  | cons w gap ih =>
    rw [List.length_cons] at hgap
    have hcovered : ((some b).any fun b => b.base ≤ i ∧ i < b.base + b.len) = true := by
      simp; omega
    rw [List.cons_append, formatLoop, hcovered, if_pos rfl, ih (by omega) (by omega)]
    have hnext : ¬ (i + 1 = b.base ∧ gap ≠ []) := by omega
    rw [if_neg hnext]
    by_cases hi : i = b.base
    · simp [hi]
    · simp [hi]

/-- Before the gap the words are written one by one. -/
theorem formatLoop_before {b : Run} {pre rest : List ℕ} (hpre : i + pre.length = b.base) :
    formatLoop src (some b) i (pre ++ rest) tmp = formatLoop src (some b) b.base rest
      (tmp ++ if i = 0 then fullText pre else tailText pre) := by
  induction pre generalizing i tmp with
  | nil =>
    rw [List.nil_append, ← hpre]
    simp [fullText, tailText]
  | cons w pre ih =>
    rw [List.length_cons] at hpre
    have hcovered : ((some b).any fun b => b.base ≤ i ∧ i < b.base + b.len) = false := by
      simp; omega
    have hquad : b.encapsulates (words src) = false := by
      have hbase : b.base ≠ 0 := by omega
      simp [Run.encapsulates, hbase]
    have hdotted : ¬ (i = 6 ∧ ((some b).any fun b => b.encapsulates (words src)) = true) := by
      simp [hquad]
    rw [List.cons_append, formatLoop, hcovered, if_neg (by decide)]
    dsimp only
    rw [if_neg hdotted, ih (by omega), if_neg (Nat.succ_ne_zero i)]
    by_cases hi : i = 0
    · rw [if_neg (not_not.mpr hi), if_pos hi, fullText, List.append_assoc]
    · rw [if_pos hi, if_neg hi, tailText_cons, fullText]
      simp

/-! ## The function against the grammar -/

/-- Words in order with the run of zeros between them. -/
theorem words_eq (hr : IsRun ws r) :
    ws = ws.take r.base ++ (List.replicate r.len 0 ++ ws.drop (r.base + r.len)) := by
  have hgap : (ws.drop r.base).take r.len = List.replicate r.len 0 := by
    refine List.ext_getElem? fun i => ?_
    by_cases hi : i < r.len
    · rw [List.getElem?_take_of_lt hi, List.getElem?_drop, hr.zero _ (by omega) (by omega),
        List.getElem?_replicate, if_pos hi]
    · rw [List.getElem?_take_eq_none (by omega), List.getElem?_replicate, if_neg hi]
  have hsplit := List.take_append_drop r.len (ws.drop r.base)
  rw [hgap, List.drop_drop] at hsplit
  rw [hsplit, List.take_append_drop]

section Gap

variable {b : Run}

/-- The words before a gap. -/
def before (src : Ip6) (b : Run) : List ℕ := (words src).take b.base

/-- The words behind a gap. -/
def behind (src : Ip6) (b : Run) : List ℕ := (words src).drop (b.base + b.len)

theorem lt_of_mem_words (h : w ∈ words src) : w < 0x10000 := lt_of_mem_pairs h

theorem lt_of_mem_before (h : w ∈ before src b) : w < 0x10000 :=
  lt_of_mem_words (List.mem_of_mem_take h)

theorem lt_of_mem_behind (h : w ∈ behind src b) : w < 0x10000 :=
  lt_of_mem_words (List.mem_of_mem_drop h)

theorem length_behind (src : Ip6) (b : Run) : (behind src b).length = 8 - (b.base + b.len) := by
  rw [behind, List.length_drop, length_words]

/-- The gap stands for the zeros between the words before and behind it. -/
theorem denotes_gap (hrun : IsRun (words src) b) {s : List UInt8}
    (h : OptGroups true s (bytes (behind src b))) :
    Denotes (fullText (before src b) ++ colon :: colon :: s) src := by
  have hpos := hrun.pos
  refine .gap (optGroups_fullText false fun w => lt_of_mem_before) h
    (show 0 < 2 * b.len by omega) ?_
  have hsplit := congrArg bytes (words_eq hrun)
  rw [bytes_append, bytes_append, bytes_replicate, bytes_words] at hsplit
  rw [hsplit, List.append_assoc]
  rfl

/-- The loop up to the end of a gap. -/
theorem formatLoop_run (hrun : IsRun (words src) b) :
    formatLoop src (some b) 0 (words src) [] = formatLoop src (some b) (b.base + b.len)
      (behind src b) (fullText (before src b) ++ [colon]) := by
  have hpos := hrun.pos
  have hend := hrun.le_length
  have hpre : 0 + ((words src).take b.base).length = b.base := by
    rw [List.length_take]
    omega
  have hgap : List.replicate b.len 0 ≠ [] := by
    rw [Ne, List.replicate_eq_nil_iff]
    omega
  nth_rewrite 1 [words_eq hrun]
  rw [formatLoop_before hpre, if_pos rfl, List.nil_append,
    formatLoop_gap (Nat.le_refl _) (by rw [List.length_replicate]), if_pos ⟨rfl, hgap⟩]
  rfl

theorem length_fullText_before_le (src : Ip6) (b : Run) :
    (fullText (before src b)).length ≤ 5 * b.base := by
  have hle := length_fullText_le fun w (hw : w ∈ before src b) => lt_of_mem_before hw
  have hlength : (before src b).length ≤ b.base := by
    rw [before, List.length_take]
    exact Nat.min_le_left _ _
  omega

/-- An embedded address behind the gap. -/
theorem formatLoop_encapsulated (hrun : IsRun (words src) b) (hsix : b.base + b.len ≤ 6)
    (hquad : b.encapsulates (words src) = true) : ∃ s,
    formatLoop src (some b) 0 (words src) [] =
      .ok (fullText (before src b) ++ colon :: colon :: s) ∧
      OptGroups true s (bytes (behind src b)) ∧ s.length ≤ 20 ∧ b.base = 0 := by
  have hbase : b.base = 0 ∧ 5 ≤ b.len := by
    simp only [Run.encapsulates, decide_eq_true_eq] at hquad
    omega
  let mid := (behind src b).take (6 - (b.base + b.len))
  have hsplit : mid ++ (words src).drop 6 = behind src b := by
    rw [← List.take_append_drop (6 - (b.base + b.len)) (behind src b), behind, List.drop_drop,
      show b.base + b.len + (6 - (b.base + b.len)) = 6 by omega]
    rfl
  have hmid : mid.length = 6 - (b.base + b.len) := by
    rw [List.length_take, length_behind]
    omega
  have hvalues : ∀ w ∈ mid, w < 0x10000 := fun w hw => lt_of_mem_behind (List.mem_of_mem_take hw)
  obtain ⟨w, rest, hcons⟩ := List.exists_cons_of_length_eq_add_one
    (show ((words src).drop 6).length = 1 + 1 by rw [List.length_drop, length_words])
  obtain ⟨s, hs, hgroups⟩ := groups_dotted (lastFour src) hvalues
  have hbefore := length_fullText_before_le src b
  have hroom : (fullText (before src b) ++ [colon]).length + 5 * mid.length + 17 ≤ addrstrlen := by
    rw [List.length_append, List.length_singleton, addrstrlen]
    omega
  have hdotted : formatLoop src (some b) (b.base + b.len) (mid ++ w :: rest)
      (fullText (before src b) ++ [colon]) = _ :=
    formatLoop_dotted hquad (by omega) (Nat.le_refl _) (by rw [hmid]; omega) hvalues hroom
  rw [← hcons, hsplit, hs, List.append_assoc] at hdotted
  refine ⟨s, (formatLoop_run hrun).trans hdotted, .inr ?_, ?_, hbase.1⟩
  · rw [← hsplit, bytes_append, bytes_lastFour]
    exact hgroups
  · have hlength := congrArg List.length hs
    have htail := length_tailText_le hvalues
    have hlast := length_dotted (lastFour src)
    rw [List.length_append, List.length_cons, List.length_cons] at hlength
    omega

/-- Plain words behind the gap, with the colon that a gap at the end needs. -/
theorem formatLoop_plain (hrun : IsRun (words src) b)
    (hquad : b.base + b.len ≤ 6 → b.encapsulates (words src) = false) : ∃ s t,
    formatLoop src (some b) 0 (words src) [] = .ok t ∧
      (if b.base + b.len = 8 then t ++ [colon] else t) =
        fullText (before src b) ++ colon :: colon :: s ∧
      OptGroups true s (bytes (behind src b)) ∧ s.length ≤ 5 * (8 - (b.base + b.len)) := by
  have hpos := hrun.pos
  have hafter : formatLoop src (some b) (b.base + b.len) (behind src b)
      (fullText (before src b) ++ [colon]) = _ :=
    formatLoop_after (show b.base + b.len ≠ 0 by omega) fun b' hb' => by
      obtain rfl := Option.some.inj hb'
      exact ⟨Nat.le_refl _, hquad⟩
  have hlength := length_behind src b
  have hvalues : ∀ w ∈ behind src b, w < 0x10000 := fun w => lt_of_mem_behind
  refine ⟨fullText (behind src b), _, (formatLoop_run hrun).trans hafter, ?_,
    optGroups_fullText true hvalues, hlength ▸ length_fullText_le hvalues⟩
  cases hbehind : behind src b with
  | nil =>
    have hend := hrun.le_length
    rw [hbehind, List.length_nil] at hlength
    rw [length_words] at hend
    rw [if_pos (by omega)]
    simp [tailText, fullText]
  | cons w rest =>
    rw [hbehind, List.length_cons] at hlength
    rw [if_neg (by omega), tailText_cons, List.append_assoc]
    rfl

end Gap

/-- The text of an address, with the colon that a gap at the end needs. -/
theorem exists_formatLoop (src : Ip6) : ∃ t,
    formatLoop src (bestRun (words src)) 0 (words src) [] = .ok t ∧
      ∀ s, s = (if (bestRun (words src)).any fun best => best.base + best.len = 8 then t ++ [colon]
        else t) → s.length < addrstrlen ∧ Denotes s src := by
  have hlength := length_words src
  have hvalues : ∀ w ∈ words src, w < 0x10000 := fun w => lt_of_mem_words
  cases hbest : bestRun (words src) with
  | none =>
    obtain ⟨w, ws, hcons⟩ := List.exists_cons_of_length_eq_add_one hlength
    refine ⟨fullText (words src), ?_, fun s hs => ?_⟩
    · rw [hcons, formatLoop]
      exact formatLoop_after Nat.one_ne_zero nofun
    · obtain rfl : s = fullText (words src) := hs
      have hle := length_fullText_le hvalues
      rw [hlength] at hle
      refine ⟨Nat.lt_of_le_of_lt hle (by decide), .full ?_⟩
      rw [← bytes_words]
      exact groups_fullText true hvalues (by rw [hcons]; exact List.cons_ne_nil _ _)
  | some b =>
    obtain ⟨hrun, htwo, -⟩ := bestRun_some hbest
    have hend := hrun.le_length
    have hbefore := length_fullText_before_le src b
    have hany : ((some b).any fun best => best.base + best.len = 8) = true ↔ b.base + b.len = 8 :=
      decide_eq_true_iff
    by_cases hquad : b.base + b.len ≤ 6 ∧ b.encapsulates (words src) = true
    · obtain ⟨t, hloop, hgroups, hle, hbase⟩ := formatLoop_encapsulated hrun hquad.1 hquad.2
      refine ⟨_, hloop, fun s hs => ?_⟩
      rw [if_neg (fun h => by have := hany.mp h; omega)] at hs
      obtain rfl := hs
      refine ⟨?_, denotes_gap hrun hgroups⟩
      simp only [List.length_append, List.length_cons, addrstrlen]
      omega
    · obtain ⟨t, tmp, hloop, htext, hgroups, hle⟩ := formatLoop_plain hrun fun hsix => by
        rw [← Bool.not_eq_true]
        exact fun henc => hquad ⟨hsix, henc⟩
      refine ⟨_, hloop, fun s hs => ?_⟩
      simp only [hany] at hs
      rw [htext] at hs
      obtain rfl := hs
      refine ⟨?_, denotes_gap hrun hgroups⟩
      simp only [List.length_append, List.length_cons, addrstrlen]
      omega

/-- The text of an address fits into a buffer of 46 bytes, and denotes the address. -/
theorem exists_inetNtop6 (src : Ip6) : ∃ s, s.length < addrstrlen ∧ Denotes s src ∧
    ∀ size, inetNtop6 src size = if size ≤ s.length then .error enospc else .ok s := by
  obtain ⟨t, hloop, ht⟩ := exists_formatLoop src
  obtain ⟨hlength, hdenotes⟩ := ht _ rfl
  refine ⟨_, hlength, hdenotes, fun size => ?_⟩
  rw [inetNtop6, hloop]
  change (if size < _ + 1 then Except.error enospc else Except.ok _) = _
  simp only [Nat.lt_succ_iff]

/-! ## Results -/

/-- The words left out are the first of the longest runs of zeros that are at least two words
long, and nothing is left out where there is no such run. -/
theorem best_run_iff (ws : List ℕ) (r : Run) :
    bestRun ws = some r ↔ IsRun ws r ∧ 2 ≤ r.len ∧ ∀ r', IsRun ws r' → r.Beats r' := by
  refine ⟨bestRun_some, fun ⟨hrun, htwo, hbeats⟩ => ?_⟩
  cases hbest : bestRun ws with
  | none =>
    have := bestRun_none hbest hrun
    omega
  | some b =>
    obtain ⟨hrun', -, hbeats'⟩ := bestRun_some hbest
    have h₁ := hbeats b hrun'
    have h₂ := hbeats' r hrun
    obtain ⟨base, len⟩ := b
    obtain ⟨base', len'⟩ := r
    unfold Run.Beats at h₁ h₂
    dsimp only at h₁ h₂
    have hbase : base = base' := by omega
    have hlen : len = len' := by omega
    rw [hbase, hlen]

/-- Every address is printed, in a buffer of 46 bytes and in no smaller one than its text needs, and
what is printed is read as the address again. -/
theorem inet_ntop6_round_trips (src : Ip6) : ∃ s, s.length < addrstrlen ∧
    inetPton6 s = some src ∧
    ∀ size, inetNtop6 src size = if size ≤ s.length then .error enospc else .ok s := by
  obtain ⟨s, hlength, hdenotes, hprint⟩ := exists_inetNtop6 src
  exact ⟨s, hlength, inetPton6_of_denotes hdenotes, hprint⟩

end Zuvloop.Presentation
