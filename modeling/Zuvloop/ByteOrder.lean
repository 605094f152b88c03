import Mathlib.Tactic.Common

/-!
# Byte order

Numbers that travel in network byte order: most significant byte first. On a machine that stores
the most significant byte first nothing has to be done; on one that stores it last, the bytes of a
number are reversed on the way out and on the way in.

## Main definitions

* `swap16`, `swap32`: a number with its bytes reversed;
* `Endian.network16`, `Endian.network32`: to network byte order, and back.

## Main results

* `Endian.network16_network16`, `Endian.network32_network32`: back and forth is nothing;
* `swap32_eq_self_iff`: which numbers of at most 20 bits read the same in both orders.
-/

namespace ByteOrder

/-- Which byte of a number a machine stores first. -/
inductive Endian
  /-- The least significant one. -/
  | little
  /-- The most significant one. -/
  | big
  deriving DecidableEq

/-- A number with its two bytes reversed. -/
def swap16 (x : UInt16) : UInt16 :=
  .ofNat (x.toNat % 0x100 * 0x100 + x.toNat / 0x100)

/-- A number with its four bytes reversed. -/
def swap32 (x : UInt32) : UInt32 :=
  .ofNat (x.toNat % 0x100 * 0x1000000 + x.toNat / 0x100 % 0x100 * 0x10000 +
    x.toNat / 0x10000 % 0x100 * 0x100 + x.toNat / 0x1000000)

theorem toNat_swap16 (x : UInt16) :
    (swap16 x).toNat = x.toNat % 0x100 * 0x100 + x.toNat / 0x100 := by
  have hx := x.toNat_lt
  rw [swap16, UInt16.toNat_ofNat', Nat.mod_eq_of_lt (by omega)]

/-- A number of 32 bits by its bytes, least significant first. -/
theorem exists_bytes (x : UInt32) : ∃ a < 0x100, ∃ b < 0x100, ∃ c < 0x100, ∃ d < 0x100,
    x.toNat = a + b * 0x100 + c * 0x10000 + d * 0x1000000 := by
  have hx := x.toNat_lt
  refine ⟨x.toNat % 0x100, by omega, x.toNat / 0x100 % 0x100, by omega, x.toNat / 0x10000 % 0x100,
    by omega, x.toNat / 0x1000000, by omega, by omega⟩

/-- `swap32` reverses the bytes. -/
theorem toNat_swap32 {x : UInt32} {a b c d : ℕ} (ha : a < 0x100) (hb : b < 0x100)
    (hc : c < 0x100) (hd : d < 0x100) (hx : x.toNat = a + b * 0x100 + c * 0x10000 + d * 0x1000000) :
    (swap32 x).toNat = d + c * 0x100 + b * 0x10000 + a * 0x1000000 := by
  have h₀ : x.toNat % 0x100 = a := by omega
  have h₁ : x.toNat / 0x100 % 0x100 = b := by omega
  have h₂ : x.toNat / 0x10000 % 0x100 = c := by omega
  have h₃ : x.toNat / 0x1000000 = d := by omega
  rw [swap32, UInt32.toNat_ofNat', h₀, h₁, h₂, h₃, Nat.mod_eq_of_lt (by omega)]
  omega

@[simp]
theorem swap16_swap16 (x : UInt16) : swap16 (swap16 x) = x := by
  have hx := x.toNat_lt
  apply UInt16.toNat_inj.mp
  rw [toNat_swap16, toNat_swap16]
  omega

@[simp]
theorem swap32_swap32 (x : UInt32) : swap32 (swap32 x) = x := by
  obtain ⟨a, ha, b, hb, c, hc, d, hd, hx⟩ := exists_bytes x
  apply UInt32.toNat_inj.mp
  rw [toNat_swap32 hd hc hb ha (toNat_swap32 ha hb hc hd hx), hx]

/-- Of the numbers of at most 20 bits, the multiples of `0x10100` read the same in both orders. -/
theorem swap32_eq_self_iff {x : UInt32} (h : x.toNat < 0x100000) :
    swap32 x = x ↔ 0x10100 ∣ x.toNat := by
  obtain ⟨a, ha, b, hb, c, hc, d, hd, hx⟩ := exists_bytes x
  rw [← UInt32.toNat_inj, toNat_swap32 ha hb hc hd hx, hx]
  rw [hx] at h
  -- the top byte is zero, hence the bottom byte, and the two in between are the same
  have hd₀ : d = 0 := by omega
  subst hd₀
  constructor
  · intro hswap
    have ha₀ : a = 0 := by omega
    have hbc : b = c := by omega
    exact ⟨c, by omega⟩
  · rintro ⟨k, hk⟩
    have hk₁₆ : k < 16 := by omega
    have ha₀ : a = 0 := by omega
    have hbc : b = c := by omega
    omega

namespace Endian

/-- `htons` and `ntohs`. -/
def network16 : Endian → UInt16 → UInt16
  | little, x => swap16 x
  | big, x => x

/-- `htonl` and `ntohl`. -/
def network32 : Endian → UInt32 → UInt32
  | little, x => swap32 x
  | big, x => x

@[simp]
theorem network16_network16 (e : Endian) (x : UInt16) : e.network16 (e.network16 x) = x := by
  cases e with
  | little => exact swap16_swap16 x
  | big => rfl

@[simp]
theorem network32_network32 (e : Endian) (x : UInt32) : e.network32 (e.network32 x) = x := by
  cases e with
  | little => exact swap32_swap32 x
  | big => rfl

theorem network16_injective (e : Endian) : Function.Injective e.network16 :=
  Function.LeftInverse.injective (network16_network16 e)

end Endian

end ByteOrder
