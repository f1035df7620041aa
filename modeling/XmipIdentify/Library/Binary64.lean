import Mathlib.Data.Rat.Floor
import Mathlib.Tactic.Linarith
import Mathlib.Tactic.Positivity

/-!
# Doubles by their bits

A finite double is its significand times a power of two over 2^1075, with a
sign. Rounding toward zero takes the same quotient among the naturals, and
keeps the order of the numbers it rounds. A whole number rounded to a double
keeps its highest bit.
-/

namespace Binary64

set_option autoImplicit false

def exponent (bits : UInt64) : Nat := bits.toNat / 2 ^ 52 % 2 ^ 11

def fraction (bits : UInt64) : Nat := bits.toNat % 2 ^ 52

/-- Neither an infinity nor what is not a number. -/
def Finite (bits : UInt64) : Prop := exponent bits ≠ 2047

instance (bits : UInt64) : Decidable (Finite bits) := inferInstanceAs (Decidable (_ ≠ _))

/-- The significand, and the power of two it is scaled by, counted from 2^(-1075). -/
def significand (bits : UInt64) : Nat := if exponent bits = 0 then fraction bits else 2 ^ 52 + fraction bits

def scale (bits : UInt64) : Nat := max (exponent bits) 1

def magnitude (bits : UInt64) : ℚ := ((significand bits * 2 ^ scale bits : ℕ) : ℚ) / ((2 ^ 1075 : ℕ) : ℚ)

def value (bits : UInt64) : ℚ := if 2 ^ 63 ≤ bits.toNat then -magnitude bits else magnitude bits

/-- A natural number over 2^shift, rounded to the nearest; halfway, to the even one. -/
def nearest (n shift : Nat) : Nat :=
  if 2 * (n % 2 ^ shift) < 2 ^ shift ∨ 2 * (n % 2 ^ shift) = 2 ^ shift ∧ n / 2 ^ shift % 2 = 0 then
    n / 2 ^ shift
  else n / 2 ^ shift + 1

/-- The double nearest to a natural number below 2^1022. A significand that is rounded up to 2^53
carries into the exponent. -/
def ofNat (n : Nat) : UInt64 :=
  if n = 0 then 0
  else if n.log2 ≤ 52 then UInt64.ofNat ((1022 + n.log2) * 2 ^ 52 + n * 2 ^ (52 - n.log2))
  else UInt64.ofNat ((1022 + n.log2) * 2 ^ 52 + nearest n (n.log2 - 52))

/-- The sign bit stands before the magnitude. -/
def ofInt (n : ℤ) : UInt64 :=
  if n < 0 then 0x8000000000000000 + ofNat n.natAbs else ofNat n.natAbs

/-- Rounding toward zero. -/
def trunc (q : ℚ) : ℤ := if 0 ≤ q then ⌊q⌋ else ⌈q⌉

theorem trunc_of_nonneg {q : ℚ} (h : 0 ≤ q) : trunc q = ⌊q⌋ := if_pos h

theorem trunc_neg (q : ℚ) : trunc (-q) = -trunc q := by
  rcases lt_trichotomy q 0 with h | rfl | h
  · rw [trunc_of_nonneg (by linarith), trunc, if_neg (by linarith), Int.floor_neg]
  · simp [trunc]
  · rw [trunc, if_neg (by linarith), trunc_of_nonneg h.le, Int.ceil_neg]

@[simp] theorem trunc_intCast (n : ℤ) : trunc n = n := by
  rw [trunc]
  split
  · exact Int.floor_intCast n
  · exact Int.ceil_intCast n

theorem trunc_mono {a b : ℚ} (h : a ≤ b) : trunc a ≤ trunc b := by
  by_cases ha : 0 ≤ a
  · rw [trunc_of_nonneg ha, trunc_of_nonneg (ha.trans h)]
    exact Int.floor_mono h
  · rw [trunc, if_neg ha]
    by_cases hb : 0 ≤ b
    · rw [trunc_of_nonneg hb]
      calc ⌈a⌉
        _ ≤ 0 := Int.ceil_le.mpr (by push_cast; linarith)
        _ ≤ ⌊b⌋ := Int.floor_nonneg.mpr hb
    · rw [trunc, if_neg hb]
      exact Int.ceil_mono h

theorem magnitude_nonneg (bits : UInt64) : 0 ≤ magnitude bits := by
  rw [magnitude]
  positivity

theorem trunc_magnitude (bits : UInt64) :
    trunc (magnitude bits) = ((significand bits * 2 ^ scale bits / 2 ^ 1075 : ℕ) : ℤ) := by
  rw [trunc_of_nonneg (magnitude_nonneg bits), magnitude, Rat.floor_natCast_div_natCast]
  exact (Int.natCast_div _ _).symm

theorem trunc_value (bits : UInt64) :
    trunc (value bits) = if 2 ^ 63 ≤ bits.toNat then
      -((significand bits * 2 ^ scale bits / 2 ^ 1075 : ℕ) : ℤ)
    else ((significand bits * 2 ^ scale bits / 2 ^ 1075 : ℕ) : ℤ) := by
  rw [value]
  split
  · rw [trunc_neg, trunc_magnitude]
  · rw [trunc_magnitude]

theorem fraction_lt (bits : UInt64) : fraction bits < 2 ^ 52 := Nat.mod_lt _ (by decide)

/-- Below the normal numbers nothing is left of a double, and above 2^52 nothing is lost. -/
theorem quotient_eq (bits : UInt64) :
    significand bits * 2 ^ scale bits / 2 ^ 1075 =
      if exponent bits = 0 then 0
      else if 1075 ≤ exponent bits then (2 ^ 52 + fraction bits) * 2 ^ (exponent bits - 1075)
      else (2 ^ 52 + fraction bits) / 2 ^ (1075 - exponent bits) := by
  rw [significand, scale]
  split
  · rename_i hZero
    rw [hZero]
    apply Nat.div_eq_of_lt
    have hLess : fraction bits * 2 ^ max 0 1 < 2 ^ 52 * 2 ^ max 0 1 :=
      Nat.mul_lt_mul_of_pos_right (fraction_lt bits) (Nat.two_pow_pos _)
    have hPow (n : ℕ) (hn : 53 ≤ n) : 2 ^ 52 * 2 ^ max 0 1 ≤ 2 ^ n := by
      rw [← pow_add]
      exact Nat.pow_le_pow_right (by decide) hn
    exact hLess.trans_le (hPow 1075 (by decide))
  · rename_i hExponent
    rw [max_eq_left (Nat.one_le_iff_ne_zero.mpr hExponent)]
    split
    · rename_i hLarge
      have hPow : 2 ^ exponent bits = 2 ^ (exponent bits - 1075) * 2 ^ 1075 := by
        rw [← pow_add, Nat.sub_add_cancel hLarge]
      rw [hPow, ← mul_assoc, Nat.mul_div_cancel _ (Nat.two_pow_pos 1075)]
    · rename_i hSmall
      have hPow : 2 ^ 1075 = 2 ^ (1075 - exponent bits) * 2 ^ exponent bits := by
        rw [← pow_add, Nat.sub_add_cancel (by omega)]
      rw [hPow, Nat.mul_div_mul_right _ _ (Nat.two_pow_pos _)]

theorem nearest_bounds (n shift : Nat) :
    n / 2 ^ shift ≤ nearest n shift ∧ nearest n shift ≤ n / 2 ^ shift + 1 := by
  rw [nearest]
  split <;> omega

/-- A power of two that the exponent reaches is in the double. -/
theorem two_pow_le_trunc {bits : UInt64} {k : ℕ} (hSign : bits.toNat < 2 ^ 63)
    (h : 1023 + k ≤ exponent bits) : 2 ^ k ≤ trunc (value bits) := by
  have hPow : 2 ^ k ≤ significand bits * 2 ^ scale bits / 2 ^ 1075 := by
    rw [Nat.le_div_iff_mul_le (Nat.two_pow_pos _), significand, scale, if_neg (by omega)]
    calc 2 ^ k * 2 ^ 1075
      _ = 2 ^ 52 * 2 ^ (1023 + k) := by
        rw [← pow_add, ← pow_add, Nat.add_comm k 1075, ← Nat.add_assoc 52 1023 k]
      _ ≤ _ := Nat.mul_le_mul (Nat.le_add_right _ _)
        (Nat.pow_le_pow_right (by decide) (h.trans (le_max_left _ _)))
  rw [trunc_value, if_neg (by omega)]
  exact_mod_cast hPow

/-- The exponent of a double that is rounded from a natural number says its highest bit, or one
more where the rounding carries. -/
theorem ofNat_bits {n : ℕ} (hLow : 52 < n.log2) (hHigh : n.log2 < 1022) :
    1023 + n.log2 ≤ exponent (ofNat n) ∧ exponent (ofNat n) ≤ 1024 + n.log2 ∧
      (ofNat n).toNat < 2 ^ 63 := by
  have hNe : n ≠ 0 := by
    rintro rfl
    exact absurd hLow (by decide)
  have hShift : 52 + (n.log2 - 52) = n.log2 := by omega
  have hQuotient : 2 ^ 52 ≤ n / 2 ^ (n.log2 - 52) := by
    rw [Nat.le_div_iff_mul_le (Nat.two_pow_pos _), ← Nat.pow_add, hShift]
    exact Nat.log2_self_le hNe
  have hQuotient' : n / 2 ^ (n.log2 - 52) < 2 ^ 53 := by
    rw [Nat.div_lt_iff_lt_mul (Nat.two_pow_pos _), ← Nat.pow_add]
    have hExponent : 53 + (n.log2 - 52) = n.log2 + 1 := by omega
    rw [hExponent]
    exact Nat.lt_log2_self
  obtain ⟨hDown, hUp⟩ := nearest_bounds n (n.log2 - 52)
  have hBits : (ofNat n).toNat = (1022 + n.log2) * 2 ^ 52 + nearest n (n.log2 - 52) := by
    rw [ofNat, if_neg hNe, if_neg (by omega), UInt64.toNat_ofNat', Nat.mod_eq_of_lt (by omega)]
  rw [exponent, hBits]
  omega

/-- Rounded up to 2^64. -/
example : ofNat (2 ^ 64 - 1) = 0x43f0000000000000 := by decide

end Binary64
