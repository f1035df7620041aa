import XmipIdentify.JwtClaims

/-!
# The number a numeric claim is

A number member is held whole, below zero, or as the double its digits were
rounded to when they were read. Its claim is the number held, without its
fraction and within what 64 bits can say: of two numbers held, the smaller is
never the later time.
-/

namespace XmipIdentify

open Str

set_option autoImplicit false

namespace Number

/-- The number held. -/
def value : Number → ℚ
  | .posInt n => n.toNat
  | .negInt n => n.toInt
  | .float bits _ => Binary64.value bits

/-- The whole number of 64 bits next to `n`. -/
def clamp (n : ℤ) : ℤ := max (-2 ^ 63) (min (2 ^ 63 - 1) n)

theorem clamp_mono {n m : ℤ} (h : n ≤ m) : clamp n ≤ clamp m :=
  max_le_max_left _ (min_le_min_left _ h)

theorem clamp_of_mem {n : ℤ} (hLow : -2 ^ 63 ≤ n) (hHigh : n < 2 ^ 63) : clamp n = n := by
  rw [clamp]
  omega

theorem clamp_of_le {n : ℤ} (h : 2 ^ 63 ≤ n) : clamp n = 2 ^ 63 - 1 := by
  rw [clamp]
  omega

theorem toInt_saturate (n : ℤ) : (saturate n).toInt = clamp n := by
  rw [saturate, clamp]
  split
  · rename_i hLow
    have hMin : Int64.minValue.toInt = -2 ^ 63 := rfl
    omega
  · split
    · have hMax : Int64.maxValue.toInt = 2 ^ 63 - 1 := rfl
      omega
    · rw [Int64.toInt_ofInt_of_le (by omega) (by omega)]
      omega

theorem truncate_eq_trunc {bits : UInt64} (hFinite : Binary64.Finite bits) :
    truncate bits = Binary64.trunc (Binary64.value bits) := by
  have hNaN : (Binary64.exponent bits = 0 ∨ Binary64.exponent bits = 2047 ∧
      Binary64.fraction bits ≠ 0) ↔ Binary64.exponent bits = 0 :=
    or_iff_left fun h => hFinite h.1
  rw [Binary64.trunc_value, Binary64.quotient_eq, truncate]
  simp only [hNaN]

theorem toInt_castI64 {bits : UInt64} (hFinite : Binary64.Finite bits) :
    (castI64 bits).toInt = clamp (Binary64.trunc (Binary64.value bits)) := by
  rw [castI64, toInt_saturate, truncate_eq_trunc hFinite]

/-- A whole number that 64 bits and a sign cannot say has a double they cannot say either. -/
theorem toInt_castI64_ofNat {n : UInt64} (h : 2 ^ 63 ≤ n.toNat) :
    (castI64 (Binary64.ofNat n.toNat)).toInt = 2 ^ 63 - 1 := by
  have hLog : n.toNat.log2 = 63 := by
    rw [Nat.log2_eq_iff (by omega)]
    exact ⟨h, n.toNat_lt⟩
  obtain ⟨hExponent, hExponent', hSign⟩ :=
    @Binary64.ofNat_bits n.toNat (by omega) (by omega)
  have hFinite : Binary64.Finite (Binary64.ofNat n.toNat) := by
    rw [Binary64.Finite]
    omega
  rw [toInt_castI64 hFinite, clamp_of_le]
  exact Binary64.two_pow_le_trunc hSign (by omega)

/-- `as_i64`, else `as_f64` cast, comes to one formula: a whole number that `as_i64` refuses is
held to 64 bits by way of its double. -/
theorem exists_seconds (number : Number) :
    ∃ seconds, number.asI64.or (number.asF64.map castI64) = some seconds ∧
      seconds.toInt = clamp (Binary64.trunc number.value) := by
  cases number with
  | posInt n =>
    have hCast : Number.value (.posInt n) = ((n.toNat : ℤ) : ℚ) := (Int.cast_natCast _).symm
    rw [hCast, Binary64.trunc_intCast, asI64]
    split
    · rename_i hSmall
      refine ⟨_, rfl, ?_⟩
      rw [Int64.toInt_ofInt_of_le (by omega) (by omega), clamp_of_mem (by omega) (by omega)]
    · rename_i hLarge
      refine ⟨_, rfl, ?_⟩
      rw [toInt_castI64_ofNat (by omega), clamp_of_le (by omega)]
  | negInt n =>
    refine ⟨n, rfl, ?_⟩
    rw [value, Binary64.trunc_intCast, clamp_of_mem (Int64.le_toInt n) (Int64.toInt_lt n)]
  | float bits finite => exact ⟨_, rfl, toInt_castI64 finite⟩

end Number

namespace Compact

theorem exists_numericClaim {compact : Compact} {name : Text} {number : Number}
    (h : compact.claims.get name = some (.number number)) :
    ∃ seconds, compact.numericClaim name = some seconds ∧
      seconds.toInt = Number.clamp (Binary64.trunc number.value) := by
  rw [numericClaim, h]
  exact number.exists_seconds

theorem numericClaim_eq_some_iff (compact : Compact) (name : Text) (seconds : Int64) :
    compact.numericClaim name = some seconds ↔
      ∃ number, compact.claims.get name = some (.number number) ∧
        seconds.toInt = Number.clamp (Binary64.trunc number.value) := by
  constructor
  · intro h
    obtain ⟨value, hGet, hSeconds⟩ := Option.bind_eq_some_iff.mp h
    cases value with
    | number number =>
      obtain ⟨found, hFound, hExact⟩ := exists_numericClaim hGet
      cases h.symm.trans hFound
      exact ⟨number, hGet, hExact⟩
    | _ => cases hSeconds
  · rintro ⟨number, hGet, hExact⟩
    obtain ⟨found, hFound, hFoundExact⟩ := exists_numericClaim hGet
    rw [hFound, Int64.toInt_inj.mp (hExact.trans hFoundExact.symm)]

/-- A numeric claim is the number that is held, rounded toward zero and kept to 64 bits, so of two
numbers held the smaller is never read as the later time. -/
theorem numeric_claim_exact {compact compact' : Compact} {name name' : Text}
    {number number' : Number} (h : compact.claims.get name = some (.number number))
    (h' : compact'.claims.get name' = some (.number number')) :
    ∃ seconds seconds', compact.numericClaim name = some seconds ∧
      compact'.numericClaim name' = some seconds' ∧
      seconds.toInt = Number.clamp (Binary64.trunc number.value) ∧
      (number.value ≤ number'.value → seconds ≤ seconds') := by
  obtain ⟨seconds, hSeconds, hExact⟩ := exists_numericClaim h
  obtain ⟨seconds', hSeconds', hExact'⟩ := exists_numericClaim h'
  refine ⟨seconds, seconds', hSeconds, hSeconds', hExact, ?_⟩
  intro hValue
  rw [Int64.le_iff_toInt_le, hExact, hExact']
  apply Number.clamp_mono
  exact Binary64.trunc_mono hValue

/-- An `exp` written with a fraction and a whole one a second later. -/
theorem numeric_claim_exact_fraction :
    let early : Compact := ⟨.empty, OrderedMap.empty.insert "exp".toList
      (.number (.float 0x41d954fc40200000 (by decide))), [], []⟩
    let late : Compact := ⟨.empty, OrderedMap.empty.insert "exp".toList
      (.number (.posInt 1700000001)), [], []⟩
    ∃ seconds seconds', early.numericClaim "exp".toList = some seconds ∧
      late.numericClaim "exp".toList = some seconds' ∧ seconds.toInt = Number.clamp
        (Binary64.trunc (Number.value (.float 0x41d954fc40200000 (by decide)))) := by
  intro early late
  have hEarly : early.claims.get "exp".toList = some (.number (.float 0x41d954fc40200000 (by decide))) := by
    simp [early, OrderedMap.get_insert]
  have hLate : late.claims.get "exp".toList = some (.number (.posInt 1700000001)) := by
    simp [late, OrderedMap.get_insert]
  obtain ⟨seconds, seconds', h, h', hExact, _⟩ :=
    numeric_claim_exact hEarly hLate
  exact ⟨seconds, seconds', h, h', hExact⟩

end Compact

end XmipIdentify
