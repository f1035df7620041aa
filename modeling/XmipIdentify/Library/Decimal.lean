import Mathlib

/-!
# Decimals of fixed width

Numbers written in a fixed number of digits each, one after the other. The
lexicographic order of what is written is the lexicographic order of the
numbers, and digits read back as the number they were written for.
-/

namespace Decimal

set_option autoImplicit false

variable {α β : Type}

/-- The last `width` digits of `n`, the highest first. -/
def padded (digit : Nat → α) : Nat → Nat → List α
  | 0, _ => []
  | width + 1, n => padded digit width (n / 10) ++ [digit (n % 10)]

/-- Fields, each a width and a number. -/
def written (digit : Nat → α) (fields : List (Nat × Nat)) : List α :=
  fields.flatMap fun (width, n) => padded digit width n

@[simp] theorem length_padded (digit : Nat → α) (width n : Nat) :
    (padded digit width n).length = width := by
  induction width generalizing n with
  | zero => rfl
  | succ width ih => rw [padded, List.length_append, ih, List.length_singleton]

theorem map_padded (f : α → β) (digit : Nat → α) (width n : Nat) :
    (padded digit width n).map f = padded (fun d => f (digit d)) width n := by
  induction width generalizing n with
  | zero => rfl
  | succ width ih => rw [padded, padded, List.map_append, ih, List.map_singleton]

theorem map_written (f : α → β) (digit : Nat → α) (fields : List (Nat × Nat)) :
    (written digit fields).map f = written (fun d => f (digit d)) fields := by
  rw [written, written, List.map_flatMap]
  simp only [map_padded]

theorem forall_mem_padded {P : α → Prop} {digit : Nat → α} (h : ∀ d < 10, P (digit d))
    (width n : Nat) : ∀ a ∈ padded digit width n, P a := by
  induction width generalizing n with
  | zero => simp [padded]
  | succ width ih =>
    intro a ha
    rcases List.mem_append.mp ha with ha | ha
    · exact ih (n / 10) a ha
    · rw [List.mem_singleton.mp ha]
      exact h _ (Nat.mod_lt n (by decide))

theorem written_cons (digit : Nat → α) (width n : Nat) (rest : List (Nat × Nat)) :
    written digit ((width, n) :: rest) = padded digit width n ++ written digit rest :=
  List.flatMap_cons

theorem length_written (digit : Nat → α) (fields : List (Nat × Nat)) :
    (written digit fields).length = (fields.map Prod.fst).sum := by
  rw [written, List.length_flatMap]
  simp only [length_padded]

section Order

variable [LT α]

theorem append_lt_append_iff {l l' : List α} (h : l.length = l'.length) (r r' : List α) :
    l ++ r < l' ++ r' ↔ l < l' ∨ l = l' ∧ r < r' := by
  induction l generalizing l' with
  | nil =>
    obtain rfl := List.length_eq_zero_iff.mp h.symm
    simp
  | cons a l ih =>
    cases l' with
    | nil => cases h
    | cons b l' =>
      rw [List.cons_append, List.cons_append, List.cons_lt_cons_iff, List.cons_lt_cons_iff,
        ih (Nat.succ.inj h), List.cons.injEq]
      tauto

variable {digit : Nat → α} (hDigit : ∀ d e, d < e → e < 10 → digit d < digit e)
include hDigit

theorem padded_lt_padded {width n m : Nat} (hm : m < 10 ^ width) (h : n < m) :
    padded digit width n < padded digit width m := by
  induction width generalizing n m with
  | zero =>
    rw [Nat.pow_zero] at hm
    omega
  | succ width ih =>
    rw [padded, padded, append_lt_append_iff (by simp)]
    rw [Nat.pow_succ] at hm
    rcases Nat.lt_or_ge (n / 10) (m / 10) with hHigh | hHigh
    · exact .inl (ih (by omega) hHigh)
    · refine .inr ⟨by rw [show n / 10 = m / 10 by omega], ?_⟩
      exact List.cons_lt_cons_iff.mpr (.inl (hDigit _ _ (by omega) (by omega)))

theorem written_lt_written {fields fields' : List (Nat × Nat)}
    (hWidths : fields.map Prod.fst = fields'.map Prod.fst)
    (hBound : ∀ field ∈ fields', field.2 < 10 ^ field.1)
    (h : fields.map Prod.snd < fields'.map Prod.snd) :
    written digit fields < written digit fields' := by
  induction fields generalizing fields' with
  | nil =>
    obtain rfl := List.map_eq_nil_iff.mp hWidths.symm
    exact absurd h (List.not_lt_nil _)
  | cons field rest ih =>
    cases fields' with
    | nil => cases hWidths
    | cons field' rest' =>
      obtain ⟨width, n⟩ := field
      obtain ⟨width', m⟩ := field'
      obtain ⟨rfl, hRest⟩ := List.cons.inj hWidths
      obtain ⟨hm, hLater⟩ := List.forall_mem_cons.mp hBound
      rw [written_cons, written_cons, append_lt_append_iff (by simp)]
      rcases List.cons_lt_cons_iff.mp h with hLess | ⟨hSame, hLess⟩
      · exact .inl (padded_lt_padded hDigit hm hLess)
      · obtain rfl : n = m := hSame
        exact .inr ⟨rfl, ih hRest hLater hLess⟩

end Order

theorem ofDigitChars_concat (digits : List Char) (c : Char) :
    Nat.ofDigitChars 10 (digits ++ [c]) 0 =
      10 * Nat.ofDigitChars 10 digits 0 + (c.toNat - '0'.toNat) := by
  rw [Nat.ofDigitChars_append, Nat.ofDigitChars_cons, Nat.ofDigitChars_nil]

theorem ofDigitChars_padded {width n : Nat} (h : n < 10 ^ width) :
    Nat.ofDigitChars 10 (padded Nat.digitChar width n) 0 = n := by
  induction width generalizing n with
  | zero =>
    rw [Nat.pow_zero] at h
    rw [padded, Nat.ofDigitChars_nil]
    omega
  | succ width ih =>
    rw [Nat.pow_succ] at h
    have hDigit : (Nat.digitChar (n % 10)).toNat - '0'.toNat = n % 10 :=
      Nat.toNat_digitChar_sub_48_of_lt_ten (Nat.mod_lt n (by decide))
    rw [padded, ofDigitChars_concat, ih (by omega), hDigit]
    omega

theorem digitChar_sub {c : Char} (h : 48 ≤ c.toNat ∧ c.toNat ≤ 57) :
    Nat.digitChar (c.toNat - 48) = c := by
  have hDigit : (Nat.digitChar (c.toNat - 48)).toNat = c.toNat := by
    rw [Nat.toNat_digitChar_of_lt_ten (by omega)]
    omega
  exact Char.toNat_inj.mp hDigit

/-- Digits are what is written for the number they are read as. -/
theorem padded_ofDigitChars {digits : List Char}
    (h : ∀ c ∈ digits, 48 ≤ c.toNat ∧ c.toNat ≤ 57) :
    Nat.ofDigitChars 10 digits 0 < 10 ^ digits.length ∧
      padded Nat.digitChar digits.length (Nat.ofDigitChars 10 digits 0) = digits := by
  induction digits using List.reverseRecOn with
  | nil => exact ⟨by simp, rfl⟩
  | append_singleton digits c ih =>
    have hc := h c (by simp)
    obtain ⟨hBound, hPadded⟩ := ih fun d hd => h d (List.mem_append_left _ hd)
    have hZero : '0'.toNat = 48 := rfl
    have hHigh : (10 * Nat.ofDigitChars 10 digits 0 + (c.toNat - 48)) / 10 =
        Nat.ofDigitChars 10 digits 0 := by omega
    have hLow : (10 * Nat.ofDigitChars 10 digits 0 + (c.toNat - 48)) % 10 = c.toNat - 48 := by omega
    rw [ofDigitChars_concat, hZero, List.length_append, List.length_singleton]
    constructor
    · rw [Nat.pow_succ]
      omega
    · rw [padded, hHigh, hLow, hPadded, digitChar_sub hc]

/-- A number without leading zeros is the end of any writing of it. -/
theorem toDigits_isSuffix_padded {width n : Nat} (h : n < 10 ^ (width + 1)) :
    Nat.toDigits 10 n <:+ padded Nat.digitChar (width + 1) n := by
  induction width generalizing n with
  | zero =>
    rw [zero_add, Nat.pow_one] at h
    rw [Nat.toDigits_of_lt_base h, padded, Nat.mod_eq_of_lt h]
    exact List.suffix_append _ _
  | succ width ih =>
    rw [padded]
    rcases Nat.lt_or_ge n 10 with hSmall | hLarge
    · rw [Nat.toDigits_of_lt_base hSmall, Nat.mod_eq_of_lt hSmall]
      exact List.suffix_append _ _
    · rw [Nat.toDigits_of_base_le (by decide) hLarge, List.suffix_append_inj_of_length_eq rfl]
      rw [Nat.pow_succ] at h
      exact ⟨ih (by omega), rfl⟩

/-- Digits that fill the widths are the numbers of some fields. -/
theorem exists_written {widths : List Nat} {digits : List Char}
    (hLength : digits.length = widths.sum) (h : ∀ c ∈ digits, 48 ≤ c.toNat ∧ c.toNat ≤ 57) :
    ∃ values : List Nat, values.length = widths.length ∧
      (∀ field ∈ widths.zip values, field.2 < 10 ^ field.1) ∧
      digits = written Nat.digitChar (widths.zip values) := by
  induction widths generalizing digits with
  | nil => exact ⟨[], rfl, by simp, List.length_eq_zero_iff.mp hLength⟩
  | cons width widths ih =>
    rw [List.sum_cons] at hLength
    have hTake : (digits.take width).length = width := by
      rw [List.length_take]
      omega
    have hDrop : (digits.drop width).length = widths.sum := by
      rw [List.length_drop]
      omega
    obtain ⟨values, hValues, hBound, hWritten⟩ :=
      ih hDrop fun c hc => h c (List.mem_of_mem_drop hc)
    obtain ⟨hFirst, hPadded⟩ := padded_ofDigitChars fun c hc => h c (List.mem_of_mem_take hc)
    rw [hTake] at hFirst hPadded
    refine ⟨Nat.ofDigitChars 10 (digits.take width) 0 :: values, by simp [hValues], ?_, ?_⟩
    · rw [List.zip_cons_cons, List.forall_mem_cons]
      exact ⟨hFirst, hBound⟩
    · rw [List.zip_cons_cons, written_cons, hPadded, ← hWritten, List.take_append_drop]

end Decimal
