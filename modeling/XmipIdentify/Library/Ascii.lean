import XmipIdentify.Library.Str

/-!
# The ASCII part of UTF-8

A character below 128 is one byte, its code, and no other character has such
a byte in its encoding. So ASCII is found in the bytes of a text exactly where
it stands in the text.
-/

namespace Str

set_option autoImplicit false

def asciiByte (c : Char) : UInt8 := UInt8.ofNat c.toNat

def asciiChar (b : UInt8) : Char := Char.ofNat b.toNat

theorem toNat_asciiByte {c : Char} (h : c.toNat < 128) : (asciiByte c).toNat = c.toNat := by
  rw [asciiByte, UInt8.toNat_ofNat']
  omega

theorem asciiChar_asciiByte {c : Char} (h : c.toNat < 128) : asciiChar (asciiByte c) = c := by
  rw [asciiChar, toNat_asciiByte h, Char.ofNat_toNat]

theorem toNat_asciiChar {b : UInt8} (h : b.toNat < 128) : (asciiChar b).toNat = b.toNat := by
  have hValid : b.toNat.isValidChar := .inl (by omega)
  rw [asciiChar, Char.ofNat, dif_pos hValid]
  rfl

theorem utf8EncodeChar_of_ascii {c : Char} (h : c.toNat < 128) :
    String.utf8EncodeChar c = [asciiByte c] := by
  have hBound : c.val.toNat ≤ 0x7f := Nat.le_of_lt_succ h
  rw [String.utf8EncodeChar, if_pos hBound]
  rfl

/-- Every byte of a longer encoding has its high bit set. -/
theorem utf8EncodeChar_high {c : Char} (h : 128 ≤ c.toNat) :
    ∀ b ∈ String.utf8EncodeChar c, 128 ≤ b.toNat := by
  have hBound : ¬c.val.toNat ≤ 0x7f := Nat.not_le_of_lt h
  rw [String.utf8EncodeChar, if_neg hBound]
  intro b hb
  split at hb
  · simp only [List.mem_cons, List.not_mem_nil, or_false] at hb
    rcases hb with rfl | rfl <;> rw [UInt8.toNat_ofNat'] <;> omega
  · split at hb
    · simp only [List.mem_cons, List.not_mem_nil, or_false] at hb
      rcases hb with rfl | rfl | rfl <;> rw [UInt8.toNat_ofNat'] <;> omega
    · simp only [List.mem_cons, List.not_mem_nil, or_false] at hb
      rcases hb with rfl | rfl | rfl | rfl <;> rw [UInt8.toNat_ofNat'] <;> omega

theorem toUtf8_cons (c : Char) (text : Text) :
    toUtf8 (c :: text) = String.utf8EncodeChar c ++ toUtf8 text := List.flatMap_cons

theorem toUtf8_append (text other : Text) : toUtf8 (text ++ other) = toUtf8 text ++ toUtf8 other :=
  List.flatMap_append

theorem toUtf8_of_ascii {text : Text} (h : ∀ c ∈ text, c.toNat < 128) :
    toUtf8 text = text.map asciiByte := by
  induction text with
  | nil => rfl
  | cons c rest ih =>
    obtain ⟨hc, hRest⟩ := List.forall_mem_cons.mp h
    rw [toUtf8_cons, utf8EncodeChar_of_ascii hc, ih hRest]
    rfl

theorem length_le_toUtf8 (text : Text) : text.length ≤ (toUtf8 text).length := by
  induction text with
  | nil => exact Nat.le_refl 0
  | cons c rest ih =>
    have hc := List.length_pos_iff.mpr (@String.utf8EncodeChar_ne_nil c)
    rw [toUtf8_cons, List.length_append, List.length_cons]
    omega

theorem asciiByte_mem_toUtf8_iff {c : Char} (h : c.toNat < 128) (text : Text) :
    asciiByte c ∈ toUtf8 text ↔ c ∈ text := by
  rw [toUtf8, List.mem_flatMap]
  constructor
  · rintro ⟨d, hd, hByte⟩
    rcases Nat.lt_or_ge d.toNat 128 with hLow | hHigh
    · rw [utf8EncodeChar_of_ascii hLow, List.mem_singleton] at hByte
      rwa [← asciiChar_asciiByte h, hByte, asciiChar_asciiByte hLow]
    · have := utf8EncodeChar_high hHigh _ hByte
      rw [toNat_asciiByte h] at this
      omega
  · intro hc
    exact ⟨c, hc, by rw [utf8EncodeChar_of_ascii h]; exact List.mem_singleton_self _⟩

/-- Bytes below 128 at the front are characters at the front. -/
theorem eq_append_of_toUtf8_eq {front back : Bytes} {text : Text}
    (hFront : ∀ b ∈ front, b.toNat < 128) (h : toUtf8 text = front ++ back) :
    ∃ rest, text = front.map asciiChar ++ rest ∧ toUtf8 rest = back := by
  induction front generalizing text with
  | nil => exact ⟨text, rfl, h⟩
  | cons b front ih =>
    obtain ⟨hb, hLater⟩ := List.forall_mem_cons.mp hFront
    cases text with
    | nil => cases h
    | cons c text =>
      rw [toUtf8_cons] at h
      rcases Nat.lt_or_ge c.toNat 128 with hLow | hHigh
      · rw [utf8EncodeChar_of_ascii hLow] at h
        obtain ⟨rfl, hTail⟩ := List.cons.inj h
        obtain ⟨rest, rfl, hRest⟩ := ih hLater hTail
        exact ⟨rest, by rw [List.map_cons, asciiChar_asciiByte hLow]; rfl, hRest⟩
      · obtain ⟨head, tail, hEncode⟩ := List.exists_cons_of_ne_nil (@String.utf8EncodeChar_ne_nil c)
        rw [hEncode] at h
        obtain ⟨rfl, _⟩ := List.cons.inj h
        have := utf8EncodeChar_high hHigh head (by rw [hEncode]; exact List.mem_cons_self)
        omega

theorem utf8Size_of_ascii {c : Char} (h : c.toNat < 128) : c.utf8Size = 1 := by
  rw [← String.length_utf8EncodeChar, utf8EncodeChar_of_ascii h]
  rfl

theorem splitAtByte_append {before : Text} (h : ∀ c ∈ before, c.toNat < 128) (after : Text) :
    splitAtByte before.length (before ++ after) = some (before, after) := by
  induction before with
  | nil => rw [List.length_nil, List.nil_append, splitAtByte]
  | cons c before ih =>
    obtain ⟨hc, hBefore⟩ := List.forall_mem_cons.mp h
    rw [List.length_cons, List.cons_append, splitAtByte, utf8Size_of_ascii hc,
      if_pos (Nat.le_add_left 1 _), Nat.add_sub_cancel, ih hBefore]
    rfl

/-- In ASCII the bytes are counted by the characters. -/
theorem getRange_append {before piece : Text} (hBefore : ∀ c ∈ before, c.toNat < 128)
    (hPiece : ∀ c ∈ piece, c.toNat < 128) (after : Text) :
    getRange (before ++ (piece ++ after)) before.length (before.length + piece.length) =
      some piece := by
  rw [getRange, if_neg (Nat.not_lt.mpr (Nat.le_add_right _ _)), Nat.add_sub_cancel_left,
    splitAtByte_append hBefore]
  simp only [Option.bind_eq_bind, Option.bind_some, splitAtByte_append hPiece]
  rfl

end Str
