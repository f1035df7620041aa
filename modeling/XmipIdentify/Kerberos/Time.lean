import XmipIdentify.Asn1
import XmipIdentify.Library.Ascii
import XmipIdentify.Library.Calendar
import XmipIdentify.Library.Decimal

/-!
# The times of a ticket

A `KerberosTime` is fourteen digits and a `Z`. The calendar is another crate's;
what is relied on is that it knows the real dates and counts their seconds.
-/

namespace XmipIdentify

open Str Calendar

set_option autoImplicit false

/-- `codec::civil`. -/
structure Civil where
  CivilTime : Type
  new : Int64 → UInt32 → UInt32 → UInt32 → UInt32 → UInt32 → Option CivilTime
  unix : CivilTime → Int64

/-- The calendar on the years four digits can write. -/
structure Civil.Laws (civil : Civil) : Prop where
  new_isSome : ∀ (year : Nat) (month day hour minute second : UInt32), year < 10000 →
    ((civil.new (Int64.ofNat year) month day hour minute second).isSome = true ↔
      ∃ moment : Moment, moment.fields =
        [year, month.toNat, day.toNat, hour.toNat, minute.toNat, second.toNat])
  unix_new : ∀ (year : Nat) (month day hour minute second : UInt32) (civilTime : civil.CivilTime)
    (moment : Moment), year < 10000 →
    civil.new (Int64.ofNat year) month day hour minute second = some civilTime →
    moment.fields = [year, month.toNat, day.toNat, hour.toNat, minute.toNat, second.toNat] →
    (civil.unix civilTime).toInt = moment.unix

namespace Kerberos

/-- The panic of a slice whose end is out of range. -/
structure OutOfRange where
  stop : Nat
  length : Nat

/-- `&bytes[..stop]`. -/
def sliceTo (bytes : Bytes) (stop : Nat) : Except OutOfRange Bytes :=
  if stop ≤ bytes.length then .ok (bytes.take stop) else .error ⟨stop, bytes.length⟩

def number (text : Text) (start stop : Nat) : Option UInt32 :=
  (getRange text start stop).bind parseU32

variable (GENERALIZED_TIME : UInt8) (civil : Civil)

def moment (text : Text) : Option civil.CivilTime := do
  let year ← number text 0 4
  let month ← number text 4 6
  let day ← number text 6 8
  let hour ← number text 8 10
  let minute ← number text 10 12
  let second ← number text 12 14
  civil.new (Int64.ofNat year.toNat) month day hour minute second

def time (element : Element) : Except OutOfRange (Option Int64) :=
  match fromUtf8 element.content with
  | none => .ok none
  | some text =>
    if element.tag != GENERALIZED_TIME || (toUtf8 text).length != 15 ||
        text.getLast? != some 'Z' then .ok none
    else
      match sliceTo (toUtf8 text) 14 with
      | .error panic => .error panic
      | .ok digits =>
        if !digits.all byteIsAsciiDigit then .ok none
        else .ok ((moment civil text).map civil.unix)

/-- `YYYYMMDDHHMMSSZ`. -/
def spelled (fields : List Nat) : Text :=
  Decimal.written Nat.digitChar ([4, 2, 2, 2, 2, 2].zip fields) ++ ['Z']

/-- The slice is only taken where it is there. -/
theorem time_ok (element : Element) :
    ∃ read, time GENERALIZED_TIME civil element = .ok read := by
  rw [time]
  split
  · exact ⟨_, rfl⟩
  · split
    · exact ⟨_, rfl⟩
    · rename_i text _ hTest
      simp only [Bool.or_eq_true, bne_iff_ne, not_or, not_not] at hTest
      rw [sliceTo, if_pos (by omega)]
      dsimp only
      split
      · exact ⟨_, rfl⟩
      · exact ⟨_, rfl⟩

theorem isAsciiDigit_of_mem_written {fields : List (Nat × Nat)} {c : Char}
    (h : c ∈ Decimal.written Nat.digitChar fields) : isAsciiDigit c = true := by
  obtain ⟨field, _, hc⟩ := List.mem_flatMap.mp h
  have hDigit : ∀ d < 10, isAsciiDigit (Nat.digitChar d) = true := by decide
  exact Decimal.forall_mem_padded (P := fun c => isAsciiDigit c = true) hDigit _ _ c hc

theorem ascii_of_isAsciiDigit {c : Char} (h : isAsciiDigit c = true) : c.toNat < 128 := by
  have := (isAsciiDigit_iff c).mp h
  omega

/-- A field is read from where the widths before it end. -/
theorem number_field (front back : List (Nat × Nat)) {width n : Nat} (hWidth : 0 < width)
    (hFits : width ≤ 9) (hn : n < 10 ^ width) (after : Text) :
    number (Decimal.written Nat.digitChar (front ++ (width, n) :: back) ++ after)
      (front.map Prod.fst).sum ((front.map Prod.fst).sum + width) = some (UInt32.ofNat n) := by
  have hDigits : ∀ c ∈ Decimal.padded Nat.digitChar width n, isAsciiDigit c = true := by
    intro c hc
    have hMem : c ∈ Decimal.written Nat.digitChar [(width, n)] := by simpa [Decimal.written] using hc
    exact isAsciiDigit_of_mem_written hMem
  have hSplit : Decimal.written Nat.digitChar (front ++ (width, n) :: back) ++ after =
      Decimal.written Nat.digitChar front ++ (Decimal.padded Nat.digitChar width n ++
        (Decimal.written Nat.digitChar back ++ after)) := by
    simp [Decimal.written]
  have hFront : ∀ c ∈ Decimal.written Nat.digitChar front, c.toNat < 128 := fun c hc =>
    ascii_of_isAsciiDigit (isAsciiDigit_of_mem_written hc)
  have hRange := getRange_append hFront (fun c hc => ascii_of_isAsciiDigit (hDigits c hc))
    (Decimal.written Nat.digitChar back ++ after)
  rw [← hSplit, Decimal.length_padded, Decimal.length_written] at hRange
  have hValue := Decimal.ofDigitChars_padded hn
  have hPow : 10 ^ width ≤ 10 ^ 9 := Nat.pow_le_pow_right (by decide) hFits
  have hNe : Decimal.padded Nat.digitChar width n ≠ [] := by
    rw [← List.length_pos_iff, Decimal.length_padded]
    exact hWidth
  rw [number, hRange, Option.bind_some, parseU32_of_digits hDigits hNe (by rw [hValue]; omega),
    hValue]

theorem moment_spelled {year month day hour minute second : Nat}
    (h : ∀ field ∈ [4, 2, 2, 2, 2, 2].zip [year, month, day, hour, minute, second],
      field.2 < 10 ^ field.1) :
    moment civil (spelled [year, month, day, hour, minute, second]) =
      civil.new (Int64.ofNat year) (UInt32.ofNat month) (UInt32.ofNat day) (UInt32.ofNat hour)
        (UInt32.ofNat minute) (UInt32.ofNat second) := by
  simp only [List.zip_cons_cons, List.zip_nil_left, List.forall_mem_cons] at h
  obtain ⟨h1, h2, h3, h4, h5, h6, _⟩ := h
  have hYear : (UInt32.ofNat year).toNat = year := by
    rw [UInt32.toNat_ofNat']
    omega
  have e1 : number (spelled [year, month, day, hour, minute, second]) 0 4 = _ :=
    number_field [] [(2, month), (2, day), (2, hour), (2, minute), (2, second)]
      (by decide) (by decide) h1 ['Z']
  have e2 : number (spelled [year, month, day, hour, minute, second]) 4 6 = _ :=
    number_field [(4, year)] [(2, day), (2, hour), (2, minute), (2, second)]
      (by decide) (by decide) h2 ['Z']
  have e3 : number (spelled [year, month, day, hour, minute, second]) 6 8 = _ :=
    number_field [(4, year), (2, month)] [(2, hour), (2, minute), (2, second)]
      (by decide) (by decide) h3 ['Z']
  have e4 : number (spelled [year, month, day, hour, minute, second]) 8 10 = _ :=
    number_field [(4, year), (2, month), (2, day)] [(2, minute), (2, second)]
      (by decide) (by decide) h4 ['Z']
  have e5 : number (spelled [year, month, day, hour, minute, second]) 10 12 = _ :=
    number_field [(4, year), (2, month), (2, day), (2, hour)] [(2, second)]
      (by decide) (by decide) h5 ['Z']
  have e6 : number (spelled [year, month, day, hour, minute, second]) 12 14 = _ :=
    number_field [(4, year), (2, month), (2, day), (2, hour), (2, minute)] []
      (by decide) (by decide) h6 ['Z']
  rw [moment, e1, e2, e3, e4, e5, e6]
  simp only [Option.bind_eq_bind, Option.bind_some, hYear]

theorem ascii_spelled (fields : List Nat) : ∀ c ∈ spelled fields, c.toNat < 128 := by
  intro c hc
  rcases List.mem_append.mp hc with hc | hc
  · exact ascii_of_isAsciiDigit (isAsciiDigit_of_mem_written hc)
  · rw [List.mem_singleton.mp hc]
    decide

theorem length_digits {fields : List Nat} (h : fields.length = 6) :
    (Decimal.written Nat.digitChar ([4, 2, 2, 2, 2, 2].zip fields)).length = 14 := by
  rw [Decimal.length_written, List.map_fst_zip (by rw [h]; decide)]
  rfl

theorem byteIsAsciiDigit_asciiByte {c : Char} (h : isAsciiDigit c = true) :
    byteIsAsciiDigit (asciiByte c) = true := by
  have hCode := (isAsciiDigit_iff c).mp h
  have hByte := toNat_asciiByte (ascii_of_isAsciiDigit h)
  simp only [byteIsAsciiDigit, Bool.and_eq_true, decide_eq_true_eq, UInt8.le_iff_toNat_le, hByte]
  exact hCode

theorem time_spelled {fields : List Nat} (h : fields.length = 6) :
    time GENERALIZED_TIME civil ⟨GENERALIZED_TIME, toUtf8 (spelled fields)⟩ =
      .ok ((moment civil (spelled fields)).map civil.unix) := by
  have hBytes := toUtf8_of_ascii (ascii_spelled fields)
  have hLength : (toUtf8 (spelled fields)).length = 15 := by
    rw [hBytes, List.length_map, spelled, List.length_append, length_digits h]
    rfl
  have hTake : (toUtf8 (spelled fields)).take 14 =
      (Decimal.written Nat.digitChar ([4, 2, 2, 2, 2, 2].zip fields)).map asciiByte := by
    rw [hBytes, spelled, List.map_append, List.take_left' (by rw [List.length_map, length_digits h])]
  have hLast : (spelled fields).getLast? = some 'Z' := List.getLast?_concat
  have hDigits : ((toUtf8 (spelled fields)).take 14).all byteIsAsciiDigit = true := by
    rw [hTake, List.all_eq_true]
    intro b hb
    obtain ⟨c, hc, rfl⟩ := List.mem_map.mp hb
    exact byteIsAsciiDigit_asciiByte (isAsciiDigit_of_mem_written hc)
  rw [time, fromUtf8_toUtf8]
  dsimp only
  rw [hLength, hLast, if_neg (by simp), sliceTo, if_pos (by omega)]
  dsimp only
  rw [hDigits]
  rfl

/-- Fourteen digit bytes and one more byte, the text ending in `Z`. -/
theorem eq_spelled_of_digits {text : Text} (hLength : (toUtf8 text).length = 15)
    (hLast : text.getLast? = some 'Z')
    (hDigits : ((toUtf8 text).take 14).all byteIsAsciiDigit = true) :
    ∃ fields : List Nat, fields.length = 6 ∧
      (∀ field ∈ [4, 2, 2, 2, 2, 2].zip fields, field.2 < 10 ^ field.1) ∧ text = spelled fields := by
  have hCode : ∀ b ∈ (toUtf8 text).take 14, 48 ≤ b.toNat ∧ b.toNat ≤ 57 := by
    intro b hb
    have hDigit := List.all_eq_true.mp hDigits b hb
    simp only [byteIsAsciiDigit, Bool.and_eq_true, decide_eq_true_eq, UInt8.le_iff_toNat_le] at hDigit
    exact hDigit
  have hAscii : ∀ b ∈ (toUtf8 text).take 14, b.toNat < 128 := by
    intro b hb
    have := hCode b hb
    omega
  obtain ⟨rest, hText, hRest⟩ :=
    eq_append_of_toUtf8_eq hAscii (List.take_append_drop 14 (toUtf8 text)).symm
  have hShort : rest.length ≤ 1 := by
    have hBytes := length_le_toUtf8 rest
    rw [hRest, List.length_drop, hLength] at hBytes
    exact hBytes
  have hZ : rest = ['Z'] := by
    cases rest with
    | nil =>
      rw [List.append_nil] at hText
      have hMem : 'Z' ∈ ((toUtf8 text).take 14).map asciiChar := by
        rw [← hText]
        exact List.mem_of_getLast? hLast
      obtain ⟨b, hb, hChar⟩ := List.mem_map.mp hMem
      have hFound := toNat_asciiChar (hAscii b hb)
      rw [hChar] at hFound
      have := hCode b hb
      have : 'Z'.toNat = 90 := rfl
      omega
    | cons c others =>
      obtain rfl : others = [] := List.length_eq_zero_iff.mp (by simpa using hShort)
      rw [hText, List.getLast?_concat] at hLast
      rw [Option.some.inj hLast]
  have hFill : (((toUtf8 text).take 14).map asciiChar).length = [4, 2, 2, 2, 2, 2].sum := by
    rw [List.length_map, List.length_take, hLength]
    rfl
  obtain ⟨fields, hFields, hBound, hWritten⟩ := Decimal.exists_written hFill (by
    intro c hc
    obtain ⟨b, hb, rfl⟩ := List.mem_map.mp hc
    rw [toNat_asciiChar (hAscii b hb)]
    exact hCode b hb)
  exact ⟨fields, hFields, hBound, by rw [hText, hZ, hWritten, spelled]⟩

theorem time_eq_some_iff (element : Element) (seconds : Int64) :
    time GENERALIZED_TIME civil element = .ok (some seconds) ↔
      ∃ fields : List Nat, fields.length = 6 ∧
        (∀ field ∈ [4, 2, 2, 2, 2, 2].zip fields, field.2 < 10 ^ field.1) ∧
        element = ⟨GENERALIZED_TIME, toUtf8 (spelled fields)⟩ ∧
        (moment civil (spelled fields)).map civil.unix = some seconds := by
  constructor
  · intro h
    obtain ⟨tag, content⟩ := element
    rw [time] at h
    split at h
    · cases h
    · rename_i text hText
      obtain rfl := (fromUtf8_eq_some_iff content text).mp hText
      split at h
      · cases h
      · rename_i hTest
        simp only [Bool.or_eq_true, bne_iff_ne, not_or, not_not] at hTest
        obtain ⟨⟨rfl, hLength⟩, hLast⟩ := hTest
        rw [sliceTo, if_pos (by omega)] at h
        dsimp only at h
        split at h
        · cases h
        · rename_i hDigits
          simp only [Bool.not_eq_true', Bool.not_eq_false] at hDigits
          obtain ⟨fields, hFields, hBound, rfl⟩ := eq_spelled_of_digits hLength hLast hDigits
          exact ⟨fields, hFields, hBound, rfl, Except.ok.inj h⟩
  · rintro ⟨fields, hFields, _, rfl, hSeconds⟩
    rw [time_spelled GENERALIZED_TIME civil hFields, hSeconds]

end Kerberos

end XmipIdentify
