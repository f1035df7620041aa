import XmipIdentify.Kerberos.Time

/-!
# Times in order

The fields of a moment are written in fixed widths from the year down, so the
bytes are ordered as the moments are, and the moments as their seconds.
-/

namespace XmipIdentify.Kerberos

open Str Calendar

set_option autoImplicit false

/-- Every field fits the width it is written in. -/
theorem fits_fields {moment : Moment} (h : moment.year < 10000) :
    ∀ field ∈ [4, 2, 2, 2, 2, 2].zip moment.fields, field.2 < 10 ^ field.1 := by
  have hMonth := moment.toDate.month_le
  have hDay := Nat.le_trans moment.day_le (daysInMonth_le _ _)
  have hHour := moment.hour_lt
  have hMinute := moment.minute_lt
  have hSecond := moment.second_lt
  simp only [Moment.fields, List.zip_cons_cons, List.zip_nil_left, List.forall_mem_cons]
  exact ⟨h, by omega, by omega, by omega, by omega, by omega, by simp⟩

theorem spelled_lt_spelled {a b : Moment} (hb : b.year < 10000) (h : a < b) :
    toUtf8 (spelled a.fields) < toUtf8 (spelled b.fields) := by
  have hDigit : ∀ d e, d < e → e < 10 →
      asciiByte (Nat.digitChar d) < asciiByte (Nat.digitChar e) := by
    intro d e hd he
    have hCode (n : Nat) (hn : n < 10) : (asciiByte (Nat.digitChar n)).toNat = n + 48 := by
      rw [toNat_asciiByte (by rw [Nat.toNat_digitChar_of_lt_ten hn]; omega),
        Nat.toNat_digitChar_of_lt_ten hn]
      omega
    rw [UInt8.lt_iff_toNat_lt, hCode d (by omega), hCode e he]
    omega
  have hWidths (moment : Moment) : ([4, 2, 2, 2, 2, 2].zip moment.fields).map Prod.fst =
      [4, 2, 2, 2, 2, 2] := List.map_fst_zip (Nat.le_refl 6)
  have hValues (moment : Moment) :
      ([4, 2, 2, 2, 2, 2].zip moment.fields).map Prod.snd = moment.fields :=
    List.map_snd_zip (Nat.le_refl 6)
  rw [toUtf8_of_ascii (ascii_spelled _), toUtf8_of_ascii (ascii_spelled _), spelled, spelled,
    List.map_append, List.map_append, Decimal.map_written, Decimal.map_written,
    Decimal.append_lt_append_iff (by rw [Decimal.length_written, Decimal.length_written, hWidths,
      hWidths])]
  refine .inl (Decimal.written_lt_written hDigit ((hWidths a).trans (hWidths b).symm)
    (fits_fields hb) ?_)
  rwa [hValues, hValues]

theorem spelled_lt_spelled_iff {a b : Moment} (ha : a.year < 10000) (hb : b.year < 10000) :
    toUtf8 (spelled a.fields) < toUtf8 (spelled b.fields) ↔ a < b := by
  refine ⟨fun h => ?_, spelled_lt_spelled hb⟩
  rcases lt_trichotomy a b with hLess | rfl | hGreater
  · exact hLess
  · exact absurd h (List.lt_irrefl _)
  · exact absurd h (List.lt_asymm (spelled_lt_spelled ha hGreater))

variable {civil : Civil}

/-- What the calendar crate makes of six numbers, where a moment has them. -/
theorem moment_spelled_eq_some_iff (laws : civil.Laws) {fields : List Nat} (hFields : fields.length = 6)
    (hBound : ∀ field ∈ [4, 2, 2, 2, 2, 2].zip fields, field.2 < 10 ^ field.1) (seconds : Int64) :
    (moment civil (spelled fields)).map civil.unix = some seconds ↔
      ∃ moment : Moment, moment.year < 10000 ∧ moment.fields = fields ∧
        seconds.toInt = moment.unix := by
  obtain ⟨year, month, day, hour, minute, second, rfl⟩ :
      ∃ year month day hour minute second, fields = [year, month, day, hour, minute, second] := by
    match fields, hFields with
    | [year, month, day, hour, minute, second], _ => exact ⟨_, _, _, _, _, _, rfl⟩
  rw [moment_spelled civil hBound]
  simp only [List.zip_cons_cons, List.zip_nil_left, List.forall_mem_cons] at hBound
  obtain ⟨hYear, hMonth, hDay, hHour, hMinute, hSecond, _⟩ := hBound
  have hSmall {n : Nat} (hn : n < 10 ^ 2) : (UInt32.ofNat n).toNat = n := by
    rw [UInt32.toNat_ofNat']
    omega
  have hKnown := laws.new_isSome year (UInt32.ofNat month) (UInt32.ofNat day) (UInt32.ofNat hour)
    (UInt32.ofNat minute) (UInt32.ofNat second) hYear
  have hSeconds := laws.unix_new year (UInt32.ofNat month) (UInt32.ofNat day) (UInt32.ofNat hour)
    (UInt32.ofNat minute) (UInt32.ofNat second)
  rw [hSmall hMonth, hSmall hDay, hSmall hHour, hSmall hMinute, hSmall hSecond] at hKnown hSeconds
  constructor
  · intro h
    obtain ⟨civilTime, hNew, rfl⟩ := Option.map_eq_some_iff.mp h
    obtain ⟨moment, hMoment⟩ := hKnown.mp (by rw [hNew]; rfl)
    have hYears : moment.year = year := (List.cons.inj hMoment).1
    exact ⟨moment, hYears ▸ hYear, hMoment, hSeconds civilTime moment hYear hNew hMoment⟩
  · rintro ⟨moment, _, hMoment, hUnix⟩
    obtain ⟨civilTime, hNew⟩ := Option.isSome_iff_exists.mp (hKnown.mpr ⟨moment, hMoment⟩)
    rw [hNew, Option.map_some, Option.some.injEq, ← Int64.toInt_inj, hUnix]
    exact hSeconds civilTime moment hYear hNew hMoment

theorem time_eq_some_iff_moment (GENERALIZED_TIME : UInt8) (laws : civil.Laws) (element : Element)
    (seconds : Int64) :
    time GENERALIZED_TIME civil element = .ok (some seconds) ↔
      ∃ moment : Moment, moment.year < 10000 ∧ element.tag = GENERALIZED_TIME ∧
        element.content = toUtf8 (spelled moment.fields) ∧ seconds.toInt = moment.unix := by
  rw [time_eq_some_iff]
  constructor
  · rintro ⟨fields, hFields, hBound, rfl, hSeconds⟩
    obtain ⟨moment, hYear, rfl, hUnix⟩ :=
      (moment_spelled_eq_some_iff laws hFields hBound seconds).mp hSeconds
    exact ⟨moment, hYear, rfl, rfl, hUnix⟩
  · rintro ⟨moment, hYear, hTag, hContent, hUnix⟩
    refine ⟨moment.fields, rfl, fits_fields hYear, ?_, ?_⟩
    · rw [← hTag, ← hContent]
    · exact (moment_spelled_eq_some_iff laws rfl (fits_fields hYear) seconds).mpr
        ⟨moment, hYear, rfl, hUnix⟩

/-- A time is read where a real moment is spelled and nowhere else, and the bytes of two times
stand as the times do. -/
theorem time_reads_exactly (GENERALIZED_TIME : UInt8) (laws : civil.Laws) :
    (∀ element, ∃ read, time GENERALIZED_TIME civil element = .ok read) ∧
    (∀ element seconds, time GENERALIZED_TIME civil element = .ok (some seconds) ↔
      ∃ moment : Moment, moment.year < 10000 ∧ element.tag = GENERALIZED_TIME ∧
        element.content = toUtf8 (spelled moment.fields) ∧ seconds.toInt = moment.unix) ∧
    ∀ a b s t, time GENERALIZED_TIME civil a = .ok (some s) →
      time GENERALIZED_TIME civil b = .ok (some t) →
      (a.content < b.content ↔ s < t) ∧ (s = t → a.content = b.content) := by
  have hRead := time_eq_some_iff_moment GENERALIZED_TIME laws
  refine ⟨time_ok GENERALIZED_TIME civil, hRead, ?_⟩
  intro a b s t ha hb
  obtain ⟨first, hFirst, _, hContent, hs⟩ := (hRead a s).mp ha
  obtain ⟨second, hSecond, _, hContent', ht⟩ := (hRead b t).mp hb
  rw [hContent, hContent', spelled_lt_spelled_iff hFirst hSecond, Int64.lt_iff_toInt_lt, hs, ht]
  refine ⟨Moment.unix_strictMono.lt_iff_lt.symm, fun hSame => ?_⟩
  have hMoment : first = second := by
    apply Moment.unix_strictMono.injective
    rw [← hs, ← ht, hSame]
  rw [hMoment]

/-- The calendar of the library, its seconds in the width of the crate's. -/
def gregorian : Civil where
  CivilTime := Moment
  new year month day hour minute second :=
    if h : 0 ≤ year.toInt ∧ (1 ≤ day.toNat ∧ day.toNat ≤ daysInMonth year.toInt.toNat month.toNat) ∧
        hour.toNat < 24 ∧ minute.toNat < 60 ∧ second.toNat < 60 then
      some {
        year := year.toInt.toNat
        month := month.toNat
        day := day.toNat
        day_pos := h.2.1.1
        day_le := h.2.1.2
        hour := hour.toNat
        minute := minute.toNat
        second := second.toNat
        hour_lt := h.2.2.1
        minute_lt := h.2.2.2.1
        second_lt := h.2.2.2.2 }
    else none
  unix moment := Int64.ofInt moment.unix

theorem toInt_unix {moment : Moment} (h : moment.year < 10000) :
    (Int64.ofInt moment.unix).toInt = moment.unix := by
  have hNumber := moment.toDate.number_lt_year
  have hLast : daysBeforeYear (moment.year + 1) ≤ daysBeforeYear 10000 := daysBeforeYear_mono h
  have hDays : daysBeforeYear 10000 = 3652425 := rfl
  have hEpoch : Moment.epoch.number = 719528 := rfl
  have hSecond := moment.secondOfDay_lt
  apply Int64.toInt_ofInt_of_le
  · rw [Moment.unix, hEpoch]
    omega
  · rw [Moment.unix, hEpoch]
    omega

theorem gregorian_new_eq_some_iff {year : Nat} (hYear : year < 10000)
    (month day hour minute second : UInt32) (moment : Moment) :
    gregorian.new (Int64.ofNat year) month day hour minute second = some moment ↔
      moment.fields =
        [year, month.toNat, day.toNat, hour.toNat, minute.toNat, second.toNat] := by
  have hInt : (Int64.ofNat year).toInt = year := Int64.toInt_ofNat_of_lt (by omega)
  have hNat : (Int64.ofNat year).toInt.toNat = year := by rw [hInt, Int.toNat_natCast]
  unfold gregorian
  dsimp only
  split
  · rename_i h
    rw [Option.some.injEq, ← Moment.fields_injective.eq_iff, Moment.fields]
    dsimp only
    rw [hNat]
    exact eq_comm
  · rename_i h
    constructor
    · intro hNew
      cases hNew
    · intro hFields
      refine absurd ?_ h
      simp only [Moment.fields, List.cons.injEq, and_true] at hFields
      obtain ⟨hY, hMonth, hDay, hHour, hMinute, hSecond⟩ := hFields
      rw [hNat, ← hY, ← hMonth, ← hDay, ← hHour, ← hMinute, ← hSecond, hY, hInt]
      exact ⟨Int.natCast_nonneg year, ⟨moment.day_pos, hY ▸ moment.day_le⟩, moment.hour_lt,
        moment.minute_lt, moment.second_lt⟩

theorem gregorian_laws : gregorian.Laws where
  new_isSome year month day hour minute second hYear := by
    rw [Option.isSome_iff_exists]
    exact exists_congr fun moment =>
      gregorian_new_eq_some_iff hYear month day hour minute second moment
  unix_new year month day hour minute second civilTime moment hYear hNew hFields := by
    have hMoment := (gregorian_new_eq_some_iff hYear month day hour minute second moment).mpr hFields
    cases hNew.symm.trans hMoment
    exact toInt_unix ((List.cons.inj hFields).1 ▸ hYear)

/-- The last second of a leap day and the first after it. -/
theorem time_reads_exactly_leap_day :
    let last : Element := ⟨0x18, toUtf8 "20240229235959Z".toList⟩
    let next : Element := ⟨0x18, toUtf8 "20240301000000Z".toList⟩
    time 0x18 gregorian last = .ok (some 1709251199) ∧
      time 0x18 gregorian next = .ok (some 1709251200) ∧
      (last.content < next.content ↔ (1709251199 : Int64) < 1709251200) := by
  intro last next
  have h := time_reads_exactly 0x18 gregorian_laws
  have hLast : time 0x18 gregorian last = .ok (some 1709251199) := (h.2.1 _ _).mpr
    ⟨⟨⟨2024, 2, 29, by decide, by decide⟩, 23, 59, 59, by decide, by decide, by decide⟩,
      by decide, rfl, by decide, by decide⟩
  have hNext : time 0x18 gregorian next = .ok (some 1709251200) := (h.2.1 _ _).mpr
    ⟨⟨⟨2024, 3, 1, by decide, by decide⟩, 0, 0, 0, by decide, by decide, by decide⟩,
      by decide, rfl, by decide, by decide⟩
  exact ⟨hLast, hNext, (h.2.2 _ _ _ _ hLast hNext).1⟩

end XmipIdentify.Kerberos
