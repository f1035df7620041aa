import XmipIdentify.Kerberos.TimeOrder

/-!
# Every second has its time

The seconds from the beginning of the year zero to the end of the year 9999
are the times there are, each spelled in one way.
-/

namespace XmipIdentify.Kerberos

open Str Calendar

set_option autoImplicit false

variable {civil : Civil}

theorem exists_moment_iff (seconds : Int) :
    (∃ moment : Moment, moment.year < 10000 ∧ seconds = moment.unix) ↔
      -62167219200 ≤ seconds ∧ seconds ≤ 253402300799 := by
  have hEpoch : Moment.epoch.number = 719528 := rfl
  have hDays : daysBeforeYear 10000 = 3652425 := rfl
  have hRange := Moment.exists_unix_before_iff 10000 seconds
  rw [hEpoch, hDays] at hRange
  simp only [eq_comm (a := seconds)]
  rw [hRange]
  omega

/-- No two spellings are one time, and no second of these years is without one. -/
theorem every_second_has_its_time (GENERALIZED_TIME : UInt8) (laws : civil.Laws) :
    (∀ seconds : Int64, (∃! element, time GENERALIZED_TIME civil element = .ok (some seconds)) ↔
      -62167219200 ≤ seconds.toInt ∧ seconds.toInt ≤ 253402300799) ∧
    ∀ element seconds, time GENERALIZED_TIME civil element = .ok (some seconds) →
      -62167219200 ≤ seconds.toInt ∧ seconds.toInt ≤ 253402300799 := by
  have hRead := time_eq_some_iff_moment GENERALIZED_TIME laws
  have hRange (element : Element) (seconds : Int64)
      (h : time GENERALIZED_TIME civil element = .ok (some seconds)) :
      -62167219200 ≤ seconds.toInt ∧ seconds.toInt ≤ 253402300799 := by
    obtain ⟨moment, hYear, _, _, hUnix⟩ := (hRead element seconds).mp h
    exact (exists_moment_iff seconds.toInt).mp ⟨moment, hYear, hUnix⟩
  refine ⟨fun seconds => ⟨?_, ?_⟩, hRange⟩
  · rintro ⟨element, hElement, _⟩
    exact hRange element seconds hElement
  · intro h
    obtain ⟨moment, hYear, hUnix⟩ := (exists_moment_iff seconds.toInt).mpr h
    refine ⟨⟨GENERALIZED_TIME, toUtf8 (spelled moment.fields)⟩, ?_, ?_⟩
    · exact (hRead _ seconds).mpr ⟨moment, hYear, rfl, rfl, hUnix⟩
    · rintro ⟨tag, content⟩ hOther
      obtain ⟨other, _, rfl, rfl, hOtherUnix⟩ := (hRead _ seconds).mp hOther
      have hSame : other = moment :=
        Moment.unix_strictMono.injective (hOtherUnix.symm.trans hUnix)
      rw [hSame]

/-- The first second of the year zero and the one before it. -/
theorem every_second_has_its_time_first :
    (∃! element, time 0x18 gregorian element = .ok (some (-62167219200))) ∧
      ¬∃! element, time 0x18 gregorian element = .ok (some (-62167219201)) := by
  have h := (every_second_has_its_time 0x18 gregorian_laws).1
  refine ⟨(h _).mpr (by decide), fun hFound => ?_⟩
  exact absurd ((h _).mp hFound) (by decide)

end XmipIdentify.Kerberos
