import Mathlib

/-!
# The proleptic Gregorian calendar

Dates from the year zero on, numbered by their days, and moments of a day,
numbered by their seconds. Both numbers grow with the fields read from the
year down, since no month and no year ends after the next one begins.
-/

namespace Calendar

set_option autoImplicit false

def isLeap (year : Nat) : Bool := year % 4 == 0 && (year % 100 != 0 || year % 400 == 0)

/-- No days where there is no such month. -/
def daysInMonth (year : Nat) : Nat → Nat
  | 1 | 3 | 5 | 7 | 8 | 10 | 12 => 31
  | 4 | 6 | 9 | 11 => 30
  | 2 => if isLeap year then 29 else 28
  | _ => 0

def daysInYear (year : Nat) : Nat := if isLeap year then 366 else 365

def daysBeforeMonth (year month : Nat) : Nat := ((List.range month).map (daysInMonth year)).sum

/-- Of the years before this one, every fourth has a day more, save those of the hundreds that no
four hundred divides. -/
def daysBeforeYear (year : Nat) : Nat :=
  365 * year + (year + 3) / 4 - (year + 99) / 100 + (year + 399) / 400

theorem daysBeforeMonth_succ (year month : Nat) :
    daysBeforeMonth year (month + 1) = daysBeforeMonth year month + daysInMonth year month := by
  rw [daysBeforeMonth, List.range_succ, List.map_append, List.sum_append, daysBeforeMonth]
  simp

theorem daysBeforeMonth_mono (year : Nat) : Monotone (daysBeforeMonth year) :=
  monotone_nat_of_le_succ fun month => by
    rw [daysBeforeMonth_succ]
    omega

theorem daysBeforeMonth_thirteen (year : Nat) : daysBeforeMonth year 13 = daysInYear year := by
  simp only [daysBeforeMonth, daysInYear, List.range, List.range.loop, List.map_cons, List.map_nil,
    List.sum_cons, List.sum_nil, daysInMonth]
  split
  · rfl
  · rfl

/-- One more multiple of `k` is passed after a year that `k` divides. -/
theorem passed_succ (year k : Nat) (hk : 0 < k) :
    (year + 1 + (k - 1)) / k = (year + (k - 1)) / k + if year % k = 0 then 1 else 0 := by
  have hDvd : k ∣ year + (k - 1) + 1 ↔ year % k = 0 := by
    rw [show year + (k - 1) + 1 = year + k by omega, Nat.dvd_add_self_right, Nat.dvd_iff_mod_eq_zero]
  rw [show year + 1 + (k - 1) = year + (k - 1) + 1 by omega, Nat.succ_div]
  simp only [hDvd]

theorem isLeap_iff (year : Nat) :
    isLeap year = true ↔ year % 4 = 0 ∧ (year % 100 ≠ 0 ∨ year % 400 = 0) := by
  simp only [isLeap, Bool.and_eq_true, Bool.or_eq_true, beq_iff_eq, bne_iff_ne]

theorem daysBeforeYear_succ (year : Nat) :
    daysBeforeYear (year + 1) = daysBeforeYear year + daysInYear year := by
  have hFour : (year + 1 + 3) / 4 = (year + 3) / 4 + if year % 4 = 0 then 1 else 0 :=
    passed_succ year 4 (by decide)
  have hHundred : (year + 1 + 99) / 100 = (year + 99) / 100 + if year % 100 = 0 then 1 else 0 :=
    passed_succ year 100 (by decide)
  have hFourHundred :
      (year + 1 + 399) / 400 = (year + 399) / 400 + if year % 400 = 0 then 1 else 0 :=
    passed_succ year 400 (by decide)
  have hLess : (year + 99) / 100 ≤ 365 * year := by omega
  simp only [daysBeforeYear, daysInYear, isLeap_iff]
  rw [hFour, hHundred, hFourHundred]
  by_cases h4 : year % 4 = 0
  · by_cases h100 : year % 100 = 0
    · by_cases h400 : year % 400 = 0
      · rw [if_pos h4, if_pos h100, if_pos h400, if_pos ⟨h4, .inr h400⟩]
        omega
      · rw [if_pos h4, if_pos h100, if_neg h400, if_neg (by simp [h100, h400])]
        omega
    · have h400 : ¬year % 400 = 0 := by omega
      rw [if_pos h4, if_neg h100, if_neg h400, if_pos ⟨h4, .inl h100⟩]
      omega
  · have h100 : ¬year % 100 = 0 := by omega
    have h400 : ¬year % 400 = 0 := by omega
    rw [if_neg h4, if_neg h100, if_neg h400, if_neg fun h => h4 h.1]
    omega

theorem daysBeforeYear_mono : Monotone daysBeforeYear :=
  monotone_nat_of_le_succ fun year => by
    rw [daysBeforeYear_succ]
    omega

theorem month_le_of_daysInMonth_pos {year month : Nat} (h : 0 < daysInMonth year month) :
    month ≤ 12 := by
  by_contra hMonth
  rw [daysInMonth.eq_def] at h
  split at h <;> omega

theorem daysInMonth_le (year month : Nat) : daysInMonth year month ≤ 31 := by
  rw [daysInMonth.eq_def]
  split
  all_goals first | decide | (split <;> decide)

structure Date where
  year : Nat
  month : Nat
  day : Nat
  day_pos : 1 ≤ day
  day_le : day ≤ daysInMonth year month

/-- The days before this one, from the first of the year zero. -/
def Date.number (date : Date) : Nat :=
  daysBeforeYear date.year + daysBeforeMonth date.year date.month + (date.day - 1)

theorem Date.month_le (date : Date) : date.month ≤ 12 :=
  month_le_of_daysInMonth_pos (Nat.lt_of_lt_of_le date.day_pos date.day_le)

theorem Date.number_lt_month (date : Date) :
    date.number < daysBeforeYear date.year + daysBeforeMonth date.year (date.month + 1) := by
  have := date.day_pos
  have := date.day_le
  rw [number, daysBeforeMonth_succ]
  omega

theorem Date.number_lt_year (date : Date) : date.number < daysBeforeYear (date.year + 1) := by
  have hMonth := date.number_lt_month
  have hLast : daysBeforeMonth date.year (date.month + 1) ≤ daysBeforeMonth date.year 13 :=
    daysBeforeMonth_mono date.year (Nat.succ_le_succ date.month_le)
  rw [daysBeforeMonth_thirteen] at hLast
  rw [daysBeforeYear_succ]
  omega

theorem Date.le_number (date : Date) :
    daysBeforeYear date.year + daysBeforeMonth date.year date.month ≤ date.number :=
  Nat.le_add_right _ _

theorem Date.number_lt_of_year {a b : Date} (h : a.year < b.year) : a.number < b.number := by
  have hNext : daysBeforeYear (a.year + 1) ≤ daysBeforeYear b.year := daysBeforeYear_mono h
  have := a.number_lt_year
  have := b.le_number
  omega

theorem Date.number_lt_of_month {a b : Date} (hYear : a.year = b.year) (h : a.month < b.month) :
    a.number < b.number := by
  have hNext : daysBeforeMonth b.year (a.month + 1) ≤ daysBeforeMonth b.year b.month :=
    daysBeforeMonth_mono b.year h
  have hMonth := a.number_lt_month
  have := b.le_number
  rw [hYear] at hMonth
  omega

theorem Date.number_lt_of_day {a b : Date} (hYear : a.year = b.year) (hMonth : a.month = b.month)
    (h : a.day < b.day) : a.number < b.number := by
  have := a.day_pos
  rw [number, number, hYear, hMonth]
  omega

theorem Date.number_eq {a b : Date} (hYear : a.year = b.year) (hMonth : a.month = b.month)
    (hDay : a.day = b.day) : a.number = b.number := by
  rw [number, number, hYear, hMonth, hDay]

/-- A number between the first and the last step of a stair stands on one of them. -/
theorem exists_step {f : Nat → Nat} {n last : Nat} (hFirst : f 0 ≤ n) (hLast : n < f last) :
    ∃ k < last, f k ≤ n ∧ n < f (k + 1) := by
  induction last with
  | zero => omega
  | succ last ih =>
    by_cases h : n < f last
    · obtain ⟨k, hk, hStep⟩ := ih h
      exact ⟨k, Nat.lt_succ_of_lt hk, hStep⟩
    · exact ⟨last, Nat.lt_succ_self last, Nat.le_of_not_lt h, hLast⟩

/-- No day is left out between the dates. -/
theorem Date.exists_number (n : Nat) : ∃ date : Date, date.number = n := by
  have hYears : n < daysBeforeYear (n + 1) := by
    rw [daysBeforeYear]
    omega
  obtain ⟨year, _, hYear, hNext⟩ := exists_step (f := daysBeforeYear) (Nat.zero_le n) hYears
  have hDays : n - daysBeforeYear year < daysBeforeMonth year 13 := by
    rw [daysBeforeYear_succ] at hNext
    rw [daysBeforeMonth_thirteen]
    omega
  obtain ⟨month, _, hMonth, hAfter⟩ :=
    exists_step (f := daysBeforeMonth year) (Nat.zero_le (n - daysBeforeYear year)) hDays
  rw [daysBeforeMonth_succ] at hAfter
  refine ⟨⟨year, month, n - daysBeforeYear year - daysBeforeMonth year month + 1, by omega,
    by omega⟩, ?_⟩
  rw [number]
  dsimp only
  omega

theorem Date.number_lt_daysBeforeYear_iff (date : Date) (year : Nat) :
    date.number < daysBeforeYear year ↔ date.year < year := by
  constructor
  · intro h
    by_contra hYear
    have hMono : daysBeforeYear year ≤ daysBeforeYear date.year :=
      daysBeforeYear_mono (Nat.le_of_not_lt hYear)
    have := date.le_number
    omega
  · intro h
    exact Nat.lt_of_lt_of_le date.number_lt_year (daysBeforeYear_mono h)

/-- A second of a day. -/
structure Moment extends Date where
  hour : Nat
  minute : Nat
  second : Nat
  hour_lt : hour < 24
  minute_lt : minute < 60
  second_lt : second < 60

namespace Moment

def fields (moment : Moment) : List Nat :=
  [moment.year, moment.month, moment.day, moment.hour, moment.minute, moment.second]

theorem fields_injective : Function.Injective fields := by
  rintro ⟨⟨_, _, _, _, _⟩, _, _, _, _, _, _⟩ ⟨⟨_, _, _, _, _⟩, _, _, _, _, _, _⟩ h
  simp only [fields, List.cons.injEq, and_true] at h
  obtain ⟨rfl, rfl, rfl, rfl, rfl, rfl⟩ := h
  rfl

/-- Moments follow each other as their fields do, the year first. -/
instance : LinearOrder Moment := LinearOrder.lift' fields fields_injective

theorem lt_iff_fields (a b : Moment) : a < b ↔ a.fields < b.fields := Iff.rfl

def secondOfDay (moment : Moment) : Nat :=
  moment.hour * 3600 + moment.minute * 60 + moment.second

theorem secondOfDay_lt (moment : Moment) : moment.secondOfDay < 86400 := by
  have := moment.hour_lt
  have := moment.minute_lt
  have := moment.second_lt
  rw [secondOfDay]
  omega

/-- The first of January 1970. -/
def epoch : Date := ⟨1970, 1, 1, by decide, by decide⟩

/-- Seconds since the beginning of 1970, negative before it. -/
def unix (moment : Moment) : Int :=
  ((moment.number : Int) - epoch.number) * 86400 + moment.secondOfDay

theorem unix_lt_of_number {a b : Moment} (h : a.number < b.number) : a.unix < b.unix := by
  have := a.secondOfDay_lt
  rw [unix, unix]
  omega

theorem unix_lt_of_secondOfDay {a b : Moment} (hNumber : a.number = b.number)
    (h : a.secondOfDay < b.secondOfDay) : a.unix < b.unix := by
  rw [unix, unix, hNumber]
  omega

theorem unix_strictMono : StrictMono unix := by
  intro a b h
  simp only [lt_iff_fields, fields, List.cons_lt_cons_iff] at h
  have := a.minute_lt
  have := a.second_lt
  rcases h with hYear | ⟨hYear, hMonth | ⟨hMonth, hDay | ⟨hDay, h⟩⟩⟩
  · exact unix_lt_of_number (Date.number_lt_of_year hYear)
  · exact unix_lt_of_number (Date.number_lt_of_month hYear hMonth)
  · exact unix_lt_of_number (Date.number_lt_of_day hYear hMonth hDay)
  · refine unix_lt_of_secondOfDay (Date.number_eq hYear hMonth hDay) ?_
    rw [secondOfDay, secondOfDay]
    rcases h with hHour | ⟨hHour, hMinute | ⟨hMinute, hSecond | ⟨_, hNil⟩⟩⟩
    · omega
    · omega
    · omega
    · exact absurd hNil (lt_irrefl _)

/-- Nor is a second left out. -/
theorem exists_unix {seconds : Int} (h : -((epoch.number : Int) * 86400) ≤ seconds) :
    ∃ moment : Moment, moment.unix = seconds := by
  obtain ⟨count, hCount⟩ : ∃ count : Nat, (count : Int) = seconds + epoch.number * 86400 :=
    ⟨(seconds + epoch.number * 86400).toNat, by omega⟩
  obtain ⟨date, hDate⟩ := Date.exists_number (count / 86400)
  refine ⟨⟨date, count % 86400 / 3600, count % 3600 / 60, count % 60, by omega, by omega, by omega⟩,
    ?_⟩
  rw [unix, secondOfDay]
  dsimp only
  rw [hDate]
  omega

/-- The seconds of the years before this one. -/
theorem exists_unix_before_iff (year : Nat) (seconds : Int) :
    (∃ moment : Moment, moment.year < year ∧ moment.unix = seconds) ↔
      -((epoch.number : Int) * 86400) ≤ seconds ∧
        seconds < ((daysBeforeYear year : Int) - epoch.number) * 86400 := by
  have hBefore (moment : Moment) : moment.year < year ↔
      moment.unix < ((daysBeforeYear year : Int) - epoch.number) * 86400 := by
    have := moment.secondOfDay_lt
    rw [← moment.toDate.number_lt_daysBeforeYear_iff, unix]
    omega
  constructor
  · rintro ⟨moment, hYear, rfl⟩
    refine ⟨?_, (hBefore moment).mp hYear⟩
    rw [unix]
    omega
  · rintro ⟨hFirst, hLast⟩
    obtain ⟨moment, rfl⟩ := exists_unix hFirst
    exact ⟨moment, (hBefore moment).mpr hLast, rfl⟩

end Moment

example : (⟨⟨2027, 1, 15, by decide, by decide⟩, 8, 0, 0, by decide, by decide, by decide⟩ :
    Moment).unix = 1800000000 := by
  decide

end Calendar
