import Mathlib.Tactic.Common

/-!
# Days of the civil calendar

Days are counted from 1970-01-01. A year begins in March, so that the day that is sometimes
missing is its last one; four hundred years are an era. A month that is not one of the twelve
is carried into the year.
-/

namespace CivilCalendar

/-- The first day of the months of such a year, from March on. -/
def firstOfShifted (year mp : Int) : Int :=
  year / 400 * 146097 + (year % 400 * 365 + year % 400 / 4 - year % 400 / 100) +
    (153 * mp + 2) / 5 - 719468

/-- The day of a date. -/
def dayOfDate (year month day : Int) : Int :=
  let months := year * 12 + (month - 1)
  let y := months / 12
  let m := months % 12
  firstOfShifted (if m < 2 then y - 1 else y) ((m + 10) % 12) + (day - 1)

example : dayOfDate 2023 11 13 = 19674 ∧ dayOfDate 2022 23 13 = 19674 := by decide

/-- The year of an era that a day is in. -/
def yearOfEra (doe : Int) : Int := (doe - doe / 1460 + doe / 36524 - doe / 146096) / 365

/-- The day of the year. -/
def dayOfYear (doe : Int) : Int :=
  doe - (365 * yearOfEra doe + yearOfEra doe / 4 - yearOfEra doe / 100)

/-- Before the last day of an era: centuries and leap years are counted by the days. -/
theorem yearOfEra_counts {doe : Int} (from_ : 0 ≤ doe) (below : doe < 146096) :
    0 ≤ yearOfEra doe ∧ yearOfEra doe ≤ 399 ∧ yearOfEra doe / 100 = doe / 36524 ∧
      yearOfEra doe / 4 ≤ doe / 1460 ∧ doe / 1460 ≤ yearOfEra doe / 4 + 1 := by
  have last : doe / 146096 = 0 := by omega
  have year : yearOfEra doe = (doe - doe / 1460 + doe / 36524) / 365 := by
    rw [yearOfEra, last, Int.sub_zero]
  generalize yearOfEra doe = yoe at year ⊢
  generalize leaps : doe / 1460 = d at year ⊢
  generalize centuries : doe / 36524 = c at year ⊢
  have century : c = 0 ∨ c = 1 ∨ c = 2 ∨ c = 3 := by omega
  have hundreds : yoe / 100 = c := by
    rcases century with rfl | rfl | rfl | rfl
    all_goals omega
  have fours : yoe / 4 ≤ d ∧ d ≤ yoe / 4 + 1 := by
    clear hundreds
    rcases century with rfl | rfl | rfl | rfl
    all_goals constructor <;> omega
  exact ⟨by omega, by omega, hundreds, fours⟩

theorem bounds {doe : Int} (from_ : 0 ≤ doe) (below : doe < 146097) :
    0 ≤ yearOfEra doe ∧ yearOfEra doe ≤ 399 ∧ 0 ≤ dayOfYear doe ∧ dayOfYear doe ≤ 365 := by
  rcases Int.lt_or_eq_of_le (Int.le_of_lt_add_one below : doe ≤ 146096) with before | rfl
  · obtain ⟨first, last, hundreds, fours, fours'⟩ := yearOfEra_counts from_ before
    have year : yearOfEra doe = (doe - doe / 1460 + doe / 36524) / 365 := by
      have last : doe / 146096 = 0 := by omega
      rw [yearOfEra, last, Int.sub_zero]
    refine ⟨first, last, ?_, ?_⟩
    · unfold dayOfYear
      omega
    · unfold dayOfYear
      omega
  · decide

/-- The months of a shifted year: 31, 30, 31, 30, 31, 31, 30, 31, 30, 31, 31 days. -/
def shiftedMonth (doy : Int) : Int := (5 * doy + 2) / 153

theorem shiftedMonth_bounds {doy : Int} (from_ : 0 ≤ doy) (below : doy ≤ 365) :
    0 ≤ shiftedMonth doy ∧ shiftedMonth doy ≤ 11 ∧
      0 ≤ doy - (153 * shiftedMonth doy + 2) / 5 ∧ doy - (153 * shiftedMonth doy + 2) / 5 ≤ 30 := by
  unfold shiftedMonth
  omega

/-- A month is counted from January again, and from the next year on. -/
theorem dayOfDate_shifted (year mp day : Int) (from_ : 0 ≤ mp) (below : mp ≤ 11) :
    dayOfDate (if (if mp < 10 then mp + 3 else mp - 9) ≤ 2 then year + 1 else year)
      (if mp < 10 then mp + 3 else mp - 9) day = firstOfShifted year mp + (day - 1) := by
  unfold dayOfDate
  by_cases early : mp < 10
  · have month : ¬ mp + 3 ≤ 2 := by omega
    have y : (year * 12 + (mp + 3 - 1)) / 12 = year := by omega
    have m : (year * 12 + (mp + 3 - 1)) % 12 = mp + 2 := by omega
    have late : ¬ mp + 2 < 2 := by omega
    have back : (mp + 2 + 10) % 12 = mp := by omega
    simp only [if_pos early, if_neg month, y, m, if_neg late, back]
  · have month : mp - 9 ≤ 2 := by omega
    have y : ((year + 1) * 12 + (mp - 9 - 1)) / 12 = year + 1 := by omega
    have m : ((year + 1) * 12 + (mp - 9 - 1)) % 12 = mp - 10 := by omega
    have soon : mp - 10 < 2 := by omega
    have back : (mp - 10 + 10) % 12 = mp := by omega
    simp only [if_neg early, if_pos month, y, m, if_pos soon, back, Int.add_sub_cancel]

/-- The days of an era come back from their year and day. -/
theorem firstOfShifted_era (era doe : Int) (from_ : 0 ≤ doe) (below : doe < 146097) :
    firstOfShifted (yearOfEra doe + era * 400) (shiftedMonth (dayOfYear doe)) +
      (dayOfYear doe - (153 * shiftedMonth (dayOfYear doe) + 2) / 5) =
        era * 146097 + doe - 719468 := by
  obtain ⟨first, last, _, _⟩ := bounds from_ below
  have era_ : (yearOfEra doe + era * 400) / 400 = era := by omega
  have year : (yearOfEra doe + era * 400) % 400 = yearOfEra doe := by omega
  unfold firstOfShifted
  rw [era_, year, dayOfYear]
  omega

end CivilCalendar
