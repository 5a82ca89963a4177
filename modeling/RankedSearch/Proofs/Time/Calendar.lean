import Mathlib.Tactic.IntervalCases
import RankedSearch.Time.Calendar

/-!
# The numbering of days

Every number is the number of a date of the calendar, so a date can be computed from
it and back (`Date.toDayNumber_ofDayNumber`, `Date.isValid_ofDayNumber`).

Years are counted from the first of March in cycles of four hundred. A cycle is four
centuries, each of them twenty-five quadrennia, and a day of it is told apart by
these (`Date.DayOfCycle`). Within a year only the last day is in doubt, and the year
has it exactly if the next of January to December is a leap year.
-/

set_option autoImplicit false

namespace RankedSearch
namespace Date

/-! ## Years of a cycle -/

/-- The day of the cycle on which a year begins. -/
def yearStart (year : Int) : Int := 365 * year + year / 4 - year / 100

/-- The year of the cycle to which a day of it belongs. -/
def yearOfCycle (day : Int) : Int :=
  (day - day / 1460 + day / 36524 - day / 146096) / 365

/-- A day of the cycle by century, quadrennium, year and day of the year. Only a last
year of a quadrennium may have a day 365, and the last one of a century has it only
at the end of the cycle. -/
structure DayOfCycle (day century quadrennium year dayOfYear : Int) : Prop where
  inCycle : 0 ≤ century ∧ century ≤ 3
  inCentury : 0 ≤ quadrennium ∧ quadrennium ≤ 24
  inQuadrennium : 0 ≤ year ∧ year ≤ 3
  inYear : 0 ≤ dayOfYear ∧ dayOfYear ≤ 365
  last : dayOfYear = 365 → year = 3 ∧ (quadrennium = 24 → century = 3)
  sum : day = 36524 * century + 1461 * quadrennium + 365 * year + dayOfYear

theorem exists_dayOfCycle {day : Int} (first : 0 ≤ day) (last : day < 146097) :
    ∃ century quadrennium year dayOfYear,
      DayOfCycle day century quadrennium year dayOfYear := by
  obtain ⟨century, rest, inCycle, inCentury, whole, full⟩ : ∃ century rest : Int,
      (0 ≤ century ∧ century ≤ 3) ∧ (0 ≤ rest ∧ rest ≤ 36524) ∧
        day = 36524 * century + rest ∧ (rest = 36524 → century = 3) := by
    refine ⟨(day - day / 146096) / 36524, day - 36524 * ((day - day / 146096) / 36524), ?_⟩
    omega
  obtain ⟨year, dayOfYear, inQuadrennium, inYear, sum, leap⟩ : ∃ year dayOfYear : Int,
      (0 ≤ year ∧ year ≤ 3) ∧ (0 ≤ dayOfYear ∧ dayOfYear ≤ 365) ∧
        rest % 1461 = 365 * year + dayOfYear ∧ (dayOfYear = 365 → year = 3) := by
    refine ⟨(rest % 1461 - rest % 1461 / 1460) / 365,
      rest % 1461 - 365 * ((rest % 1461 - rest % 1461 / 1460) / 365), ?_⟩
    omega
  refine ⟨century, rest / 1461, year, dayOfYear, inCycle, ?_, inQuadrennium, inYear, ?_, ?_⟩
  · omega
  · intro atEnd
    refine ⟨leap atEnd, fun lastOfCentury => full ?_⟩
    have lastYear := leap atEnd
    omega
  · omega

namespace DayOfCycle

variable {day century quadrennium year dayOfYear : Int}

/-- The century of a day and what is left of it; only the last century has a day
36524. -/
theorem centuries (found : DayOfCycle day century quadrennium year dayOfYear) :
    day / 36524 = century + day / 146096 := by
  obtain ⟨inCycle, inCentury, inQuadrennium, inYear, last, sum⟩ := found
  have short : 1461 * quadrennium + 365 * year + dayOfYear ≤ 36524 := by omega
  rcases Int.lt_or_eq_of_le short with within | atEnd
  · have notLast : day / 146096 = 0 := by omega
    omega
  · have lastCentury : century = 3 := by
      refine (last ?_).2 ?_ <;> omega
    omega

/-- The rule for the year of a day finds the century, the quadrennium and the year. -/
theorem yearOfCycle_eq (found : DayOfCycle day century quadrennium year dayOfYear) :
    yearOfCycle day = 100 * century + 4 * quadrennium + year := by
  have centuries := found.centuries
  obtain ⟨inCycle, inCentury, inQuadrennium, inYear, last, sum⟩ := found
  -- The quadrennia before a day have 1460 days each, and one more for every leap day.
  have quarters : day / 1460 = 25 * century + quadrennium +
      (24 * century + quadrennium + 365 * year + dayOfYear) / 1460 := by
    omega
  rw [yearOfCycle, quarters, centuries]
  omega

theorem sub_yearStart (found : DayOfCycle day century quadrennium year dayOfYear) :
    day - yearStart (yearOfCycle day) = dayOfYear := by
  rw [found.yearOfCycle_eq, yearStart]
  obtain ⟨inCycle, inCentury, inQuadrennium, inYear, last, sum⟩ := found
  omega

end DayOfCycle

/-- A day of the cycle lies in its year, and a year that has a day 365 ends with the
leap day of the next one. -/
theorem yearOfCycle_spec {day : Int} (first : 0 ≤ day) (last : day < 146097) :
    (0 ≤ yearOfCycle day ∧ yearOfCycle day ≤ 399) ∧
      (0 ≤ day - yearStart (yearOfCycle day) ∧ day - yearStart (yearOfCycle day) ≤ 365) ∧
      (day - yearStart (yearOfCycle day) = 365 → ∀ cycle : Int,
        isLeapYear (yearOfCycle day + 400 * cycle + 1) = true) := by
  obtain ⟨century, quadrennium, year, dayOfYear, found⟩ := exists_dayOfCycle first last
  rw [found.sub_yearStart, found.yearOfCycle_eq]
  obtain ⟨inCycle, inCentury, inQuadrennium, inYear, last, sum⟩ := found
  refine ⟨by omega, inYear, fun atEnd cycle => ?_⟩
  obtain ⟨lastYear, lastCentury⟩ := last atEnd
  rw [isLeapYear, Bool.and_eq_true, Bool.or_eq_true, decide_eq_true_eq, decide_eq_true_eq,
    decide_eq_true_eq]
  omega

/-! ## Months of a year -/

/-- The month, counted from March on, to which a day of the year belongs. -/
def monthOfYear (dayOfYear : Int) : Int := (5 * dayOfYear + 2) / 153

/-- The day of the year on which a month begins. -/
def monthStart (month : Int) : Int := (153 * month + 2) / 5

theorem monthOfYear_spec {dayOfYear : Int} (inYear : 0 ≤ dayOfYear ∧ dayOfYear ≤ 365) :
    (0 ≤ monthOfYear dayOfYear ∧ monthOfYear dayOfYear ≤ 11) ∧
      monthStart (monthOfYear dayOfYear) ≤ dayOfYear ∧
      dayOfYear < monthStart (monthOfYear dayOfYear + 1) := by
  rw [monthOfYear, monthStart, monthStart]
  omega

/-! ## Dates -/

/-- The date of a cycle, a year and a month counted from March on, and a day. -/
def ofMarch (cycle year month day : Int) : Date :=
  let calendarMonth := if month < 10 then month + 3 else month - 9
  let calendarYear := year + cycle * 400
  ⟨if calendarMonth ≤ 2 then calendarYear + 1 else calendarYear, calendarMonth.toNat, day.toNat⟩

theorem ofDayNumber_eq (n : Int) :
    ofDayNumber n =
      let day := (n + epochOffset) % cycleDays
      let dayOfYear := day - yearStart (yearOfCycle day)
      ofMarch ((n + epochOffset) / cycleDays) (yearOfCycle day) (monthOfYear dayOfYear)
        (dayOfYear - monthStart (monthOfYear dayOfYear) + 1) := rfl

section March

variable {cycle year month day : Int}

theorem ofMarch_of_lt (inYear : 0 ≤ month) (early : month < 10) :
    ofMarch cycle year month day = ⟨year + cycle * 400, (month + 3).toNat, day.toNat⟩ := by
  have notNext : ¬ month + 3 ≤ 2 := by omega
  simp only [ofMarch, if_pos early, if_neg notNext]

theorem ofMarch_of_le (inYear : month ≤ 11) (late : 10 ≤ month) :
    ofMarch cycle year month day = ⟨year + cycle * 400 + 1, (month - 9).toNat, day.toNat⟩ := by
  have next : month - 9 ≤ 2 := by omega
  simp only [ofMarch, if_neg (Int.not_lt.mpr late), if_pos next]

theorem toDayNumber_ofMarch (inCycle : 0 ≤ year ∧ year ≤ 399) (inYear : 0 ≤ month ∧ month ≤ 11)
    (positive : 1 ≤ day) :
    (ofMarch cycle year month day).toDayNumber =
      cycle * cycleDays + (yearStart year + monthStart month + day - 1) - epochOffset := by
  have cycles : (year + cycle * 400) / 400 = cycle := by omega
  have years : (year + cycle * 400) % 400 = year := by omega
  have days : (day.toNat : Int) = day := Int.toNat_of_nonneg (by omega)
  rcases Int.lt_or_le month 10 with early | late
  · have notNext : ¬ (month + 3).toNat ≤ 2 := by omega
    have months : ((month + 3).toNat : Int) - 3 = month := by omega
    rw [ofMarch_of_lt inYear.1 early]
    simp only [toDayNumber, if_neg notNext, cycles, years, months, days, yearStart, monthStart]
    omega
  · have next : (month - 9).toNat ≤ 2 := by omega
    have months : ((month - 9).toNat : Int) + 9 = month := by omega
    rw [ofMarch_of_le inYear.2 late]
    simp only [toDayNumber, if_pos next, Int.add_sub_cancel, cycles, years, months, days,
      yearStart, monthStart]
    omega

/-- A date is in the calendar if its day lies in its month and, should it be the day
365 of its year, this is a leap day. -/
theorem isValid_ofMarch (inYear : 0 ≤ month ∧ month ≤ 11) (positive : 1 ≤ day)
    (inMonth : monthStart month + day ≤ monthStart (month + 1))
    (leap : monthStart month + day - 1 ≤ 364 ∨
      monthStart month + day - 1 = 365 ∧ isLeapYear (year + cycle * 400 + 1) = true) :
    (ofMarch cycle year month day).isValid = true := by
  obtain ⟨first, last⟩ := inYear
  simp only [monthStart] at inMonth leap
  rcases Int.lt_or_eq_of_le last with other | february
  · clear leap
    interval_cases month <;>
    · simp [ofMarch, isValid, daysInMonth]
      omega
  · subst february
    rw [ofMarch_of_le (Int.le_refl 11) (by decide)]
    simp only [isValid, daysInMonth, Bool.and_eq_true, decide_eq_true_eq, Int.reduceSub,
      Int.reduceToNat, if_true]
    rcases leap with within | ⟨atEnd, leapYear⟩
    · split <;> omega
    · rw [leapYear, if_pos rfl]
      omega

end March

/-- The date of a number, counted from March on. -/
structure Numbered (n cycle year month day : Int) : Prop where
  date : ofDayNumber n = ofMarch cycle year month day
  inCycle : 0 ≤ year ∧ year ≤ 399
  inYear : 0 ≤ month ∧ month ≤ 11
  positive : 1 ≤ day
  inMonth : monthStart month + day ≤ monthStart (month + 1)
  leap : monthStart month + day - 1 ≤ 364 ∨
    monthStart month + day - 1 = 365 ∧ isLeapYear (year + cycle * 400 + 1) = true
  sum : n = cycle * cycleDays + (yearStart year + monthStart month + day - 1) - epochOffset

theorem exists_numbered (n : Int) : ∃ cycle year month day, Numbered n cycle year month day := by
  have start : 0 ≤ (n + epochOffset) % cycleDays := Int.emod_nonneg _ (by decide)
  have stop : (n + epochOffset) % cycleDays < 146097 := Int.emod_lt_of_pos _ (by decide)
  have whole := Int.ediv_mul_add_emod (n + epochOffset) cycleDays
  obtain ⟨inCycle, inYear, leap⟩ := yearOfCycle_spec start stop
  obtain ⟨months, monthBegun, monthOpen⟩ := monthOfYear_spec inYear
  refine ⟨_, _, _, _, ofDayNumber_eq n, inCycle, months, by omega, by omega, ?_, by omega⟩
  rcases Int.lt_or_eq_of_le inYear.2 with within | atEnd
  · exact .inl (by omega)
  · refine .inr ⟨by omega, ?_⟩
    rw [Int.mul_comm]
    exact leap atEnd _

/-- **Every number is that of its date.** -/
theorem toDayNumber_ofDayNumber (n : Int) : (ofDayNumber n).toDayNumber = n := by
  obtain ⟨cycle, year, month, day, numbered⟩ := exists_numbered n
  rw [numbered.date, toDayNumber_ofMarch numbered.inCycle numbered.inYear numbered.positive]
  exact numbered.sum.symm

/-- Every number is that of a date of the calendar. -/
theorem isValid_ofDayNumber (n : Int) : (ofDayNumber n).isValid = true := by
  obtain ⟨cycle, year, month, day, numbered⟩ := exists_numbered n
  rw [numbered.date]
  exact isValid_ofMarch numbered.inYear numbered.positive numbered.inMonth numbered.leap

end Date
end RankedSearch
