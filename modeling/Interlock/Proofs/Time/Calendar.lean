import Interlock.Time.Calendar
import Mathlib.Tactic.IntervalCases

/-!
Day numbers and dates. Every day has a date that exists, and the date has that day's number. An era
of 400 years is cut into centuries, groups of four years and years, all of which begin in March and
of which only the last of each may be a day longer.
-/
namespace Interlock.Time.Date

/-- The day of an era in its century, its group of four years and its year. A year has a last, 366th
day where it ends a group, unless the group alone ends a century that does not end the era. -/
structure EraDay where
  century : Int
  group : Int
  year : Int
  day : Int
  century_bounds : 0 ≤ century ∧ century ≤ 3
  group_bounds : 0 ≤ group ∧ group ≤ 24
  year_bounds : 0 ≤ year ∧ year ≤ 3
  day_bounds : 0 ≤ day ∧ day ≤ 365
  last_day : day = 365 → year = 3 ∧ (group ≤ 23 ∨ century = 3)

namespace EraDay

def yearOfEra (e : EraDay) : Int := 100 * e.century + 4 * e.group + e.year

def dayOfEra (e : EraDay) : Int := 36524 * e.century + 1461 * e.group + 365 * e.year + e.day

theorem exists_dayOfEra {n : Int} (h0 : 0 ≤ n) (h : n < 146097) : ∃ e : EraDay, e.dayOfEra = n := by
  let c := min (n / 36524) 3
  let q := (n - 36524 * c) / 1461
  let y := min ((n - 36524 * c - 1461 * q) / 365) 3
  have hc : 0 ≤ c ∧ c ≤ 3 ∧ 36524 * c ≤ n ∧ n - 36524 * c ≤ 36524 ∧
    (n - 36524 * c = 36524 → c = 3) := by omega
  have hq : 0 ≤ q ∧ q ≤ 24 ∧ 1461 * q ≤ n - 36524 * c ∧ n - 36524 * c - 1461 * q ≤ 1460 := by omega
  exact
    ⟨⟨c, q, y, n - 36524 * c - 1461 * q - 365 * y, by omega, by omega, by omega, by omega,
      by omega⟩, by simp only [dayOfEra]; omega⟩

variable (e : EraDay)

theorem yearOfEra_bounds : 0 ≤ e.yearOfEra ∧ e.yearOfEra < 400 := by
  obtain ⟨c, q, y, t, hc, hq, hy, ht, hl⟩ := e
  simp only [yearOfEra]
  omega

theorem dayOfEra_bounds : 0 ≤ e.dayOfEra ∧ e.dayOfEra < 146097 := by
  obtain ⟨c, q, y, t, hc, hq, hy, ht, hl⟩ := e
  simp only [dayOfEra]
  omega

/-- The year of a day by division: what the extra days of the era have added is taken off first. -/
theorem yearOfEra_eq :
    (e.dayOfEra - e.dayOfEra / 1460 + e.dayOfEra / 36524 - e.dayOfEra / 146096) / 365 =
      e.yearOfEra := by
  obtain ⟨c, q, y, t, hc, hq, hy, ht, hl⟩ := e
  simp only [dayOfEra, yearOfEra]
  generalize hn : 36524 * c + 1461 * q + 365 * y + t = n
  -- Only the last day of the era lies beyond the last whole century.
  have hend : 36524 * c ≤ n ∧ (n < 36524 * c + 36524 ∨ c = 3 ∧ n = 146096) := by omega
  have hcentury : n / 36524 - n / 146096 = c := by omega
  have hgroup : 25 * c + q ≤ n / 1460 ∧ n / 1460 ≤ 25 * c + q + 1 := by omega
  omega

/-- The day within its year is what is left of its number after the years before. -/
theorem day_eq :
    e.dayOfEra - (365 * e.yearOfEra + e.yearOfEra / 4 - e.yearOfEra / 100) = e.day := by
  obtain ⟨c, q, y, t, hc, hq, hy, ht, hl⟩ := e
  simp only [dayOfEra, yearOfEra]
  have hfour : (100 * c + 4 * q + y) / 4 = 25 * c + q := by omega
  have hhundred : (100 * c + 4 * q + y) / 100 = c := by omega
  omega

/-- Where the year has a last day, the next February is that of a leap year. -/
theorem isLeapYear_of_last_day (era : Int) (h : e.day = 365) :
    isLeapYear (e.yearOfEra + era * 400 + 1) = true := by
  have hlast := e.last_day h
  obtain ⟨c, q, y, t, hc, hq, hy, ht, hl⟩ := e
  simp only [isLeapYear, yearOfEra, Bool.and_eq_true, Bool.or_eq_true, beq_iff_eq, bne_iff_ne] at *
  omega

end EraDay

/-- The date in a year that begins in March, whose months count from zero. -/
def ofMarch (year month day : Int) : Date :=
  ⟨if month < 10 then year else year + 1, (if month < 10 then month + 3 else month - 9).toNat,
    day.toNat⟩

/-- The date of a day, by its place in its era. -/
theorem ofDay_eq (n : Int) : ∃ (era : Int) (e : EraDay),
    n + 719468 = era * 146097 + e.dayOfEra ∧
      ofDay n = ofMarch (e.yearOfEra + era * 400) ((5 * e.day + 2) / 153)
        (e.day - (153 * ((5 * e.day + 2) / 153) + 2) / 5 + 1) := by
  have hera : Int.fdiv (n + 719468) 146097 = (n + 719468) / 146097 :=
    Int.fdiv_eq_ediv_of_nonneg _ (by decide)
  obtain ⟨e, he⟩ := EraDay.exists_dayOfEra (n := n + 719468 - (n + 719468) / 146097 * 146097)
    (by omega) (by omega)
  refine ⟨(n + 719468) / 146097, e, by omega, ?_⟩
  simp only [ofDay, hera, ← he, e.yearOfEra_eq, e.day_eq, ofMarch]
  congr 1
  have := e.day_bounds
  split <;> split <;> omega

theorem toDay_ofMarch {year month day : Int} (hm : 0 ≤ month ∧ month ≤ 11) (hd : 1 ≤ day) :
    toDay (ofMarch year month day) =
      year / 400 * 146097 + (365 * (year % 400) + year % 400 / 4 - year % 400 / 100) +
        ((153 * month + 2) / 5 + day - 1) - 719468 := by
  have hera : Int.fdiv year 400 = year / 400 := Int.fdiv_eq_ediv_of_nonneg _ (by decide)
  by_cases hlate : month < 10
  · have hmonth : ¬ (month + 3).toNat ≤ 2 := by omega
    simp only [toDay, ofMarch, hlate, hmonth, if_true, if_false, hera]
    omega
  · have hmonth : (month - 9).toNat ≤ 2 := by omega
    have hyear : year + 1 - 1 = year := by omega
    simp only [toDay, ofMarch, hlate, hmonth, if_true, if_false, hyear, hera]
    omega

/-- The date of a day has the number of that day. -/
theorem toDay_ofDay (n : Int) : (ofDay n).toDay = n := by
  obtain ⟨era, e, hn, hdate⟩ := ofDay_eq n
  have hday := e.day_bounds
  have hyear := e.yearOfEra_bounds
  rw [hdate, toDay_ofMarch (by omega) (by omega)]
  have hquot : (e.yearOfEra + era * 400) / 400 = era := by omega
  have hrem : (e.yearOfEra + era * 400) % 400 = e.yearOfEra := by omega
  rw [hquot, hrem]
  have := e.day_eq
  omega

theorem isReal_ofDay (n : Int) : (ofDay n).isReal = true := by
  obtain ⟨era, e, hn, hdate⟩ := ofDay_eq n
  have hday := e.day_bounds
  have hleap := e.isLeapYear_of_last_day era
  rw [hdate]
  generalize hm : (5 * e.day + 2) / 153 = m
  generalize e.yearOfEra + era * 400 = year at hleap ⊢
  rcases (by omega : m = 11 ∨ 0 ≤ m ∧ m ≤ 10) with rfl | ⟨hlow, hhigh⟩
  · -- February, with a 29th day where the year has a last day.
    by_cases hlast : e.day = 365
    · simp [isReal, ofMarch, daysInMonth, hleap hlast, hlast]
    · cases leap : isLeapYear (year + 1) <;> simp [isReal, ofMarch, daysInMonth, leap] <;> omega
  · interval_cases m <;> simp [isReal, ofMarch, daysInMonth] <;> omega

/-- The bounds a reader checks for a month and a day hold in every month. -/
theorem bounds_of_isReal {d : Date} (h : d.isReal = true) :
    1 ≤ d.month ∧ d.month ≤ 12 ∧ 1 ≤ d.day ∧ d.day ≤ 31 := by
  have hmonth : daysInMonth d.year d.month ≤ 31 := by
    unfold daysInMonth
    split
    · split <;> decide
    all_goals decide
  simp only [isReal, Bool.and_eq_true, decide_eq_true_eq] at h
  omega

end Interlock.Time.Date
