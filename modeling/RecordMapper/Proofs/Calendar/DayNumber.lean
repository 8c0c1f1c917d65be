import Mathlib.Tactic.IntervalCases
import RecordMapper.Calendar.Date

namespace RecordMapper.Calendar

namespace Date

/-- Days before a year of an era, both counted from March. -/
def daysInEra (year : Int) : Int :=
  365 * year + year / 4 - year / 100

theorem daysToMarch_era (year : Int) :
    daysToMarch year = 146097 * (year / 400) + daysInEra (year % 400) := by
  unfold daysToMarch daysInEra
  omega

theorem yearOfEra_eq {year day : Int} (era : 0 ≤ year ∧ year < 400) (bounds : 0 ≤ day ∧ day ≤ 365)
    (last : day = 365 → (year + 1) % 4 = 0 ∧ ((year + 1) % 100 ≠ 0 ∨ (year + 1) % 400 = 0)) :
    ((daysInEra year + day) - (daysInEra year + day) / 1460 + (daysInEra year + day) / 36524 -
      (daysInEra year + day) / 146096) / 365 = year := by
  unfold daysInEra
  obtain ⟨days, total⟩ : ∃ days, days = 365 * year + year / 4 - year / 100 + day := ⟨_, rfl⟩
  rw [← total]
  have fours : days / 1460 = year / 4 ∨ days / 1460 = year / 4 + 1 := by omega
  have centuries : days / 36524 = year / 100 ∨ days / 36524 = year / 100 + 1 := by omega
  have eras : days / 146096 = 0 ∨ days / 146096 = 1 := by omega
  rcases fours with f | f <;> rcases centuries with c | c <;> rcases eras with e | e <;> rw [f, c, e] <;> omega

def marchYear (d : Date) : Int :=
  if d.month ≤ 2 then d.year - 1 else d.year

def marchMonth (d : Date) : Nat :=
  (d.month + 9) % 12

def dayOfYear (d : Date) : Int :=
  daysToMonth d.marchMonth + (d.day - 1)

theorem dayNumber_eq (d : Date) : d.dayNumber + epochOffset =
    146097 * (d.marchYear / 400) + (daysInEra (d.marchYear % 400) + d.dayOfYear) := by
  have years := daysToMarch_era d.marchYear
  have same : d.dayNumber = daysToMarch d.marchYear + d.dayOfYear - epochOffset := by
    show daysToMarch d.marchYear + daysToMonth d.marchMonth + (d.day - 1) - epochOffset = _
    unfold dayOfYear
    omega
  omega

theorem isLeapYear_iff (year : Int) :
    isLeapYear year = true ↔ year % 4 = 0 ∧ (year % 100 ≠ 0 ∨ year % 400 = 0) := by
  simp [isLeapYear]

theorem dayOfYear_spec (d : Date) : (0 ≤ d.dayOfYear ∧ d.dayOfYear ≤ 365) ∧
    (5 * d.dayOfYear + 2) / 153 = d.marchMonth ∧
    d.dayOfYear - (153 * (d.marchMonth : Int) + 2) / 5 + 1 = d.day ∧
    (d.dayOfYear = 365 → d.month = 2 ∧ isLeapYear d.year = true) := by
  obtain ⟨year, month, day, isDate⟩ := d
  obtain ⟨-, -, firstMonth, lastMonth, firstDay, lastDay⟩ := isDate
  simp only [dayOfYear, marchMonth, daysToMonth]
  interval_cases month
  case «2» =>
    have leap : daysInMonth year 2 = if isLeapYear year then 29 else 28 := rfl
    rw [leap] at lastDay
    split at lastDay
    · rename_i leaps
      exact ⟨by omega, by omega, by omega, fun _ => ⟨rfl, leaps⟩⟩
    · omega
  all_goals
    simp only [daysInMonth] at lastDay
    omega

/-- The date that a day number stands for is the one that has it. -/
theorem ofDayNumber?_dayNumber (d : Date) : ofDayNumber? d.dayNumber = some d := by
  obtain ⟨bounds, month, day, last⟩ := d.dayOfYear_spec
  have era : 0 ≤ d.marchYear % 400 ∧ d.marchYear % 400 < 400 := by omega
  have leaps : d.dayOfYear = 365 → (d.marchYear % 400 + 1) % 4 = 0 ∧
      ((d.marchYear % 400 + 1) % 100 ≠ 0 ∨ (d.marchYear % 400 + 1) % 400 = 0) := by
    intro long
    obtain ⟨february, leap⟩ := last long
    have before : d.marchYear = d.year - 1 := if_pos (by omega)
    rw [isLeapYear_iff] at leap
    omega
  have year := yearOfEra_eq era bounds leaps
  have short : 0 ≤ daysInEra (d.marchYear % 400) + d.dayOfYear ∧
      daysInEra (d.marchYear % 400) + d.dayOfYear < 146097 := by
    unfold daysInEra
    omega
  have eras : (d.dayNumber + epochOffset) / 146097 = d.marchYear / 400 := by
    rw [dayNumber_eq]
    omega
  have rest : (d.dayNumber + epochOffset) % 146097 = daysInEra (d.marchYear % 400) + d.dayOfYear := by
    rw [dayNumber_eq]
    omega
  have within : daysInEra (d.marchYear % 400) + d.dayOfYear - (365 * (d.marchYear % 400) + d.marchYear % 400 / 4 -
      d.marchYear % 400 / 100) = d.dayOfYear := by
    unfold daysInEra
    omega
  simp only [ofDayNumber?, eras, rest, year, within, month]
  have months : (if (d.marchMonth : Int) < 10 then (d.marchMonth : Int) + 3 else d.marchMonth - 9) = d.month := by
    have bound := d.isDate
    unfold IsDate at bound
    unfold marchMonth
    split <;> omega
  have years : d.marchYear % 400 + d.marchYear / 400 * 400 + (if (d.month : Int) ≤ 2 then 1 else 0) = d.year := by
    unfold marchYear
    split <;> split <;> omega
  rw [months, day, years, Int.toNat_natCast, Int.toNat_natCast]
  exact of?_eq_some d

end Date

end RecordMapper.Calendar
