namespace RecordMapper.Calendar

def minYear : Int := -262143
def maxYear : Int := 262142

def isLeapYear (year : Int) : Bool :=
  year % 4 = 0 && (year % 100 ≠ 0 || year % 400 = 0)

def daysInMonth (year : Int) (month : Nat) : Nat :=
  match month with
  | 2 => if isLeapYear year then 29 else 28
  | 4 | 6 | 9 | 11 => 30
  | 1 | 3 | 5 | 7 | 8 | 10 | 12 => 31
  | _ => 0

def IsDate (year : Int) (month day : Nat) : Prop :=
  minYear ≤ year ∧ year ≤ maxYear ∧ 1 ≤ month ∧ month ≤ 12 ∧ 1 ≤ day ∧ day ≤ daysInMonth year month

instance (year : Int) (month day : Nat) : Decidable (IsDate year month day) := by
  unfold IsDate
  infer_instance

structure Date where
  year : Int
  month : Nat
  day : Nat
  isDate : IsDate year month day

namespace Date

instance : DecidableEq Date := fun a b =>
  if h : a.year = b.year ∧ a.month = b.month ∧ a.day = b.day then
    isTrue (by cases a; cases b; simp_all)
  else isFalse (by rintro rfl; simp at h)

def of? (year : Int) (month day : Nat) : Option Date :=
  if h : IsDate year month day then some ⟨year, month, day, h⟩ else none

/-- Days before March first of `year`, counted from March first of year zero. -/
def daysToMarch (year : Int) : Int :=
  365 * year + year / 4 - year / 100 + year / 400

def daysToMonth (fromMarch : Nat) : Nat :=
  (153 * fromMarch + 2) / 5

def epochOffset : Int := 719468

def dayNumber (d : Date) : Int :=
  let year := if d.month ≤ 2 then d.year - 1 else d.year
  let fromMarch := (d.month + 9) % 12
  daysToMarch year + daysToMonth fromMarch + (d.day - 1) - epochOffset

def ofDayNumber? (number : Int) : Option Date :=
  let days := number + epochOffset
  let era := days / 146097
  let dayOfEra := days % 146097
  let yearOfEra := (dayOfEra - dayOfEra / 1460 + dayOfEra / 36524 - dayOfEra / 146096) / 365
  let dayOfYear := dayOfEra - (365 * yearOfEra + yearOfEra / 4 - yearOfEra / 100)
  let fromMarch := (5 * dayOfYear + 2) / 153
  let day := dayOfYear - (153 * fromMarch + 2) / 5 + 1
  let month := if fromMarch < 10 then fromMarch + 3 else fromMarch - 9
  let year := yearOfEra + era * 400 + (if month ≤ 2 then 1 else 0)
  of? year month.toNat day.toNat

theorem of?_eq_some (d : Date) : of? d.year d.month d.day = some d := by
  simp [of?, d.isDate]

end Date

end RecordMapper.Calendar
