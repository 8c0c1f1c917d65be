import RecordMapper.Calendar.Date

namespace RecordMapper.Calendar

def secondsPerDay : Nat := 86400
def billion : Nat := 1000000000

/-- A billion nanoseconds or more mark a leap second, whichever second of a minute they stand behind. -/
def IsTimeOfDay (second nanosecond : Nat) : Prop :=
  second < secondsPerDay ∧ nanosecond < 2 * billion

instance (second nanosecond : Nat) : Decidable (IsTimeOfDay second nanosecond) := by
  unfold IsTimeOfDay
  infer_instance

structure Moment where
  date : Date
  second : Nat
  nanosecond : Nat
  isTime : IsTimeOfDay second nanosecond

namespace Moment

instance : DecidableEq Moment := fun a b =>
  if h : a.date = b.date ∧ a.second = b.second ∧ a.nanosecond = b.nanosecond then
    isTrue (by cases a; cases b; simp_all)
  else isFalse (by rintro rfl; simp at h)

def of? (date : Date) (second nanosecond : Nat) : Option Moment :=
  if h : IsTimeOfDay second nanosecond then some ⟨date, second, nanosecond, h⟩ else none

/-- Seconds from the start of 1970, a leap second counted with the one before it. -/
def unixSeconds (m : Moment) : Int :=
  m.date.dayNumber * secondsPerDay + m.second

def ofUnix? (seconds : Int) (nanosecond : Nat) : Option Moment := do
  let date ← Date.ofDayNumber? (seconds / (secondsPerDay : Int))
  of? date (seconds % (secondsPerDay : Int)).toNat nanosecond

def behind? (m : Moment) (offset : Int) : Option Moment := do
  let total := (m.second : Int) - offset
  let date ← Date.ofDayNumber? (m.date.dayNumber + total / (secondsPerDay : Int))
  of? date (total % (secondsPerDay : Int)).toNat m.nanosecond

end Moment

end RecordMapper.Calendar
