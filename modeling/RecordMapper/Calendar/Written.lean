import RecordMapper.Calendar.Moment
import RecordMapper.Calendar.Scan

namespace RecordMapper.Calendar

open RecordMapper.Text

def yearText (year : Int) : String :=
  if 0 ≤ year ∧ year ≤ 9999 then paddedDecimal 4 year.natAbs
  else (if year < 0 then "-" else "+") ++ paddedDecimal 4 year.natAbs

def Date.text (d : Date) : String :=
  yearText d.year ++ "-" ++ paddedDecimal 2 d.month ++ "-" ++ paddedDecimal 2 d.day

/-- Second of the minute. A leap second is shown as the second after it, which is sixty at the end of a minute. -/
def Moment.shownSecond (m : Moment) : Nat :=
  m.second % 60 + m.nanosecond / billion

def Moment.localText (m : Moment) : String :=
  m.date.text ++ "T" ++ paddedDecimal 2 (m.second / 3600) ++ ":" ++ paddedDecimal 2 (m.second / 60 % 60) ++
    ":" ++ paddedDecimal 2 m.shownSecond ++ "." ++ paddedDecimal 9 (m.nanosecond % billion)

def Moment.universalText (m : Moment) : String :=
  m.localText ++ "Z"

namespace Scan

def timeOfDay (date : Date) (hour minute second nanosecond : Nat) : Scan Moment :=
  let leap := second = 60
  let second := if leap then 59 else second
  ofOption .outOfRange
    (Moment.of? date (hour * 3600 + minute * 60 + second) (if leap then billion + nanosecond else nanosecond))

def field (width low high : Nat) : Scan Nat := do
  skipBlanks
  inRange low high (← number 1 (some width))

def signedNumber : Scan Int := do
  if ← optional '-' then
    let size ← number 1 none
    pure (-size)
  else if ← optional '+' then
    let size ← number 1 none
    pure size
  else
    let size ← number 1 (some 4)
    pure size

def signedYear : Scan Int := do
  skipBlanks
  let year ← signedNumber
  if year < -2147483648 ∨ 2147483647 < year then fail .outOfRange else pure year

def dateFields : Scan (Int × Nat × Nat) := do
  let year ← signedYear
  char '-'
  let month ← field 2 1 12
  char '-'
  let day ← field 2 1 31
  return (year, month, day)

def date : Scan Date := do
  let (year, month, day) ← dateFields
  endOfText
  ofOption .outOfRange (Date.of? year month day)

def localMoment : Scan Moment := do
  let (year, month, day) ← dateFields
  char 'T'
  let hour ← field 2 0 23
  char ':'
  let minute ← field 2 0 59
  char ':'
  let second ← field 2 0 60
  let nanosecond ← fraction
  endOfText
  timeOfDay (← ofOption .outOfRange (Date.of? year month day)) hour minute second nanosecond

def digit : Scan Nat := fun text =>
  match text with
  | c :: rest => if isDigit c then .ok (digitValue c, rest) else .error .invalid
  | [] => .error .invalid

def digitPair : Scan Nat := do
  let tens ← digit
  let ones ← digit
  return 10 * tens + ones

def mark (allowed : List Char) : Scan Unit := fun text =>
  match text with
  | c :: rest => if c ∈ allowed then .ok ((), rest) else .error .invalid
  | [] => .error .invalid

def fixedLength : Nat := 19

def offsetSign : Scan Bool := fun text =>
  match text with
  | [] => .error .tooShort
  | c :: rest =>
    if c = '+' then .ok (false, rest)
    else if c = '-' || c = '\u2212' then .ok (true, rest)
    else .error .invalid

def offset : Scan Int := do
  if ← optional 'Z' then pure 0
  else if ← optional 'z' then pure 0
  else
    let negative ← offsetSign
    let hours ← twoDigits 9
    char ':'
    let minutes ← twoDigits 5
    let size : Nat := hours * 3600 + minutes * 60
    pure (if negative then -(size : Int) else size)

def maxOffset : Nat := 23 * 3600 + 59 * 60

def universalMoment : Scan Moment := do
  if byteCount (← get) < fixedLength then fail .tooShort
  let century ← digitPair
  let year : Nat := 100 * century + (← digitPair)
  mark ['-']
  let month ← digitPair
  mark ['-']
  let day ← digitPair
  let date ← ofOption .outOfRange (Date.of? year month day)
  mark ['T', 't', ' ']
  let hour ← digitPair
  mark [':']
  let minute ← digitPair
  mark [':']
  let second ← digitPair
  let nanosecond ← fraction
  if 23 < hour ∨ 59 < minute ∨ 60 < second then fail .outOfRange
  let moment ← timeOfDay date hour minute second nanosecond
  let ahead ← offset
  endOfText
  if maxOffset < ahead.natAbs then fail .outOfRange
  ofOption .outOfRange (moment.behind? ahead)

end Scan

def Date.ofText (text : String) : Except TimeFault Date :=
  Scan.date.run text

def Moment.ofLocalText (text : String) : Except TimeFault Moment :=
  Scan.localMoment.run text

def Moment.ofUniversalText (text : String) : Except TimeFault Moment :=
  Scan.universalMoment.run text

end RecordMapper.Calendar
