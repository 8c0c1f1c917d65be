import RecordMapper.Text.Ascii
import RecordMapper.Text.Blank
import RecordMapper.Text.Utf8

namespace RecordMapper.Calendar

open RecordMapper.Text

inductive TimeFault where
  | tooShort
  | invalid
  | outOfRange
  | trailing
  deriving DecidableEq, Repr

def TimeFault.message : TimeFault → String
  | .tooShort => "premature end of input"
  | .invalid => "input contains invalid characters"
  | .outOfRange => "input is out of range"
  | .trailing => "trailing input"

abbrev Scan (α : Type) := StateT (List Char) (Except TimeFault) α

namespace Scan

def fail {α : Type} (fault : TimeFault) : Scan α :=
  fun _ => .error fault

def ofOption {α : Type} (fault : TimeFault) : Option α → Scan α
  | some a => pure a
  | none => fail fault

def maxNumber : Nat := 9223372036854775807

def digitRun (max : Option Nat) (text : List Char) : List Char :=
  let run := text.takeWhile isDigit
  match max with
  | some max => run.take max
  | none => run

def number (min : Nat) (max : Option Nat) : Scan Nat := fun text =>
  if byteCount text < min then .error .tooShort
  else
    let digits := digitRun max text
    if digits.length < min then .error .invalid
    else if maxNumber < decimalValue digits then .error .outOfRange
    else .ok (decimalValue digits, text.drop digits.length)

def char (expected : Char) : Scan Unit := fun text =>
  match text with
  | [] => .error .tooShort
  | c :: rest => if c = expected then .ok ((), rest) else .error .invalid

def skipBlanks : Scan Unit := fun text => .ok ((), dropBlanks text)

def inRange (low high : Nat) (n : Nat) : Scan Nat :=
  if low ≤ n ∧ n ≤ high then pure n else fail .outOfRange

def optional (c : Char) : Scan Bool := fun text =>
  match text with
  | d :: rest => if d = c then .ok (true, rest) else .ok (false, text)
  | [] => .ok (false, [])

/-- Digits behind a point as nanoseconds: nine count, more are skipped. -/
def nanoseconds : Scan Nat := fun text => do
  let (value, rest) ← number 1 (some 9) text
  let places := text.length - rest.length
  return (value * Nat.pow 10 (9 - places), rest.dropWhile isDigit)

def fraction : Scan Nat := do
  if ← optional '.' then nanoseconds else pure 0

def endOfText : Scan Unit := fun text =>
  if text.isEmpty then .ok ((), []) else .error .trailing

def twoDigits (tens : Nat) : Scan Nat := fun text =>
  if byteCount text < 2 then .error .tooShort
  else
    match text with
    | a :: b :: rest =>
      if !isDigit a || !isDigit b then .error .invalid
      else if tens < digitValue a then .error .outOfRange
      else .ok (10 * digitValue a + digitValue b, rest)
    | _ => .error .invalid

def run {α : Type} (scan : Scan α) (text : String) : Except TimeFault α :=
  (scan text.toList).map Prod.fst

end Scan

end RecordMapper.Calendar
