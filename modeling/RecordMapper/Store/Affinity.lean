import RecordMapper.Number.Numeral
import RecordMapper.Value

namespace RecordMapper.Store

open RecordMapper.Number RecordMapper.Text

inductive Affinity where
  | text
  | numeric
  | real
  | blob
  deriving DecidableEq, Repr

namespace Affinity

def contains (text part : List Char) : Bool :=
  match text with
  | [] => part.isEmpty
  | c :: rest => part.isPrefixOf (c :: rest) || contains rest part

/-- Decided by the words that occur anywhere in a declared type. -/
def ofDeclared (declared : String) : Affinity :=
  let has (word : String) : Bool := contains (foldCase declared).toList word.toList
  if has "int" then .numeric
  else if has "char" || has "clob" || has "text" then .text
  else if has "blob" || declared.isEmpty then .blob
  else if has "real" || has "floa" || has "doub" then .real
  else .numeric

end Affinity

/-- The number that a text is from end to end; a whole one is exact if it fits 64 bits. -/
def numberOf? (text : String) : Option Value :=
  match readNumeral text.toList with
  | (.wholeInteger, x) =>
    match readInteger text.toList with
    | (.whole, n) => some (.integer (Int64.ofInt n))
    | _ => some (.real x)
  | (.wholeReal, x) => some (.real x)
  | _ => none

/-- A real number as the integer it equals, if that is in range and none of the ends. -/
def settled (x : Binary64) : Value :=
  match x.whole? with
  | some n => if -9223372036854775808 < n ∧ n < 9223372036854775807 then .integer (Int64.ofInt n) else .real x
  | none => .real x

def textOf (v : Value) : Value :=
  match v with
  | .integer n => .text (toString n.toInt)
  | .real x => .text x.fifteenDigitText
  | v => v

def realOf (v : Value) : Value :=
  match v with
  | .integer n => .real (.ofInt n.toInt)
  | .real x => if x.key = 0 then .real .zero else .real x
  | v => v

def Affinity.stored : Affinity → Value → Value
  | .text, v => textOf v
  | .numeric, .text s =>
    match numberOf? s with
    | some (.real x) => settled x
    | some v => v
    | none => .text s
  | .numeric, .real x => settled x
  | .real, .text s => (numberOf? s).elim (.text s) realOf
  | .real, v => realOf v
  | _, v => v

def Affinity.compared : Affinity → Value → Value
  | .text, v => textOf v
  | .numeric, .text s | .real, .text s => (numberOf? s).getD (.text s)
  | _, v => v

def Affinity.ofColumns : Affinity → Affinity → Affinity
  | .numeric, _ | .real, _ | _, .numeric | _, .real => .numeric
  | _, _ => .blob

def admitted (v : Value) : Value :=
  match v with
  | .real x => if x.isNaN then .null else v
  | v => v

end RecordMapper.Store
