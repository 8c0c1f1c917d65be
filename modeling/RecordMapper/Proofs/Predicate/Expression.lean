import RecordMapper.Sql.Token
import RecordMapper.Store.Reading

namespace RecordMapper.Sql

open RecordMapper.Text

inductive Keyword where
  | and
  | or
  | not
  | is
  | null
  | member
  | glob
  deriving DecidableEq, Repr

def Keyword.spellings : List (String × Keyword) :=
  [("AND", .and), ("OR", .or), ("NOT", .not), ("IS", .is), ("NULL", .null), ("IN", .member), ("GLOB", .glob)]

def keyword? (word : String) : Option Keyword :=
  (Keyword.spellings.find? fun e => sameIgnoringCase word e.1).map Prod.snd

/-- What a token is to a reader of expressions; `foreign` tokens have no place in one. -/
inductive Terminal where
  | opening
  | closing
  | comma
  | dot
  | placeholder
  | number (digits : String)
  | quoted (name : String)
  | label (word : String)
  | keyword (k : Keyword)
  | comparison (op : Comparison)
  | foreign
  deriving DecidableEq, Repr

namespace Terminal

def ofSymbol (text : String) : Terminal :=
  if text = "(" then .opening
  else if text = ")" then .closing
  else if text = "," then .comma
  else if text = "." then .dot
  else if text = "=" then .comparison .eq
  else if text = "<>" then .comparison .ne
  else if text = "<" then .comparison .lt
  else if text = "<=" then .comparison .le
  else if text = ">" then .comparison .gt
  else if text = ">=" then .comparison .ge
  else .foreign

def ofToken : Token → Terminal
  | .word text => (keyword? text).elim (.label text) .keyword
  | .quoted name => .quoted name
  | .string _ => .foreign
  | .number digits => .number digits
  | .placeholder => .placeholder
  | .symbol text => ofSymbol text

end Terminal

inductive Expression where
  | column (column : ColumnName)
  | bound (value : Value)
  | number (digits : String)
  | lower (inner : Expression)
  | compare (op : Comparison) (left right : Expression)
  | null (subject : Expression) (negated : Bool)
  | member (subject : Expression) (items : List Expression) (negated : Bool)
  | glob (subject pattern : Expression) (negated : Bool)
  | not (inner : Expression)
  | and (left right : Expression)
  | or (left right : Expression)

inductive Operator where
  | or
  | and
  | compare (op : Comparison)
  | glob (negated : Bool)
  deriving DecidableEq, Repr

def negationRank : Nat := 3

def testRank : Nat := 4

namespace Operator

def rank : Operator → Nat
  | .or => 1
  | .and => 2
  | .compare .eq | .compare .ne | .glob _ => testRank
  | .compare _ => testRank + 1

def apply (left right : Expression) : Operator → Expression
  | .or => .or left right
  | .and => .and left right
  | .compare op => .compare op left right
  | .glob negated => .glob left right negated

end Operator

/-- What waits for the operand that is being read. -/
inductive Frame where
  | group
  | lower
  | negation
  | operation (left : Expression) (op : Operator)
  | items (subject : Expression) (negated : Bool) (before : List Expression)

/-- Gives the operand to the frames on top that bind at least as tightly as `rank`. -/
def reduce (rank : Nat) (operand : Expression) : List Frame → Expression × List Frame
  | .negation :: frames =>
    if rank ≤ negationRank then reduce rank (.not operand) frames else (operand, .negation :: frames)
  | .operation left op :: frames =>
    if rank ≤ op.rank then reduce rank (op.apply left operand) frames
    else (operand, .operation left op :: frames)
  | frames => (operand, frames)

def close (operand : Expression) (frames : List Frame) : Option (Expression × List Frame) :=
  match reduce 0 operand frames with
  | (operand, .group :: frames) => some (operand, frames)
  | (operand, .lower :: frames) => some (.lower operand, frames)
  | (operand, .items subject negated before :: frames) =>
    some (.member subject (before ++ [operand]) negated, frames)
  | _ => none

mutual

/-- Reads on where an operand must begin. Each placeholder takes the next parameter. -/
def readOperand : List Terminal → List Value → List Frame → Option Expression
  | .opening :: rest, params, frames => readOperand rest params (.group :: frames)
  | .keyword .not :: rest, params, frames => readOperand rest params (.negation :: frames)
  | .placeholder :: rest, v :: params, frames => readOperator (.bound v) rest params frames
  | .number digits :: rest, params, frames => readOperator (.number digits) rest params frames
  | .label label :: .dot :: .quoted name :: rest, params, frames =>
    readOperator (.column ⟨label, name⟩) rest params frames
  | .label function :: .opening :: rest, params, frames =>
    if sameIgnoringCase function "lower" then readOperand rest params (.lower :: frames) else none
  | _, _, _ => none

/-- Reads on behind an operand; at the end nothing may be left, parameters included. -/
def readOperator (operand : Expression) : List Terminal → List Value → List Frame → Option Expression
  | [], [], frames =>
    match reduce 0 operand frames with
    | (whole, []) => some whole
    | _ => none
  | .closing :: rest, params, frames =>
    match close operand frames with
    | some (operand, frames) => readOperator operand rest params frames
    | none => none
  | .comma :: rest, params, frames =>
    match reduce 0 operand frames with
    | (item, .items subject negated before :: frames) =>
      readOperand rest params (.items subject negated (before ++ [item]) :: frames)
    | _ => none
  | .keyword .or :: rest, params, frames => readOperation operand .or rest params frames
  | .keyword .and :: rest, params, frames => readOperation operand .and rest params frames
  | .comparison op :: rest, params, frames => readOperation operand (.compare op) rest params frames
  | .keyword .glob :: rest, params, frames => readOperation operand (.glob false) rest params frames
  | .keyword .not :: .keyword .glob :: rest, params, frames =>
    readOperation operand (.glob true) rest params frames
  | .keyword .is :: .keyword .null :: rest, params, frames =>
    let (subject, frames) := reduce testRank operand frames
    readOperator (.null subject false) rest params frames
  | .keyword .is :: .keyword .not :: .keyword .null :: rest, params, frames =>
    let (subject, frames) := reduce testRank operand frames
    readOperator (.null subject true) rest params frames
  | .keyword .member :: .opening :: rest, params, frames =>
    let (subject, frames) := reduce testRank operand frames
    readOperand rest params (.items subject false [] :: frames)
  | .keyword .not :: .keyword .member :: .opening :: rest, params, frames =>
    let (subject, frames) := reduce testRank operand frames
    readOperand rest params (.items subject true [] :: frames)
  | _, _, _ => none

def readOperation (operand : Expression) (op : Operator) :
    List Terminal → List Value → List Frame → Option Expression
  | rest, params, frames =>
    let (left, frames) := reduce op.rank operand frames
    readOperand rest params (.operation left op :: frames)

end

/-- The one expression that a text is, with all of the parameters. -/
def Expression.read (sql : String) (params : List Value) : Option Expression :=
  match lexemes sql with
  | (found, none) => readOperand (found.map fun l => .ofToken l.token) params []
  | (_, some _) => none

-- Without parentheses, NOT is given the whole comparison, and OR the whole conjunction.
example : Expression.read "NOT t0.\"a\" = ? OR t0.\"b\" IS NULL AND ?" [.integer 1, .integer 2] =
    some (.or (.not (.compare .eq (.column ⟨"t0", "a"⟩) (.bound (.integer 1))))
      (.and (.null (.column ⟨"t0", "b"⟩) false) (.bound (.integer 2)))) := by
  cbv

end RecordMapper.Sql
