import RecordMapper.Predicate.Comparison
import RecordMapper.Text.Glob
import RecordMapper.Value

namespace RecordMapper

open RecordMapper.Text

/-- A column; without a table it is one of the query's root table. -/
structure ColumnRef where
  table : Option String
  column : String
  deriving DecidableEq, Repr

inductive Operand where
  | column (column : ColumnRef)
  | value (value : Value)
  | list (values : List Value)
  deriving DecidableEq

inductive PatternKind where
  | contains
  | startsWith
  | endsWith
  deriving DecidableEq, Repr

structure Pattern where
  kind : PatternKind
  text : String
  negated : Bool
  ignoreCase : Bool
  deriving DecidableEq, Repr

namespace Pattern

def make (kind : PatternKind) (text : String) : Pattern :=
  ⟨kind, text, false, false⟩

def ignoringCase (p : Pattern) : Pattern :=
  { p with ignoreCase := true }

def negate (p : Pattern) : Pattern :=
  { p with negated := !p.negated }

end Pattern

def PatternKind.glob (kind : PatternKind) (text : String) : String :=
  match kind with
  | .contains => "*" ++ Glob.literal text ++ "*"
  | .startsWith => Glob.literal text ++ "*"
  | .endsWith => "*" ++ Glob.literal text

inductive Predicate where
  | compare (left : Operand) (op : Comparison) (right : Operand)
  | member (column : ColumnRef) (values : List Value) (negated : Bool)
  | pattern (column : ColumnRef) (pattern : Pattern)
  | and (left right : Predicate)
  | or (left right : Predicate)
  | not (inner : Predicate)
  deriving DecidableEq

namespace Predicate

def combined (combine : Predicate → Predicate → Predicate) : List Predicate → Option Predicate
  | [] => none
  | first :: rest => some (rest.foldl combine first)

def all : List Predicate → Option Predicate :=
  combined .and

def any : List Predicate → Option Predicate :=
  combined .or

def restrict (existing : Option Predicate) (p : Predicate) : Predicate :=
  match existing with
  | none => p
  | some q => .and q p

end Predicate

namespace ColumnRef

def isNull (c : ColumnRef) : Predicate :=
  .compare (.column c) .eq (.value .null)

def isNotNull (c : ColumnRef) : Predicate :=
  .compare (.column c) .ne (.value .null)

def isIn (c : ColumnRef) (values : List Value) : Predicate :=
  .member c values false

def notIn (c : ColumnRef) (values : List Value) : Predicate :=
  .member c values true

end ColumnRef

end RecordMapper
