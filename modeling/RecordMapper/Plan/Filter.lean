import RecordMapper.Plan.Scope

namespace RecordMapper

open RecordMapper.Text

namespace Predicate

def compareWithValue (scope : Scope) (c : ColumnRef) (op : Comparison) (v : Value) :
    Except Malformation Sql.Condition := do
  let column ← scope.resolve c
  match v, op with
  | .null, .eq => pure (.null column false)
  | .null, .ne => pure (.null column true)
  | .null, op => throw (.nullOrdered column.text op)
  | v, op => pure (.value column op v)

def compareOperands (scope : Scope) : Operand → Comparison → Operand → Except Malformation Sql.Condition
  | .list _, op, _ | _, op, .list _ => throw (.listCompared op)
  | .column a, op, .column b => do
    let left ← scope.resolve a
    let right ← scope.resolve b
    pure (.columns left op right)
  | .column c, op, .value v => compareWithValue scope c op v
  | .value v, op, .column c => compareWithValue scope c op.flipped v
  | .value .null, _, .value .null => throw .nullWithNull
  | .value _, _, .value _ => throw .noColumnOperand

def memberTest (scope : Scope) (c : ColumnRef) (values : List Value) (negated : Bool) :
    Except Malformation Sql.Condition := do
  let column ← scope.resolve c
  if values.isEmpty then
    pure (.constant negated)
  else
    pure (.member column values negated)

/-- A pattern that ignores case is in small letters, as is the text it is compared with. -/
def patternTest (scope : Scope) (c : ColumnRef) (p : Pattern) : Except Malformation Sql.Condition := do
  let column ← scope.resolve c
  let text := if p.ignoreCase then foldCase p.text else p.text
  let test := Sql.Condition.glob column p.ignoreCase (p.kind.glob text)
  pure (if p.negated then .not test else test)

def condition (scope : Scope) : Predicate → Except Malformation Sql.Condition
  | .compare left op right => compareOperands scope left op right
  | .member c values negated => memberTest scope c values negated
  | .pattern c p => patternTest scope c p
  | .and left right => do
    let a ← left.condition scope
    let b ← right.condition scope
    pure (.and a b)
  | .or left right => do
    let a ← left.condition scope
    let b ← right.condition scope
    pure (.or a b)
  | .not inner => do
    let a ← inner.condition scope
    pure (.not a)

def conditionOf (scope : Scope) : Option Predicate → Except Malformation (Option Sql.Condition)
  | none => pure none
  | some p => do
    let c ← p.condition scope
    pure (some c)

end Predicate

end RecordMapper
