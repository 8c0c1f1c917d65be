import RecordMapper.Sql.Command
import RecordMapper.Store.Content
import RecordMapper.Store.Fault
import RecordMapper.Text.Glob

namespace RecordMapper.Store

open RecordMapper.Number RecordMapper.Text

structure Binding where
  label : String
  table : StoredTable
  row : StoredRow

abbrev Bindings := List Binding

structure Cell where
  value : Value
  affinity : Affinity

def Bindings.cell (b : Bindings) (c : Sql.ColumnName) : Cell :=
  match List.find? (fun e => e.label == c.label) b with
  | none => ⟨.null, .blob⟩
  | some e =>
    match e.table.spot? c.name with
    | none => ⟨.null, .blob⟩
    | some spot => ⟨e.row.valueOf spot, e.table.affinityOf spot⟩

def Bindings.value (b : Bindings) (c : Sql.ColumnName) : Value :=
  (b.cell c).value

def compareCells (op : Comparison) (left right : Cell) : Truth :=
  let affinity := left.affinity.ofColumns right.affinity
  compareTruth op (affinity.compared left.value) (affinity.compared right.value)

def compareCell (op : Comparison) (cell : Cell) (v : Value) : Truth :=
  compareTruth op (cell.affinity.compared cell.value) (cell.affinity.compared (admitted v))

def memberTruth (cell : Cell) (values : List Value) : Truth :=
  values.foldr (fun v rest => Truth.or (compareCell .eq cell v) rest) (some false)

def subjectCodes? : Value → Option (List Nat)
  | .null => none
  | .integer n => some (Glob.textCodes (toString n.toInt))
  | .real x => some (Glob.textCodes x.fifteenDigitText)
  | .text s => some (Glob.textCodes s)
  | .blob b => some (Glob.codes (utf8Codes b))

def foldCode (code : Nat) : Nat :=
  if 65 ≤ code ∧ code ≤ 90 then code + 32 else code

def globTruth (folded : Bool) (pattern : String) (v : Value) : Truth :=
  (subjectCodes? v).map fun codes =>
    Glob.accepts (Glob.textCodes pattern) (if folded then codes.map foldCode else codes)

def patternLimit : Nat := 50000

def globTest (folded : Bool) (pattern : String) (v : Value) : Except FaultCause Truth :=
  if patternLimit < pattern.utf8ByteSize then .error .patternTooComplex else .ok (globTruth folded pattern v)

def conditionTruth (b : Bindings) : Sql.Condition → Truth
  | .constant holds => some holds
  | .columns left op right => compareCells op (b.cell left) (b.cell right)
  | .value c op v => compareCell op (b.cell c) v
  | .null c negated => some ((b.value c).isNull != negated)
  | .member c values negated =>
    let truth := memberTruth (b.cell c) values
    if negated then truth.not else truth
  | .glob c folded pattern => globTruth folded pattern (b.value c)
  | .and left right => (conditionTruth b left).and (conditionTruth b right)
  | .or left right => (conditionTruth b left).or (conditionTruth b right)
  | .not inner => (conditionTruth b inner).not

def keeps (b : Bindings) : Option Sql.Condition → Bool
  | none => true
  | some condition => (conditionTruth b condition).holds

/-- Whether a condition comes out as `goal`. The parts are looked at from left to right, and no further than until it is
    settled, so a pattern that cannot be matched does no harm behind a part that settles it. -/
def comesOut (b : Bindings) (goal : Bool) : Sql.Condition → Except FaultCause Bool
  | .glob c folded pattern => (globTest folded pattern (b.value c)).map fun truth => truth == some goal
  | .and left right => do
    let first ← comesOut b goal left
    if first == goal then comesOut b goal right else pure first
  | .or left right => do
    let first ← comesOut b goal left
    if first == goal then pure first else comesOut b goal right
  | .not inner => comesOut b (!goal) inner
  | condition => .ok (conditionTruth b condition == some goal)

def sift (b : Bindings) : Option Sql.Condition → Except FaultCause Bool
  | none => .ok true
  | some condition => comesOut b true condition

end RecordMapper.Store
