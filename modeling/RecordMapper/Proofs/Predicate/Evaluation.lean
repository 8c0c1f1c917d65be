import RecordMapper.Proofs.Predicate.ConditionText

namespace RecordMapper.Store

open RecordMapper.Text

/-- What an expression yields: a value, the affinity it brings into a comparison, and the codes that a
    pattern is matched against. -/
structure Datum where
  value : Value
  affinity : Option Affinity
  codes : Option (List Nat)

namespace Datum

def ofValue (v : Value) : Datum :=
  ⟨v, none, subjectCodes? v⟩

def ofCell (c : Cell) : Datum :=
  ⟨c.value, some c.affinity, subjectCodes? c.value⟩

def ofTruth (t : Truth) : Datum :=
  .ofValue (t.elim .null Value.ofBool)

def lowered (d : Datum) : Datum :=
  let codes := d.codes.map fun codes => codes.map foldCode
  ⟨codes.elim .null fun codes => .text (String.ofList (codes.map Char.ofNat)), none, codes⟩

end Datum

/-- A value where truth is asked for: what is not zero is true, a text or blob by the number it begins with. -/
def truthOf : Value → Truth
  | .null => none
  | .integer n => some (n != 0)
  | .real x => some (x.key != 0)
  | .text s => truthOfNumber (operandOf s.toList)
  | .blob b => truthOfNumber (operandOf ((utf8Codes b).map Char.ofNat))
where
  truthOfNumber : Value → Truth
    | .integer n => some (n != 0)
    | .real x => some (x.key != 0)
    | _ => none

/-- The affinity under which two operands are compared: a column's prevails over none. -/
def sharedAffinity : Option Affinity → Option Affinity → Affinity
  | some a, some b => a.ofColumns b
  | some a, none | none, some a => a
  | none, none => .blob

def compareData (op : Comparison) (left right : Datum) : Truth :=
  let affinity := sharedAffinity left.affinity right.affinity
  compareTruth op (affinity.compared left.value) (affinity.compared right.value)

def memberData (subject : Datum) (items : List Datum) : Truth :=
  items.foldr (fun item rest => (compareData .eq subject { item with affinity := none }).or rest) (some false)

def globData (subject pattern : Datum) : Truth :=
  match subject.codes, pattern.codes with
  | some subject, some pattern => some (Glob.accepts pattern subject)
  | _, _ => none

end RecordMapper.Store

namespace RecordMapper.Sql.Expression

open RecordMapper.Store

def turned (negated : Bool) (t : Truth) : Truth :=
  if negated then t.not else t

mutual

def datum (b : Bindings) : Expression → Datum
  | .column c => .ofCell (b.cell c)
  | .bound v => .ofValue (admitted v)
  | .number digits => .ofValue (operandOf digits.toList)
  | .lower inner => (inner.datum b).lowered
  | .compare op left right => .ofTruth (compareData op (left.datum b) (right.datum b))
  | .null subject negated => .ofTruth (some ((subject.datum b).value.isNull != negated))
  | .member subject items negated => .ofTruth (turned negated (memberData (subject.datum b) (data b items)))
  | .glob subject pattern negated => .ofTruth (turned negated (globData (subject.datum b) (pattern.datum b)))
  | .and left right => .ofTruth ((truthOf (left.datum b).value).and (truthOf (right.datum b).value))
  | .or left right => .ofTruth ((truthOf (left.datum b).value).or (truthOf (right.datum b).value))
  | .not inner => .ofTruth (truthOf (inner.datum b).value).not

def data (b : Bindings) : List Expression → List Datum
  | [] => []
  | item :: items => item.datum b :: data b items

end

/-- The three-valued truth of an expression on an assignment of rows. -/
def truth (b : Bindings) (e : Expression) : Truth :=
  truthOf (e.datum b).value

end RecordMapper.Sql.Expression

namespace RecordMapper.Sql

open RecordMapper.Store RecordMapper.Text

@[simp] theorem truthOf_ofTruth (t : Truth) : truthOf (Datum.ofTruth t).value = t := by
  rcases t with _ | _ | _ <;> rfl

theorem compareData_cells (op : Comparison) (left right : Cell) :
    compareData op (.ofCell left) (.ofCell right) = compareCells op left right := rfl

theorem compareData_value (op : Comparison) (cell : Cell) (v : Value) :
    compareData op (.ofCell cell) (.ofValue (admitted v)) = compareCell op cell v := rfl

theorem data_bound (b : Bindings) (values : List Value) :
    Expression.data b (values.map .bound) = values.map fun v => .ofValue (admitted v) := by
  induction values with
  | nil => simp [Expression.data]
  | cons v values ih => simp [Expression.data, Expression.datum, ih]

theorem memberData_values (cell : Cell) (values : List Value) :
    memberData (.ofCell cell) (values.map fun v => .ofValue (admitted v)) = memberTruth cell values := by
  induction values with
  | nil => rfl
  | cons v values ih =>
    simp only [memberData, memberTruth, List.map_cons, List.foldr_cons] at ih ⊢
    rw [ih]
    rfl

theorem globData_text (folded : Bool) (pattern : String) (cell : Cell) :
    globData (if folded then (Datum.ofCell cell).lowered else .ofCell cell) (.ofValue (admitted (.text pattern))) =
      globTruth folded pattern cell.value := by
  have taken : (Datum.ofValue (admitted (.text pattern))).codes = some (Glob.textCodes pattern) := rfl
  unfold globData globTruth
  rw [taken]
  cases folded <;> rcases codes : subjectCodes? cell.value with _ | found <;>
    simp [Datum.ofCell, Datum.lowered, codes]

/-- The expression of a condition means what the condition means. -/
theorem Condition.truth_expression (b : Bindings) (c : Condition) :
    c.expression.truth b = conditionTruth b c := by
  unfold Expression.truth
  induction c with
  | constant holds => cases holds <;> rfl
  | columns left op right =>
    simp [expression, Expression.datum, conditionTruth, compareData_cells]
  | value c op v =>
    simp [expression, Expression.datum, conditionTruth, compareData_value]
  | null c negated =>
    simp [expression, Expression.datum, conditionTruth, Datum.ofCell, Bindings.value]
  | member c values negated =>
    simp [expression, Expression.datum, conditionTruth, Expression.turned, data_bound, memberData_values]
  | glob c folded pattern =>
    have same := globData_text folded pattern (b.cell c)
    cases folded <;>
      simpa [expression, Expression.datum, conditionTruth, Expression.turned, Bindings.value] using same
  | and left right ihLeft ihRight =>
    simp [expression, Expression.datum, conditionTruth, ihLeft, ihRight]
  | or left right ihLeft ihRight =>
    simp [expression, Expression.datum, conditionTruth, ihLeft, ihRight]
  | not inner ih =>
    simp [expression, Expression.datum, conditionTruth, ih]

end RecordMapper.Sql
