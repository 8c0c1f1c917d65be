import RecordMapper.Store.Evaluation

namespace RecordMapper.Store

open RecordMapper.Number RecordMapper.Text

def bindingsOf (source : Sql.Source) (t : StoredTable) : List Binding :=
  t.rows.map fun row => ⟨source.label, t, row⟩

def extend (c : Content) (combinations : List Bindings) (link : Sql.Link) : List Bindings :=
  match c.table? link.source.table with
  | none => []
  | some t => combinations.flatMap fun b =>
      ((bindingsOf link.source t).map fun e => b ++ [e]).filter fun e =>
        (compareCells .eq (Bindings.cell e link.left) (Bindings.cell e link.right)).holds

def linkedRows (c : Content) (rows : Sql.Rows) : List Bindings :=
  match c.table? rows.source.table with
  | none => []
  | some t => rows.links.foldl (extend c) ((bindingsOf rows.source t).map fun e => [e])

def combinations (c : Content) (rows : Sql.Rows) : List Bindings :=
  (linkedRows c rows).filter fun b => keeps b rows.filter

/-- Whether `a` may stand before `b`, by the first term in which they differ. -/
def inOrder (order : List Sql.OrderTerm) (a b : Bindings) : Bool :=
  match order with
  | [] => true
  | term :: rest =>
    match compareValues (a.value term.column) (b.value term.column) with
    | .eq => inOrder rest a b
    | .lt => !term.descending
    | .gt => term.descending

def windowed {α : Type} (window : Option Sql.Window) (items : List α) : List α :=
  match window with
  | none => items
  | some w =>
    let rest := items.drop w.skip.toInt.toNat
    if w.limit.toInt < 0 then rest else rest.take w.limit.toInt.toNat

def distinctRows : List (List Value) → List (List Value)
  | [] => []
  | row :: rest => row :: (distinctRows rest).filter fun other => !sameValues row other

def select (c : Content) (columns : List Sql.ColumnName) (rows : Sql.Rows) (order : List Sql.OrderTerm)
    (window : Option Sql.Window) : List (List Value) :=
  let ordered := (combinations c rows).mergeSort (inOrder order)
  (windowed window ordered).map fun b => columns.map b.value

def countRow (n : Nat) : List Value :=
  [.integer (Int64.ofNat n)]

def count (c : Content) (rows : Sql.Rows) : Nat :=
  (combinations c rows).length

def countWindow (c : Content) (rows : Sql.Rows) (window : Sql.Window) : Nat :=
  (windowed (some window) (combinations c rows)).length

def countDistinct (c : Content) (columns : List Sql.ColumnName) (rows : Sql.Rows)
    (window : Option Sql.Window) : Nat :=
  (windowed window (distinctRows ((combinations c rows).map fun b => columns.map b.value))).length

def tableExists (c : Content) (name : String) : Bool :=
  c.tables.any fun t => t.name == name

def tableInfo (c : Content) (name : String) : List (List Value) :=
  match c.table? name with
  | none => []
  | some t => t.columns.map fun col =>
      [.text col.name, .text col.declared, Value.ofBool col.required, .integer (Int64.ofNat col.keyPosition)]

def indexNames (c : Content) : List (List Value) :=
  (c.indexes.map fun i => [Value.text i.name]).mergeSort fun a b =>
    match a, b with
    | [x], [y] => compareValues x y != .gt
    | _, _ => true

/-- A column by the name it was written with; a name in quotes that is none reads as its text. -/
def writtenValue (t : StoredTable) (row : StoredRow) (n : Sql.WrittenName) : Value :=
  match t.spot? n.name with
  | some spot => row.valueOf spot
  | none => .text n.name

def namesInOrder (t : StoredTable) (order : List Sql.WrittenName) (a b : StoredRow) : Bool :=
  match order with
  | [] => true
  | n :: rest =>
    match compareValues (writtenValue t a n) (writtenValue t b n) with
    | .eq => namesInOrder t rest a b
    | .lt => true
    | .gt => false

def project (c : Content) (names : List Sql.WrittenName) (table : String) (order : List Sql.WrittenName) :
    List (List Value) :=
  match c.table? table with
  | none => []
  | some t => (t.rows.mergeSort (namesInOrder t order)).map fun row => names.map (writtenValue t row)

/-- The number that arithmetic takes a text for: the number it begins with. -/
def operandOf (text : List Char) : Value :=
  match readNumeral text with
  | (.wholeInteger, x) =>
    match readInteger text with
    | (.whole, n) => .integer (Int64.ofInt n)
    | _ => .real x
  | (.other, x) =>
    match readInteger text with
    | (.tooLarge, _) => .real x
    | (_, n) => .integer (Int64.ofInt n)
  | (_, x) => .real x

def plusOneNumber : Value → Value
  | .integer n => if n.toInt = 9223372036854775807 then .real (.ofInt (n.toInt + 1)) else .integer (n + 1)
  | .real x => admitted (.real (x.add (.ofInt 1)))
  | v => v

def plusOne : Value → Value
  | .text s => plusOneNumber (operandOf s.toList)
  | .blob b => plusOneNumber (operandOf ((utf8Codes b).map Char.ofNat))
  | v => plusOneNumber v

def asText : Value → Except Utf8Fault Value
  | .blob b => (utf8Text? b).map .text
  | v => .ok (textOf v)

def termValue : Sql.Term → Except Utf8Fault Value
  | .one => .ok (.integer 1)
  | .bound v => .ok (admitted v)
  | .plusOne v => .ok (plusOne (admitted v))
  | .asText v => asText (admitted v)

end RecordMapper.Store
