import RecordMapper.Sql.Definition
import RecordMapper.Store.Order

namespace RecordMapper.Store

open RecordMapper.Text

structure StoredColumn where
  name : String
  declared : String
  required : Bool
  keyPosition : Nat
  reference : Option Sql.Reference
  deriving DecidableEq, Repr

def StoredColumn.affinity (c : StoredColumn) : Affinity :=
  .ofDeclared c.declared

inductive Spot where
  | column (position : Nat)
  | rowId
  deriving DecidableEq, Repr

/-- The names that the row id has where no column has them. -/
def rowIdNames : List String := ["rowid", "_rowid_", "oid"]

structure StoredRow where
  id : Int
  values : List Value
  deriving DecidableEq

structure StoredTable where
  name : String
  columns : List StoredColumn
  rows : List StoredRow
  deriving DecidableEq

/-- What an index goes by: a column, or a text for a name that was none. -/
inductive IndexTerm where
  | column (position : Nat)
  | constant (text : String)
  deriving DecidableEq, Repr

structure StoredIndex where
  name : String
  table : String
  terms : List IndexTerm
  unique : Bool
  deriving DecidableEq, Repr

structure Content where
  tables : List StoredTable
  indexes : List StoredIndex
  deriving DecidableEq

namespace StoredTable

def columnIndex? (t : StoredTable) (name : String) : Option Nat :=
  t.columns.findIdx? fun c => sameIgnoringCase c.name name

def column? (t : StoredTable) (name : String) : Option StoredColumn :=
  t.columns.find? fun c => sameIgnoringCase c.name name

def spot? (t : StoredTable) (name : String) : Option Spot :=
  match t.columnIndex? name with
  | some i => some (.column i)
  | none => if rowIdNames.any (sameIgnoringCase name) then some .rowId else none

def keyPositions (t : StoredTable) : List Nat :=
  (List.range t.columns.length).flatMap fun k =>
    (List.range t.columns.length).filter fun i =>
      (t.columns[i]?.map fun c => c.keyPosition == k + 1).getD false

/-- The column that is the row id: a key of its own that is declared an integer. -/
def idColumn? (t : StoredTable) : Option Nat :=
  match t.keyPositions with
  | [i] => if (t.columns[i]?.map fun c => sameIgnoringCase c.declared "INTEGER").getD false then some i else none
  | _ => none

def uniqueKey (t : StoredTable) : List Nat :=
  if t.idColumn?.isSome then [] else t.keyPositions

def affinityAt (t : StoredTable) (i : Nat) : Affinity :=
  (t.columns[i]?.map StoredColumn.affinity).getD .blob

def affinityOf (t : StoredTable) : Spot → Affinity
  | .column i => t.affinityAt i
  | .rowId => .numeric

def nameAt (t : StoredTable) (i : Nat) : String :=
  (t.columns[i]?.map StoredColumn.name).getD ""

def insertRow (row : StoredRow) : List StoredRow → List StoredRow
  | [] => [row]
  | r :: rest => if r.id < row.id then r :: insertRow row rest else row :: r :: rest

def lastId : Int := Int64.maxValue.toInt

def freeId (t : StoredTable) : Int :=
  t.rows.foldl (fun free r => if r.id = free then free + 1 else free) 1

/-- One more than the largest row id, one in an empty table; a free one once the last is taken. -/
def nextId (t : StoredTable) : Int :=
  match t.rows.getLast? with
  | some r => if r.id < lastId then r.id + 1 else t.freeId
  | none => 1

def isRowId (t : StoredTable) (name : String) : Bool :=
  match t.spot? name with
  | some (.column i) => t.idColumn? == some i
  | some .rowId => true
  | none => false

def rowIdName (t : StoredTable) : String :=
  (t.idColumn?.map t.nameAt).getD "rowid"

end StoredTable

def StoredRow.valueAt (r : StoredRow) (i : Nat) : Value :=
  r.values[i]?.getD .null

def StoredRow.valueOf (r : StoredRow) : Spot → Value
  | .column i => r.valueAt i
  | .rowId => .integer (Int64.ofInt r.id)

namespace Content

def empty : Content := ⟨[], []⟩

def table? (c : Content) (name : String) : Option StoredTable :=
  c.tables.find? fun t => sameIgnoringCase t.name name

def index? (c : Content) (name : String) : Option StoredIndex :=
  c.indexes.find? fun i => sameIgnoringCase i.name name

def replace (c : Content) (t : StoredTable) : Content :=
  { c with tables := c.tables.map fun old => if sameIgnoringCase old.name t.name then t else old }

def indexesOn (c : Content) (t : StoredTable) : List StoredIndex :=
  c.indexes.filter fun i => sameIgnoringCase i.table t.name

end Content

end RecordMapper.Store
