import RecordMapper.Store.References
import RecordMapper.Store.Writing

namespace RecordMapper.Store

open RecordMapper.Text

def standardTypes : List String := ["ANY", "BLOB", "INT", "INTEGER", "REAL", "TEXT"]

def keptType (declared : String) : String :=
  (standardTypes.find? (sameIgnoringCase declared)).getD declared

def keyPlace (t : Sql.TableDefinition) (c : Sql.ColumnDefinition) : Nat :=
  if c.key then 1
  else
    match t.key.findIdx? (sameIgnoringCase c.name) with
    | some i => i + 1
    | none => 0

def newTable (t : Sql.TableDefinition) : StoredTable :=
  ⟨t.name, t.columns.map fun c => ⟨c.name, keptType c.declared, c.required, keyPlace t c, c.reference⟩, []⟩

def createTable (c : Content) (t : Sql.TableDefinition) : Content :=
  { c with tables := c.tables ++ [newTable t] }

def dropTable (c : Content) (name : String) : Content :=
  ⟨c.tables.filter fun t => !sameIgnoringCase t.name name,
    c.indexes.filter fun i => !sameIgnoringCase i.table name⟩

def addColumn (c : Content) (table : String) (column : Sql.ColumnDefinition) : Content :=
  match c.table? table with
  | none => c
  | some t => c.replace { t with
      columns := t.columns ++ [⟨column.name, keptType column.declared, column.required, 0, column.reference⟩]
      rows := t.rows.map fun row => { row with values := row.values ++ [.null] } }

def indexTerm (t : StoredTable) (name : String) : IndexTerm :=
  match t.columnIndex? name with
  | some i => .column i
  | none => .constant name

def anyCollide (terms : List IndexTerm) : List StoredRow → Bool
  | [] => false
  | row :: rest => rest.any (collide terms row) || anyCollide terms rest

def createIndex (c : Content) (i : Sql.IndexDefinition) : Except FaultCause Content :=
  match c.table? i.table with
  | none => .error (.noSuchTable ("main." ++ i.table))
  | some t =>
    let index : StoredIndex := ⟨i.name, t.name, i.columns.map (indexTerm t), i.unique⟩
    if i.unique && anyCollide index.terms t.rows then .error (collision t index)
    else .ok { c with indexes := index :: c.indexes }

def hasDeferred (t : StoredTable) : Bool :=
  (t.columns.filterMap StoredColumn.reference).any Sql.Reference.deferred

/-- Whether dropping a table is ready to take its rows out one by one first: while there are references
    to it, or references of its own that are checked late. -/
def mayEmpty (c : Content) (t : StoredTable) : Bool :=
  !(c.referencesTo t.name).isEmpty || hasDeferred t

/-- Whether dropping a table does take its rows out first, as its own references ask for only while
    some wait to be met. -/
def emptiesFirst (c : Content) (t : StoredTable) : Bool :=
  !(c.referencesTo t.name).isEmpty || (hasDeferred t && c.breaks true)

def emptied (c : Content) (t : StoredTable) : Content :=
  c.replace { t with rows := [] }

end RecordMapper.Store
