import RecordMapper.Store.Evaluation
import RecordMapper.Store.Fault

namespace RecordMapper.Store

open RecordMapper.Text

def termValueOf (row : StoredRow) : IndexTerm → Value
  | .column i => row.valueAt i
  | .constant text => .text text

def termValues (terms : List IndexTerm) (row : StoredRow) : List Value :=
  terms.map (termValueOf row)

/-- Whether two rows may not stand together; nulls never collide. -/
def collide (terms : List IndexTerm) (a b : StoredRow) : Bool :=
  let key := termValues terms a
  !key.any Value.isNull && sameValues key (termValues terms b)

def termName? (t : StoredTable) : IndexTerm → Option String
  | .column i => some (t.nameAt i)
  | .constant _ => none

/-- An index over columns alone is named by them, any other by its own name. -/
def collision (t : StoredTable) (index : StoredIndex) : FaultCause :=
  match index.terms.mapM (termName? t) with
  | some names => .notUnique t.name names
  | none => .notUniqueIndex index.name

def uniqueIndexes (c : Content) (t : StoredTable) : List StoredIndex :=
  (c.indexesOn t).filter StoredIndex.unique ++
    (if t.uniqueKey.isEmpty then [] else [⟨"", t.name, t.uniqueKey.map .column, true⟩])

def checkUnique (t : StoredTable) (others : List StoredRow) (row : StoredRow) :
    List StoredIndex → Except FaultCause Unit
  | [] => .ok ()
  | index :: rest =>
    if others.any (collide index.terms row) then .error (collision t index)
    else checkUnique t others row rest

def checkRequired (t : StoredTable) (written : Nat → Bool) (row : StoredRow) : Except FaultCause Unit :=
  match (List.range t.columns.length).find? fun i =>
    written i && t.idColumn? != some i && (t.columns[i]?.map StoredColumn.required).getD false &&
      (row.valueAt i).isNull with
  | some i => .error (.nullInRequired t.name (t.nameAt i))
  | none => .ok ()

def checkId (t : StoredTable) (others : List StoredRow) (id : Int) : Except FaultCause Unit :=
  if others.any (·.id == id) then .error (.notUnique t.name [t.rowIdName]) else .ok ()

def idOf (v : Value) : Except FaultCause Int :=
  match Affinity.numeric.stored v with
  | .integer n => .ok n.toInt
  | _ => .error .datatypeMismatch

/-- Brings values to the affinities of the columns; the row id stands in its column. -/
def rowOf (t : StoredTable) (id : Int) (values : List Value) : StoredRow :=
  ⟨id, (values.zip t.columns).mapIdx fun i (v, col) =>
    if t.idColumn? == some i then .integer (Int64.ofInt id) else col.affinity.stored v⟩

def valuesByColumn (t : StoredTable) (columns : Option (List String)) (given : List Value) : List Value :=
  match columns with
  | none => given.map admitted
  | some names => t.columns.map fun col =>
      match names.findIdx? (sameIgnoringCase col.name) with
      | some k => admitted (given[k]?.getD .null)
      | none => .null

def askedId (t : StoredTable) (columns : Option (List String)) (given : List Value) : Value :=
  match columns with
  | none => ((t.idColumn?.bind (given[·]?)).map admitted).getD .null
  | some names => (((names.zip given).reverse.find? fun e => t.isRowId e.1).map fun e => admitted e.2).getD .null

def insertOne (c : Content) (t : StoredTable) (columns : Option (List String)) (given : List Value) :
    Except FaultCause StoredTable := do
  let asked := askedId t columns given
  let id ← if asked.isNull then pure t.nextId else idOf asked
  let row := rowOf t id (valuesByColumn t columns given)
  checkRequired t (fun _ => true) row
  checkId t t.rows id
  checkUnique t t.rows row (uniqueIndexes c t)
  pure { t with rows := StoredTable.insertRow row t.rows }

def insertAll (c : Content) (columns : Option (List String)) (t : StoredTable) :
    List (List Value) → Except FaultCause StoredTable
  | [] => .ok t
  | given :: rest => do
    let after ← insertOne c t columns given
    insertAll c columns after rest

def insert (c : Content) (table : String) (columns : Option (List String)) (rows : List (List Value)) :
    Except FaultCause (Content × Nat) :=
  match c.table? table with
  | none => .error (.noSuchTable table)
  | some t => do
    let after ← insertAll c columns t rows
    pure (c.replace after, rows.length)

def assignedId? (t : StoredTable) (assignments : List (String × Value)) : Option Value :=
  (assignments.reverse.find? fun a => t.isRowId a.1).map fun a => admitted a.2

def assigned? (assignments : List (String × Value)) (column : String) : Option Value :=
  (assignments.reverse.find? fun a => sameIgnoringCase a.1 column).map fun a => admitted a.2

def updateOne (c : Content) (assignments : List (String × Value)) (t : StoredTable) (old : StoredRow) :
    Except FaultCause StoredTable := do
  let given := t.columns.map fun col => assigned? assignments col.name
  let id ← match assignedId? t assignments with
    | some v => idOf v
    | none => pure old.id
  let row := rowOf t id (given.mapIdx fun i v => v.getD (old.valueAt i))
  let others := t.rows.filter (·.id != old.id)
  checkRequired t (fun i => (given[i]?).join.isSome) row
  checkId t others id
  checkUnique t others row (uniqueIndexes c t)
  pure { t with rows := StoredTable.insertRow row others }

def updateAll (c : Content) (assignments : List (String × Value)) (t : StoredTable) :
    List StoredRow → Except FaultCause StoredTable
  | [] => .ok t
  | old :: rest => do
    let after ← updateOne c assignments t old
    updateAll c assignments after rest

def selectedBy (t : StoredTable) (filter : Option Sql.Condition) (row : StoredRow) : Bool :=
  keeps [⟨Sql.rootLabel, t, row⟩] filter

def ownRows (c : Content) (table : String) : List Bindings :=
  match c.table? table with
  | none => []
  | some t => t.rows.map fun row => [⟨Sql.rootLabel, t, row⟩]

/-- Changes the rows that the filter keeps, one after the other in the order of row ids. -/
def update (c : Content) (table : String) (assignments : List (String × Value))
    (filter : Option Sql.Condition) : Except FaultCause (Content × Nat) :=
  match c.table? table with
  | none => .error (.noSuchTable table)
  | some t => do
    let chosen := t.rows.filter (selectedBy t filter)
    let after ← updateAll c assignments t chosen
    pure (c.replace after, chosen.length)

def delete (c : Content) (table : String) (filter : Option Sql.Condition) : Except FaultCause (Content × Nat) :=
  match c.table? table with
  | none => .error (.noSuchTable table)
  | some t =>
    let (gone, left) := t.rows.partition (selectedBy t filter)
    .ok (c.replace { t with rows := left }, gone.length)

end RecordMapper.Store
