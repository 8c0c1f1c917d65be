import RecordMapper.Store.Content

namespace RecordMapper.Store

open RecordMapper.Text

namespace Content

def isUniqueColumn (c : Content) (t : StoredTable) (i : Nat) : Bool :=
  t.keyPositions == [i] ||
    (c.indexesOn t).any fun index => index.unique && index.terms == [.column i]

def target? (c : Content) (r : Sql.Reference) : Option (StoredTable × Nat) := do
  let parent ← c.table? r.table
  let i ← parent.columnIndex? r.column
  if c.isUniqueColumn parent i then some (parent, i) else none

def isMet (c : Content) (r : Sql.Reference) (v : Value) : Bool :=
  v.isNull ||
    match c.target? r with
    | none => false
    | some (parent, i) =>
      let wanted := (parent.affinityAt i).stored v
      parent.rows.any fun row => sameValue (row.valueAt i) wanted

def tableBreaks (c : Content) (deferred : Bool) (t : StoredTable) : Bool :=
  (List.range t.columns.length).any fun i =>
    match (t.columns[i]?).bind StoredColumn.reference with
    | none => false
    | some r => r.deferred == deferred && t.rows.any fun row => !c.isMet r (row.valueAt i)

def breaks (c : Content) (deferred : Bool) : Bool :=
  c.tables.any (c.tableBreaks deferred)

def referencesTo (c : Content) (table : String) : List (StoredTable × Sql.Reference) :=
  c.tables.flatMap fun t =>
    (t.columns.filterMap StoredColumn.reference).filterMap fun r =>
      if sameIgnoringCase r.table table then some (t, r) else none

end Content

end RecordMapper.Store
