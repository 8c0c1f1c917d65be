import RecordMapper.Plan.Filter
import RecordMapper.Plan.Join
import RecordMapper.Plan.Paging

namespace RecordMapper

structure OrderTerm where
  column : ColumnRef
  descending : Bool
  deriving DecidableEq, Repr

structure Plan where
  root : Table
  joins : List Join
  filter : Option Predicate
  order : List OrderTerm
  paging : Option Paging

namespace Plan

def ofTable (root : Table) : Plan :=
  ⟨root, [], none, [], none⟩

def scope (p : Plan) : Scope :=
  scopeOf p.root p.joins

def heldPaging? (p : Plan) : Option Paging :=
  if p.joins.isEmpty then none else p.paging

def rows (p : Plan) : Except Malformation Sql.Rows := do
  let filter ← Predicate.conditionOf p.scope p.filter
  pure ⟨rootSource p.root, linksOf p.joins, filter⟩

def orderTerms (p : Plan) : Except Malformation (List Sql.OrderTerm) :=
  p.order.mapM fun term => do
    let column ← p.scope.resolve term.column
    pure ⟨column, term.descending⟩

def select (p : Plan) : Except Malformation Sql.Command := do
  let rows ← p.rows
  let order ← p.orderTerms
  let window := if p.joins.isEmpty then p.paging.map Paging.window else none
  pure (.select p.scope.columns rows order window)

/-- The columns that tell root records apart: the key, or all of them without one. -/
def identityColumns (p : Plan) : List Sql.ColumnName :=
  let names := if p.root.keyColumns.isEmpty then p.root.columnNames else p.root.keyNames
  names.map fun name => ⟨Sql.rootLabel, name⟩

def count (p : Plan) : Except Malformation Sql.Command := do
  let rows ← p.rows
  if p.joins.isEmpty then
    match p.paging with
    | none => pure (.count rows)
    | some paging => pure (.countWindow rows paging.window)
  else
    pure (.countDistinct p.identityColumns rows (p.paging.map Paging.window))

end Plan

end RecordMapper
