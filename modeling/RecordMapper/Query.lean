import RecordMapper.Hydration
import RecordMapper.Index
import RecordMapper.Plan.Select
import RecordMapper.Schema.Reconciliation

namespace RecordMapper

def Shape.relation? {n : Nat} (s : Shape n) (name : String) : Option (Relation n) :=
  (s.fields.filterMap Field.relation?).find? (·.name == name)

structure Query (g : ShapeGraph) (s : Fin g.size) where
  plan : Plan
  loaders : List (Loader g.size)

namespace Query

variable {g : ShapeGraph} {s : Fin g.size}

def ofTable (t : Table) : Query g s :=
  ⟨.ofTable t, []⟩

def filter (q : Query g s) (p : Predicate) : Query g s :=
  { q with plan.filter := some (Predicate.restrict q.plan.filter p) }

def orderTable (q : Query g s) : Table :=
  match q.plan.joins.getLast? with
  | some join => join.child
  | none => q.plan.root

def order (q : Query g s) (column : String) (descending : Bool) : Query g s :=
  { q with plan.order := q.plan.order ++ [⟨⟨some q.orderTable.name, column⟩, descending⟩] }

def limit (q : Query g s) (limit skip : UInt64) : Query g s :=
  { q with plan.paging := some ⟨some limit, skip⟩ }

def skip (q : Query g s) (skip : UInt64) : Query g s :=
  { q with plan.paging := some ⟨q.plan.paging.bind Paging.limit, skip⟩ }

def push (q : Query g s) (join : Join) (loader : Loader g.size) : Except Failure (Query g s) := do
  (join.validate q.plan.root).mapError .malformed
  (join.refuseRepeats q.plan.scope).mapError .malformed
  pure { plan := { q.plan with joins := q.plan.joins ++ [join] }, loaders := q.loaders ++ [loader] }

def join (q : Query g s) (r : Relation g.size) (on equals : String) : Except Failure (Query g s) := do
  let child ← (g.shape r.child).descriptor
  q.push ⟨r.name, child.table, .direct on equals⟩ ⟨r.name, r.child, child.table, 0⟩

/-- Loads a relation through a pivot with a row for each pair: `equals` of the pivot is `on` of the
    root, and `is` of the pivot is `and` of the child. -/
def joinPivot (q : Query g s) (pivot : Fin g.size) (r : Relation g.size) (on equals and is : String) :
    Except Failure (Query g s) := do
  let between ← (g.shape pivot).descriptor
  let child ← (g.shape r.child).descriptor
  q.push ⟨r.name, child.table, .pivot between.table on equals and is⟩
    ⟨r.name, r.child, child.table, between.table.width⟩

def first (q : Query g s) : Query g s :=
  { q with plan.paging := some (Paging.first q.plan.paging) }

def requireUnjoined (q : Query g s) (operation : String) : Except Failure Unit :=
  if q.plan.joins.isEmpty then .ok () else .error (.malformed (.joinedWrite operation))

def selectStatement (q : Query g s) : Except Failure Sql.Statement :=
  (q.plan.select.map Sql.Command.statement).mapError .malformed

def countStatement (q : Query g s) : Except Failure Sql.Statement :=
  (q.plan.count.map Sql.Command.statement).mapError .malformed

def insertStatement (q : Query g s) (positions : q.plan.root.Positions) (r : (g.shape s).Record) :
    Except Failure Sql.Statement :=
  (q.plan.root.insert positions ((g.shape s).write r)).map Sql.Command.statement

def updateStatement (q : Query g s) (r : (g.shape s).Record) (selection : Selection) :
    Except Failure Sql.Statement := do
  q.requireUnjoined "update"
  let positions ← (selection.positions q.plan.root).mapError .malformed
  let command ← q.plan.root.update positions ((g.shape s).write r) q.plan.filter
  pure command.statement

def deleteStatement (q : Query g s) : Except Failure Sql.Statement := do
  q.requireUnjoined "delete"
  let command ← q.plan.root.delete q.plan.filter
  pure command.statement

end Query

namespace Database

variable {g : ShapeGraph} {s : Fin g.size}

def table (g : ShapeGraph) (s : Fin g.size) : Action (Query g s) := do
  let d ← known (g.shape s).descriptor
  pure (.ofTable d.table)

def create (g : ShapeGraph) (s : Fin g.size) (policy : Policy) : Action (Query g s) := do
  let d ← known (g.shape s).descriptor
  reconcile g policy d
  pure (.ofTable d.table)

/-- The same with another key, which holds for this query alone. -/
def createKeyedBy (g : ShapeGraph) (s : Fin g.size) (key : List String) (policy : Policy) :
    Action (Query g s) := do
  let d ← known ((g.shape s).descriptorKeyedBy key)
  reconcile g policy d
  pure (.ofTable d.table)

def selectPlain (q : Query g s) (statement : Sql.Statement) : Action (List (Loaded g s)) :=
  onEngine (Engine.fold statement (fun records row => do
    let record ← (Loaded.readOne g s q.plan.root row).mapError .decoding
    pure (records ++ [record])) [])

def selectJoined (q : Query g s) (statement : Sql.Statement) : Action (List (Loaded g s)) := do
  let hydration ← onEngine (Engine.fold statement (fun hydration row =>
    match hydration.push row with
    | (.ok _, after) => .ok after
    | (.error misfit, _) => .error (.decoding misfit)) (Hydration.empty q.plan.root q.loaders))
  let records ← known ((hydration.finish).mapError .decoding)
  pure (match q.plan.heldPaging? with
    | some paging => paging.apply records
    | none => records)

def select (q : Query g s) : Action (List (Loaded g s)) := do
  let statement ← known q.selectStatement
  if q.loaders.isEmpty then selectPlain q statement else selectJoined q statement

def selectFirst (q : Query g s) : Action (Option (Loaded g s)) := do
  let records ← select q.first
  pure records.head?

def countOf (n : Int64) : Except Failure Nat :=
  if n.toInt < 0 then .error (.decoding (.negativeCount n)) else .ok n.toInt.toNat

def count (q : Query g s) : Action Nat := do
  let statement ← known q.countStatement
  let n ← scalar statement
  known (countOf n)

def insertEach (q : Query g s) (positions : q.plan.root.Positions) : List (g.shape s).Record → Action Nat
  | [] => pure 0
  | r :: rest => do
    let statement ← known (q.insertStatement positions r)
    let changed ← execute statement
    let others ← insertEach q positions rest
    pure (changed + others)

/-- Inserts all of the records or none. -/
def insert (q : Query g s) (records : List (g.shape s).Record) (selection : Selection) : Action Nat := do
  let positions ← known ((selection.positions q.plan.root).mapError .malformed)
  atomically (insertEach q positions records)

def update (q : Query g s) (r : (g.shape s).Record) (selection : Selection) : Action Nat := do
  let statement ← known (q.updateStatement r selection)
  execute statement

def delete (q : Query g s) : Action Nat := do
  let statement ← known q.deleteStatement
  execute statement

def index (q : Query g s) (columns : List String) (unique : Bool) : Action Index := do
  let made ← known ((Index.make q.plan.root columns unique).mapError .malformed)
  let _ ← execute (Sql.Command.createIndex made.definition).statement
  note (.plain .info .ddl ("created index " ++ made.name))
  pure made

end Database

end RecordMapper
