import RecordMapper.Database
import RecordMapper.Plan.Write
import RecordMapper.Policy
import RecordMapper.Schema.Difference
import RecordMapper.Schema.Reach

namespace RecordMapper.Database

open RecordMapper.Text

def tableExists (name : String) : Action Bool := do
  let n ← scalar (Sql.Command.tableExists name).statement
  pure (0 < n)

def readLive (name : String) (rows : List (List Value)) : Except Failure (List LiveColumn) :=
  rows.mapM fun row =>
    match LiveColumn.ofRow? row with
    | some l => .ok l
    | none => .error (.decoding (.tableInfo name))

def liveColumns (name : String) : Action (List LiveColumn) := do
  let rows ← query (Sql.Command.tableInfo name).statement
  known (readLive name rows)

def define (c : Sql.Command) : Action Unit := do
  let _ ← execute c.statement

def noteSchema (text : String) : Action Unit :=
  note (.plain .info .ddl text)

def recreate (t : Table) : Action Unit := do
  define (.dropTable t.name)
  define t.create
  noteSchema ("recreated table " ++ t.name)

def createAbsent (t : Table) : Action Unit := do
  define t.create
  noteSchema ("created table " ++ t.name)

/-- Adds what a live table lacks, once it is known that nothing conflicts. -/
def addMissing (t : Table) : Action Unit := do
  let live ← liveColumns t.name
  let missing ← known ((t.missingFrom live).mapError .conflict)
  missing.forM fun c => define (t.addColumn c)
  if !missing.isEmpty then
    noteSchema ("reconciled table " ++ t.name ++ ": added " ++ joined ", " (missing.map Column.name))

def align (policy : Policy) (t : Table) : Action Unit := do
  if policy.contains .drop then recreate t
  else if !(← tableExists t.name) then createAbsent t
  else if policy.contains .reconcile then addMissing t

def alignAll (policy : Policy) (tables : List (Except Failure Table)) : Action Unit :=
  tables.forM fun table => do align policy (← known table)

def reconcileTable (policy : Policy) (t : Table) : Action Unit :=
  atomically (alignAll policy [.ok t])

/-- Brings the table of a descriptor in line as one unit of work, and unless the policy is shallow all
    that its relations lead to. -/
def reconcile (g : ShapeGraph) (policy : Policy) (d : Descriptor g.size) : Action Unit :=
  atomically (alignAll policy (if policy.contains .shallowOnly then [.ok d.table] else g.reach d))

end RecordMapper.Database
