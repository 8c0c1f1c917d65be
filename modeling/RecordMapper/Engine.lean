import RecordMapper.Failure
import RecordMapper.Log
import RecordMapper.Sql.Statement
import RecordMapper.Store.State

namespace RecordMapper

open RecordMapper.Sql

structure Engine where
  store : Store.State
  log : Log

def Sql.TextFault.fault : TextFault → Fault
  | .near mark => ⟨.syntaxError mark.text, some mark.offset⟩
  | .unrecognized mark => ⟨.unrecognizedToken mark.text, some mark.offset⟩
  | .incomplete => .unplaced .incompleteInput

inductive Control where
  | begin
  | commit
  | rollback
  deriving DecidableEq, Repr

def Control.command : Control → Command
  | .begin => .begin
  | .commit => .commit
  | .rollback => .rollback

namespace Engine

abbrev Action (α : Type) := ExceptT Failure (StateM Engine) α

def record (e : Event) : Action Unit :=
  modify fun engine => { engine with log := engine.log.record e }

def acting {ε α : Type} (sql : String) (toFault : ε → Fault)
    (act : Store.State → Except ε α × Store.State) : Action α :=
  ExceptT.mk fun engine =>
    let (outcome, store) := act engine.store
    (outcome.mapError fun e => .execution sql (toFault e), { engine with store })

def categoryOf (s : Statement) : Category :=
  .ofKind s.kind

def checkParams (s : Statement) : Action Unit :=
  if s.placeholders = s.params.length then pure ()
  else do
    record (.ofStatement .error (categoryOf s) (.text "parameter count mismatch") s.sql s.params)
    throw (.binding s.placeholders s.params.length)

/-- Makes a statement ready. What the engine finds wrong with it comes before the parameters. -/
def prepare (s : Statement) : Action Command := do
  let command ← acting s.sql TextFault.fault fun store => (s.asked, store)
  acting s.sql id (·.prepare s.sql command)
  checkParams s
  pure command

def run (sql : String) (command : Command) : Action Store.Rows :=
  acting sql .unplaced (·.run sql command)

def trace (s : Statement) (note : Note) : Action Unit :=
  record (.ofStatement (if s.kind = .ddl then .info else .debug) (categoryOf s) note s.sql s.params)

def takeRow {β : Type} (take : β → List Value → Except Failure β) (b : β)
    (row : Except Text.Utf8Fault (List Value)) : Except Failure β :=
  match row with
  | .error fault => .error (.decoding (.notUtf8 fault))
  | .ok values => take b values

/-- Runs a statement and takes its rows as they arrive, up to the first that is refused. -/
def fold {β : Type} (s : Statement) (take : β → List Value → Except Failure β) (start : β) : Action β := do
  let command ← prepare s
  let rows ← run s.sql command
  let last ← liftExcept (rows.foldlM (takeRow take) start)
  trace s (.rows rows.length)
  pure last
where
  liftExcept (outcome : Except Failure β) : Action β := ExceptT.mk fun engine => (outcome, engine)

def query (s : Statement) : Action (List (List Value)) :=
  fold s (fun rows row => .ok (rows ++ [row])) []

def scalar (s : Statement) : Action Int64 := do
  match ← query s with
  | (.integer n :: _) :: _ => pure n
  | (v :: _) :: _ => throw (.decoding (.scalarClass v.storageClass))
  | _ => throw (.decoding .scalarMissing)

def execute (s : Statement) : Action Nat := do
  let command ← prepare s
  let rows ← run s.sql command
  if !rows.isEmpty then
    throw (.execution s.sql (.unplaced .returnedRows))
  let changed := (← get).store.connection.changes
  trace s (.affected changed)
  pure changed

def control (c : Control) : Action Unit := do
  let _ ← run c.command.text c.command
  record (.plain .debug .transaction c.command.text)

def isAutocommit (engine : Engine) : Bool :=
  engine.store.isAutocommit

def opened (store : Store.State) (log : Log) (path : Option String) : Engine :=
  ⟨store, log.record (.plain .info .transaction ("opened " ++ path.getD "in-memory database"))⟩

end Engine

end RecordMapper
