import RecordMapper.UnitOfWork

namespace RecordMapper

structure Database where
  engine : Engine
  nest : Nest

namespace Database

abbrev Action (α : Type) := ExceptT Failure (StateM Database) α

def opened (engine : Engine) : Database :=
  ⟨engine, .initial⟩

def onEngine {α : Type} (act : Engine.Action α) : Action α :=
  ExceptT.mk fun db =>
    let (outcome, engine) := act.run db.engine
    (outcome, { db with engine })

def known {α : Type} (outcome : Except Failure α) : Action α :=
  ExceptT.mk fun db => (outcome, db)

def recordEvent (e : Event) (db : Database) : Database :=
  { db with engine.log := db.engine.log.record e }

/-- Units of work on a handle by itself, where nothing unwinds. -/
def host : UnitHost Database Failure where
  nest := Database.nest
  setNest n db := { db with nest := n }
  control c db := (onEngine (Engine.control c)).run db
  isAutocommit db := db.engine.isAutocommit
  record := recordEvent
  ofFailure := id
  unwinds _ := false

def atomically {α : Type} (act : Action α) : Action α :=
  ExceptT.mk fun db => host.run act.run db

def query (s : Sql.Statement) : Action (List (List Value)) :=
  onEngine (Engine.query s)

def scalar (s : Sql.Statement) : Action Int64 :=
  onEngine (Engine.scalar s)

def execute (s : Sql.Statement) : Action Nat :=
  onEngine (Engine.execute s)

def note (e : Event) : Action Unit :=
  onEngine (Engine.record e)

def inTransaction (db : Database) : Bool :=
  db.nest.isOpen

def flushLog (db : Database) : Database :=
  { db with engine.log := db.engine.log.flush }

end Database

end RecordMapper
