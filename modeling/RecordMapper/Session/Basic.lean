import RecordMapper.Session.Step
import RecordMapper.Settings

namespace RecordMapper

structure Handle (n : Nat) where
  file : Fin n
  connection : Store.Connection
  nest : Nest
  log : Log

structure Session (n : Nat) where
  files : Vector Store.File n
  handles : Vector (Handle n) n
  forwarded : List Event

inductive Place where
  | apart
  | common
  | nowhere
  deriving DecidableEq, Repr

namespace Place

def ofPath (openable : List String) : Option String → Place
  | none => .apart
  | some path =>
    if path = "" ∨ path = ":memory:" then .apart
    else if path ∈ openable then .common
    else .nowhere

def file {n : Nat} (p : Place) (k : Fin n) : Fin n :=
  match p with
  | .common => ⟨0, Nat.zero_lt_of_lt k.isLt⟩
  | _ => k

end Place

namespace Session

variable {n : Nat}

def handle (s : Session n) (k : Fin n) : Handle n :=
  s.handles.get k

def setHandle (s : Session n) (k : Fin n) (h : Handle n) : Session n :=
  { s with handles := s.handles.set k h k.isLt }

def database (s : Session n) (k : Fin n) : Database :=
  let handle := s.handle k
  ⟨⟨⟨s.files.get handle.file, handle.connection⟩, handle.log⟩, handle.nest⟩

def replace (s : Session n) (k : Fin n) (db : Database) : Session n :=
  let file := (s.handle k).file
  let log := db.engine.log
  let after := s.setHandle k ⟨file, db.engine.store.connection, db.nest, { log with forwarded := [] }⟩
  { after with
    files := s.files.set file db.engine.store.file file.isLt
    forwarded := s.forwarded ++ log.forwarded }

def acting {α : Type} (k : Fin n) (act : Database.Action α) (s : Session n) : Except Failure α × Session n :=
  let (outcome, db) := act.run (s.database k)
  (outcome, s.replace k db)

def drain (s : Session n) : Logged × Session n :=
  (⟨s.handles.toList.flatMap (·.log.kept), s.forwarded⟩,
    { s with handles := s.handles.map (fun h => { h with log := h.log.drain.2 }), forwarded := [] })

def openHandle (settings : Settings) (place : Place) (keeps : Bool) (k : Fin n) : Handle n :=
  let connection := Store.Connection.make k settings.foreignKeys .empty
  let log := if keeps then Log.collecting else Log.forwarding
  let opened := Engine.opened ⟨.empty, connection⟩ log settings.path
  ⟨place.file k, connection, .initial, opened.log⟩

def start (settings : Settings) (openable : List String) (n : Nat) (keeps : Bool) :
    Except Failure (Session n) :=
  match Place.ofPath openable settings.path with
  | .nowhere => .error (.execution "open" (.unplaced (.cannotOpen (settings.path.getD ""))))
  | place =>
    let handles := Vector.ofFn (openHandle settings place keeps)
    .ok ⟨Vector.replicate n .empty, handles.map fun h => { h with log.forwarded := [] },
      handles.toList.flatMap (·.log.forwarded)⟩

end Session

end RecordMapper
