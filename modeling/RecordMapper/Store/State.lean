import RecordMapper.Store.Effect
import RecordMapper.Store.Prepared

namespace RecordMapper.Store

/-- A database that connections share; `writer` is the connection that holds the lock. -/
structure File where
  content : Content
  version : Nat
  writer : Option Nat

def File.empty : File := ⟨.empty, 0, none⟩

/-- What a connection sees inside a transaction, and the version that it started from. -/
structure View where
  content : Content
  version : Nat
  holdsLock : Bool
  changed : Bool
  redefined : Bool

/-- A statement that is kept ready; one that has expired is made ready again before it runs. -/
structure Kept where
  sql : String
  expired : Bool
  deriving DecidableEq, Repr

structure Connection where
  id : Nat
  enforces : Bool
  explicit : Bool
  view : Option View
  changes : Nat
  cached : List Kept
  loaded : Option Content

structure State where
  file : File
  connection : Connection

def cacheCapacity : Nat := 16

namespace Connection

def make (id : Nat) (enforces : Bool) (loaded : Content) : Connection :=
  ⟨id, enforces, false, none, 0, [], some loaded⟩

def kept? (c : Connection) (sql : String) : Option Kept :=
  c.cached.find? (·.sql == sql)

def keep (c : Connection) (sql : String) : Connection :=
  let kept := (c.kept? sql).getD ⟨sql, false⟩
  { c with cached := (kept :: c.cached.filter (·.sql != sql)).take cacheCapacity }

def expireAll (c : Connection) : Connection :=
  { c with cached := c.cached.map fun k => { k with expired := true } }

def setExpired (c : Connection) (sql : String) (expired : Bool) : Connection :=
  { c with cached := c.cached.map fun k => if k.sql == sql then { k with expired } else k }

def isExpired (c : Connection) (sql : String) : Bool :=
  ((c.kept? sql).map Kept.expired).getD false

end Connection

def looks : Sql.Command → Bool
  | .begin | .commit | .rollback | .terms .. => false
  | _ => true

def redefines : Sql.Command → Bool
  | .createTable .. | .dropTable _ | .addColumn .. | .createIndex _ => true
  | _ => false

namespace State

def content (s : State) : Content :=
  match s.connection.view with
  | some view => view.content
  | none => s.file.content

def isAutocommit (s : State) : Bool :=
  !s.connection.explicit

def loadSchema (s : State) : State :=
  { s with connection.loaded := some s.content }

def raisesDoubt : FaultCause → Bool
  | .referenceMismatch .. | .duplicateColumn _ | .valueCount .. | .tableHasName _ => false
  | _ => true

def checkAnew (s : State) (command : Sql.Command) : Except Fault Unit × State :=
  (checkCommand s.content s.connection.enforces command, if looks command then s.loadSchema else s)

/-- Checks a command against the schema that the connection has loaded, and again if a fault makes it
    doubt that. -/
def check (s : State) (command : Sql.Command) : Except Fault Unit × State :=
  match s.connection.loaded with
  | none => s.checkAnew command
  | some loaded =>
    match checkCommand loaded s.connection.enforces command with
    | .ok _ => (.ok (), s)
    | .error fault => if raisesDoubt fault.cause then s.checkAnew command else (.error fault, s)

def keep (s : State) (sql : String) : State :=
  { s with connection := s.connection.keep sql }

/-- Makes a statement ready. One that is kept ready is not checked again before it runs. -/
def prepare (s : State) (sql : String) (command : Sql.Command) : Except Fault Unit × State :=
  if (s.connection.kept? sql).isSome then (.ok (), s.keep sql)
  else
    match s.check command with
    | (.error fault, s) => (.error fault, s)
    | (.ok _, s) => (.ok (), s.keep sql)

def fixView (s : State) : State :=
  if s.connection.explicit && s.connection.view.isNone then
    { s with connection.view := some ⟨s.file.content, s.file.version, false, false, false⟩ }
  else s

def lockedByOther (s : State) : Bool :=
  match s.file.writer with
  | some id => id != s.connection.id
  | none => false

def isOutdated (s : State) : Bool :=
  match s.connection.view with
  | some view => !view.holdsLock && view.version != s.file.version
  | none => false

def takeLock (s : State) : State :=
  match s.connection.view with
  | some view =>
    { file := { s.file with writer := some s.connection.id }
      connection := { s.connection with view := some { view with holdsLock := true } } }
  | none => s

def withChanges (s : State) (n : Nat) : State :=
  { s with connection.changes := n }

def isChange (effect : Effect) : Bool :=
  effect.counted != some 0

/-- Takes an effect over: into the view inside a transaction, else into the file. -/
def accept (s : State) (command : Sql.Command) (effect : Effect) : State :=
  match s.connection.view with
  | some view =>
    { s with connection.view := some { view with
        content := effect.content
        changed := view.changed || isChange effect || redefines command
        redefined := view.redefined || redefines command } }
  | none =>
    { s with file := { s.file with
        content := effect.content
        version := if isChange effect || redefines command then s.file.version + 1 else s.file.version } }

def breaksLate (s : State) (c : Content) : Bool :=
  s.connection.enforces && c.breaks true

def write (s : State) (command : Sql.Command) : Except FaultCause Rows × State :=
  let counted := counts s.content s.connection.enforces command
  if s.lockedByOther || s.isOutdated then
    (.error .locked, if counted then s.withChanges 0 else s)
  else
    let s := s.fixView.takeLock
    match (examine s.content command).bind fun _ => effectOf s.content s.connection.enforces command with
    | .error cause => (.error cause, if counted then s.withChanges 0 else s)
    | .ok effect =>
      if s.isAutocommit && s.breaksLate effect.content then
        (.error .brokenReference, if counted then s.withChanges 0 else s)
      else
        let s := s.accept command effect
        let s := match effect.counted with
          | some n => s.withChanges n
          | none => s
        (.ok [], s.loadSchema)

def begin (s : State) : Except FaultCause Rows × State :=
  if s.connection.explicit then (.error .alreadyOpen, s)
  else (.ok [], { s with connection.explicit := true })

def leave (s : State) : State :=
  { s with connection := { s.connection with explicit := false, view := none } }

def release (s : State) : State :=
  if s.file.writer == some s.connection.id then { s with file.writer := none } else s

def publish (s : State) : State :=
  match s.connection.view with
  | some view =>
    if view.changed then
      { s with file := { s.file with content := view.content, version := s.file.version + 1 } }
    else s
  | none => s

def commit (s : State) : Except FaultCause Rows × State :=
  if s.isAutocommit then (.error .nothingToCommit, s)
  else if s.breaksLate s.content then (.error .brokenReference, s)
  else (.ok [], s.publish.release.leave)

def rollback (s : State) : Except FaultCause Rows × State :=
  if s.isAutocommit then (.error .nothingToRollBack, s)
  else
    let redefined := (s.connection.view.map View.redefined).getD false
    let s := s.release.leave
    (.ok [], if redefined then { s with connection := { s.connection.expireAll with loaded := none } } else s)

def locksFirst : Sql.Command → Bool
  | .insert .. | .insertOrRollback .. | .update .. | .delete .. | .createTable .. | .addColumn .. => true
  | _ => false

/-- Refuses a statement that was made ready for a schema that is gone. It takes the lock first unless
    it has expired, and has expired from then on. -/
def refuseStale (s : State) (sql : String) (command : Sql.Command) (cause : FaultCause) :
    Except FaultCause Rows × State :=
  let locks := locksFirst command && !s.connection.isExpired sql
  if locks && (s.lockedByOther || s.isOutdated) then (.error .locked, s)
  else
    let s := (if locks then s.fixView.takeLock else s).loadSchema
    (.error cause, { s with connection := s.connection.setExpired sql true })

def expires : Sql.Command → Bool
  | .createIndex _ => true
  | _ => false

def settle (s : State) (sql : String) (command : Sql.Command) : State :=
  let connection := if expires command then s.connection.expireAll else s.connection.setExpired sql false
  { s with connection }

def runPlain (s : State) (sql : String) (command : Sql.Command) : Except FaultCause Rows × State :=
  if !looks command then (.ok (rowsOf s.content command), s)
  else
    match checkCommand s.content s.connection.enforces command with
    | .error fault => s.refuseStale sql command fault.cause
    | .ok _ =>
      if writes s.content command then
        match s.write command with
        | (.error cause, s) => (.error cause, s)
        | (.ok rows, s) => (.ok rows, s.settle sql command)
      else
        let s := s.fixView.loadSchema
        ((examine s.content command).map fun _ => rowsOf s.content command, { s with connection := s.connection.setExpired sql false })

def isConflict : FaultCause → Bool
  | .notUnique .. | .notUniqueIndex _ | .nullInRequired .. => true
  | _ => false

/-- Rolls back after a conflict; outside a transaction the failed statement was all there was. -/
def undoConflict : Except FaultCause Rows × State → Except FaultCause Rows × State
  | (.error cause, s) => (.error cause, if isConflict cause then s.rollback.2 else s)
  | (.ok rows, s) => (.ok rows, s)

/-- Runs a command that has been made ready. What is found wrong with it only now has no place. -/
def run (s : State) (sql : String) (command : Sql.Command) : Except FaultCause Rows × State :=
  match command with
  | .begin => s.begin
  | .commit => s.commit
  | .rollback => s.rollback
  | .insertOrRollback table columns rows =>
    undoConflict (s.runPlain sql (.insertOrRollback table columns rows))
  | command => s.runPlain sql command

end State

end RecordMapper.Store
