import RecordMapper.Text.Ascii

namespace RecordMapper

open RecordMapper.Text

inductive FaultCode where
  | constraintViolation
  | databaseBusy
  | cannotOpen
  | typeMismatch
  | unknown
  deriving DecidableEq, Repr

inductive FaultCause where
  | noSuchTable (name : String)
  | noSuchColumn (shown : String)
  | noColumnNamed (table column : String)
  | valueCount (table : String) (columns values : Nat)
  | tableExists (shown : String)
  | duplicateColumn (name : String)
  | reservedName (name : String)
  | indexHasName (name : String)
  | tableHasName (name : String)
  | syntaxError (token : String)
  | unrecognizedToken (token : String)
  | incompleteInput
  | nestedTooDeep
  | alreadyOpen
  | nothingToCommit
  | nothingToRollBack
  | notUnique (table : String) (columns : List String)
  | notUniqueIndex (name : String)
  | nullInRequired (table column : String)
  | brokenReference
  | referenceMismatch (child parent : String)
  | datatypeMismatch
  | locked
  | cannotOpen (path : String)
  | patternTooComplex
  | returnedRows
  deriving DecidableEq, Repr

namespace FaultCause

def text : FaultCause → String
  | .noSuchTable name => "no such table: " ++ name
  | .noSuchColumn shown => "no such column: " ++ shown
  | .noColumnNamed table column => "table " ++ table ++ " has no column named " ++ column
  | .valueCount table columns values =>
    "table " ++ table ++ " has " ++ toString columns ++ " columns but " ++ toString values ++
      " values were supplied"
  | .tableExists shown => "table " ++ shown ++ " already exists"
  | .duplicateColumn name => "duplicate column name: " ++ name
  | .reservedName name => "object name reserved for internal use: " ++ name
  | .indexHasName name => "there is already an index named " ++ name
  | .tableHasName name => "there is already a table named " ++ name
  | .syntaxError token => "near \"" ++ token ++ "\": syntax error"
  | .unrecognizedToken token => "unrecognized token: \"" ++ token ++ "\""
  | .incompleteInput => "incomplete input"
  | .nestedTooDeep => "parser stack overflow"
  | .alreadyOpen => "cannot start a transaction within a transaction"
  | .nothingToCommit => "cannot commit - no transaction is active"
  | .nothingToRollBack => "cannot rollback - no transaction is active"
  | .notUnique table columns =>
    "UNIQUE constraint failed: " ++ joined ", " (columns.map fun c => table ++ "." ++ c)
  | .notUniqueIndex name => "UNIQUE constraint failed: index '" ++ name ++ "'"
  | .nullInRequired table column => "NOT NULL constraint failed: " ++ table ++ "." ++ column
  | .brokenReference => "FOREIGN KEY constraint failed"
  | .referenceMismatch child parent =>
    "foreign key mismatch - \"" ++ child ++ "\" referencing \"" ++ parent ++ "\""
  | .datatypeMismatch => "datatype mismatch"
  | .locked => "database is locked"
  | .cannotOpen path => "unable to open database file: " ++ path
  | .patternTooComplex => "LIKE or GLOB pattern too complex"
  | .returnedRows => "Execute returned results - did you mean to call query?"

def code : FaultCause → Option FaultCode
  | .notUnique .. | .notUniqueIndex _ | .nullInRequired .. | .brokenReference => some .constraintViolation
  | .datatypeMismatch => some .typeMismatch
  | .locked => some .databaseBusy
  | .cannotOpen _ => some .cannotOpen
  | .returnedRows => none
  | _ => some .unknown

end FaultCause

structure Fault where
  cause : FaultCause
  offset : Option Nat
  deriving DecidableEq, Repr

namespace Fault

def unplaced (cause : FaultCause) : Fault :=
  ⟨cause, none⟩

def text (fault : Fault) (sql : String) : String :=
  match fault.offset with
  | none => fault.cause.text
  | some offset => fault.cause.text ++ " in " ++ sql ++ " at offset " ++ toString offset

def code (fault : Fault) : Option FaultCode :=
  match fault.offset with
  | none => fault.cause.code
  | some _ => none

end Fault

end RecordMapper
