import RecordMapper.Sql.Command

namespace RecordMapper

open RecordMapper.Text

inductive Level where
  | error
  | warn
  | info
  | debug
  | trace
  deriving DecidableEq, Repr

def Level.name : Level → String
  | .error => "ERROR"
  | .warn => "WARN"
  | .info => "INFO"
  | .debug => "DEBUG"
  | .trace => "TRACE"

inductive Category where
  | query
  | command
  | ddl
  | transaction
  deriving DecidableEq, Repr

def Category.name : Category → String
  | .query => "query"
  | .command => "command"
  | .ddl => "ddl"
  | .transaction => "transaction"

def Category.ofKind : Sql.StatementKind → Category
  | .query => .query
  | .command => .command
  | .ddl => .ddl

inductive Note where
  | rows (count : Nat)
  | affected (count : Nat)
  | text (text : String)
  deriving DecidableEq, Repr

def Note.message : Note → String
  | .rows count => toString count ++ " rows"
  | .affected count => toString count ++ " rows affected"
  | .text s => s

/-- An event; `sql` is there if it concerns a statement, and `params` are its parameters as literals. -/
structure Event where
  level : Level
  category : Category
  note : Note
  sql : Option String
  params : List String
  deriving DecidableEq, Repr

namespace Event

def plain (level : Level) (category : Category) (text : String) : Event :=
  ⟨level, category, .text text, none, []⟩

def ofStatement (level : Level) (category : Category) (note : Note) (sql : String) (params : List Value) :
    Event :=
  ⟨level, category, note, some sql, params.map Value.shown⟩

def lineSaying (message : String) (e : Event) : String :=
  "[" ++ e.category.name ++ "] " ++ message ++
    match e.sql with
    | none => ""
    | some sql => ": " ++ sql ++ (if e.params.isEmpty then "" else " [" ++ joined ", " e.params ++ "]")

def line (e : Event) : String :=
  e.lineSaying e.note.message

end Event

structure Log where
  keeps : Bool
  kept : List Event
  forwarded : List Event
  deriving DecidableEq, Repr

namespace Log

def collecting : Log := ⟨true, [], []⟩

def forwarding : Log := ⟨false, [], []⟩

def record (log : Log) (e : Event) : Log :=
  if log.keeps then { log with kept := log.kept ++ [e] } else { log with forwarded := log.forwarded ++ [e] }

def drain (log : Log) : List Event × Log :=
  (log.kept, { log with kept := [] })

def flush (log : Log) : Log :=
  { log with kept := [], forwarded := log.forwarded ++ log.kept }

def count (log : Log) (category : Category) : Nat :=
  (log.kept.filter (·.category == category)).length

end Log

end RecordMapper
