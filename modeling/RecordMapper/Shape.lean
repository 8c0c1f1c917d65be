import RecordMapper.Record

namespace RecordMapper

inductive FieldKind (n : Nat) where
  | column (type : FieldType)
  | toMany (child : Fin n)
  | embedded (typeName : String)

structure Field (n : Nat) where
  name : String
  kind : FieldKind n

structure Relation (n : Nat) where
  name : String
  child : Fin n
  deriving DecidableEq

structure Descriptor (n : Nat) where
  table : Table
  relations : List (Relation n)

namespace Field

variable {n : Nat}

def column? (f : Field n) : Option (String × FieldType) :=
  match f.kind with
  | .column type => some (f.name, type)
  | _ => none

def relation? (f : Field n) : Option (Relation n) :=
  match f.kind with
  | .toMany child => some ⟨f.name, child⟩
  | _ => none

def firstRefused? (seen : List String) : List (Field n) → Option (String × FieldRefusal)
  | [] => none
  | f :: rest =>
    if f.name ∈ seen then
      some (f.name, .duplicateField)
    else
      match f.kind with
      | .embedded typeName => some (f.name, .embedded typeName)
      | _ => firstRefused? (f.name :: seen) rest

end Field

namespace Descriptor

variable {n : Nat}

/-- The names asked for, or else `id` if there is such a column. -/
def keyNames (columns : List (String × FieldType)) (key : List String) : List String :=
  if key.isEmpty then (columns.map Prod.fst).filter (· == "id") else key

def column (keys : List String) (c : String × FieldType) : Column :=
  ⟨c.1, c.2.codec.dataType, c.2.codec.nullable, keys.contains c.1⟩

def resolve (table : String) (fields : List (Field n)) (key : List String) :
    Except Failure (Descriptor n) :=
  match Field.firstRefused? [] fields with
  | some (field, refusal) => .error (.unsupportedField table field refusal)
  | none =>
    let columns := fields.filterMap Field.column?
    let keys := keyNames columns key
    match keys.find? fun k => !(columns.map Prod.fst).contains k with
    | some k => .error (.unsupportedField table k .keyIsNoColumn)
    | none => do
      let made ← Table.make table (columns.map (column keys))
      pure ⟨made, fields.filterMap Field.relation?⟩

end Descriptor

/-- A type of records and how they are kept. `members` are the fields of a record; `write` gives one
    value for each column, in order, and `read` takes them back. -/
structure Shape (n : Nat) where
  name : String
  table : String
  key : List String
  fields : List (Field n)
  members : List (String × FieldType)
  write : Record (members.map Prod.snd) → List Value
  read : Reader (Record (members.map Prod.snd))

namespace Shape

variable {n : Nat}

def Record (s : Shape n) : Type :=
  RecordMapper.Record (s.members.map Prod.snd)

def ofFields (name table : String) (key : List String) (fields : List (Field n)) : Shape n :=
  let members := fields.filterMap Field.column?
  ⟨name, table, key, fields, members, RecordMapper.Record.values _, Reader.record _⟩

def descriptor (s : Shape n) : Except Failure (Descriptor n) :=
  Descriptor.resolve s.table s.fields s.key

def descriptorKeyedBy (s : Shape n) (key : List String) : Except Failure (Descriptor n) :=
  Descriptor.resolve s.table s.fields key

end Shape

structure ShapeGraph where
  size : Nat
  shape : Fin size → Shape size

end RecordMapper
