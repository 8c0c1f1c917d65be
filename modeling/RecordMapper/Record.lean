import RecordMapper.FieldType
import RecordMapper.Table

namespace RecordMapper

def Record : List FieldType → Type
  | [] => Unit
  | t :: types => t.Carrier × Record types

/-- A row being read: the columns and values that are left, and the number of those already read. -/
structure Cursor where
  table : String
  columns : List String
  values : List Value
  position : Nat

abbrev Reader (α : Type) := StateT Cursor (Except Misfit) α

namespace Reader

def next {α : Type} (codec : Codec α) : Reader α := fun cursor =>
  match cursor.values with
  | [] => .error (.rowEnded cursor.table cursor.position cursor.columns.head?)
  | value :: values =>
    match codec.decode value with
    | .error fault => .error (.field cursor.table cursor.columns.head? fault)
    | .ok a => .ok (a, { cursor with columns := cursor.columns.tail, values, position := cursor.position + 1 })

def record : (types : List FieldType) → Reader (Record types)
  | [] => pure ()
  | t :: types => do
    let field ← next t.codec
    let rest ← record types
    pure (field, rest)

end Reader

def Record.values : (types : List FieldType) → Record types → List Value
  | [], _ => []
  | t :: types, (field, rest) => t.codec.encode field :: Record.values types rest

def Table.read {α : Type} (t : Table) (reader : Reader α) (values : List Value) : Except Misfit α :=
  if values.length ≠ t.width then
    .error (.width t.name t.width values.length)
  else
    match reader ⟨t.name, t.columnNames, values, 0⟩ with
    | .error misfit => .error misfit
    | .ok (a, cursor) =>
      match cursor.values.length with
      | 0 => .ok a
      | left => .error (.unread t.name left)

def slice (row : List Value) (start length : Nat) : Except Misfit (List Value) :=
  if start + length ≤ row.length then
    .ok ((row.drop start).take length)
  else
    .error (.shortRow row.length (start + length))

def Record.Faithful : (types : List FieldType) → Record types → Prop
  | [], _ => True
  | t :: types, (field, rest) => t.codec.decode (t.codec.encode field) = .ok field ∧ Faithful types rest

theorem Record.length_values (types : List FieldType) (r : Record types) :
    (r.values types).length = types.length := by
  induction types with
  | nil => rfl
  | cons t types ih =>
    obtain ⟨field, rest⟩ := r
    simp [Record.values, ih]

end RecordMapper
