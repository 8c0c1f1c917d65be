import RecordMapper.Failure
import RecordMapper.Sql.Definition

namespace RecordMapper

structure Column where
  name : String
  dataType : DataType
  nullable : Bool
  key : Bool
  deriving DecidableEq, Repr

/-- The column in a definition; `inline` lets a key column declare itself. -/
def Column.definition (c : Column) (inline : Bool) : Sql.ColumnDefinition :=
  ⟨c.name, c.dataType.declared, inline && c.key, !c.nullable, none⟩

def firstRepeated? (seen : List String) : List String → Option String
  | [] => none
  | name :: rest => if name ∈ seen then some name else firstRepeated? (name :: seen) rest

theorem firstRepeated?_eq_none_iff (seen names : List String) :
    firstRepeated? seen names = none ↔ names.Nodup ∧ ∀ name ∈ names, name ∉ seen := by
  induction names generalizing seen with
  | nil => simp [firstRepeated?]
  | cons name rest ih =>
    by_cases member : name ∈ seen
    · simp [firstRepeated?, member]
    · simp only [firstRepeated?, member, if_false, ih, List.nodup_cons, List.mem_cons, not_or,
        forall_eq_or_imp, not_false_eq_true, true_and]
      constructor
      · rintro ⟨distinct, apart⟩
        exact ⟨⟨fun h => (apart name h).1 rfl, distinct⟩, fun n h => (apart n h).2⟩
      · rintro ⟨⟨fresh, distinct⟩, apart⟩
        exact ⟨distinct, fun n h => ⟨fun same => fresh (same ▸ h), apart n h⟩⟩

structure Table where
  name : String
  columns : List Column
  distinct : (columns.map Column.name).Nodup

namespace Table

def make (name : String) (columns : List Column) : Except Failure Table :=
  match h : firstRepeated? [] (columns.map Column.name) with
  | some field => .error (.unsupportedField name field .duplicateColumn)
  | none => .ok ⟨name, columns, ((firstRepeated?_eq_none_iff _ _).1 h).1⟩

def columnNames (t : Table) : List String :=
  t.columns.map Column.name

def columnIndex? (t : Table) (name : String) : Option Nat :=
  t.columns.findIdx? (·.name == name)

def column? (t : Table) (name : String) : Option Column :=
  t.columns.find? (·.name == name)

def hasColumn (t : Table) (name : String) : Bool :=
  t.columns.any (·.name == name)

def width (t : Table) : Nat :=
  t.columns.length

def keyPositions (t : Table) : List Nat :=
  (List.range t.columns.length).filter fun i => (t.columns[i]?.map Column.key).getD false

def keyColumns (t : Table) : List Column :=
  t.columns.filter Column.key

def keyNames (t : Table) : List String :=
  t.keyColumns.map Column.name

def definition (t : Table) : Sql.TableDefinition :=
  let inline := t.keyColumns.length == 1
  ⟨t.name, t.columns.map (·.definition inline), if 1 < t.keyColumns.length then t.keyNames else []⟩

theorem make_eq_ok_iff (name : String) (columns : List Column) :
    (∃ t, make name columns = .ok t) ↔ (columns.map Column.name).Nodup := by
  unfold make
  split
  · rename_i field h
    constructor
    · rintro ⟨t, bad⟩
      cases bad
    · intro distinct
      have none := (firstRepeated?_eq_none_iff [] _).2 ⟨distinct, by simp⟩
      rw [none] at h
      cases h
  · rename_i h
    exact ⟨fun _ => ((firstRepeated?_eq_none_iff _ _).1 h).1, fun _ => ⟨_, rfl⟩⟩

theorem hasColumn_iff (t : Table) (name : String) : t.hasColumn name = true ↔ name ∈ t.columnNames := by
  simp [hasColumn, columnNames]

end Table

end RecordMapper
