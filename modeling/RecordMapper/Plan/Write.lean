import RecordMapper.Plan.Filter
import RecordMapper.Plan.Join

namespace RecordMapper

abbrev Table.Positions (t : Table) : Type :=
  List (Fin t.width)

def Table.Positions.map {α : Type} {t : Table} (positions : t.Positions) (f : Nat → α) : List α :=
  List.map (fun i => f i.val) positions

def Table.columnAt (t : Table) (i : Fin t.width) : Column :=
  t.columns.get i

abbrev Table.Row (t : Table) : Type :=
  { row : List Value // row.length = t.width }

def Table.Row.value {t : Table} (row : t.Row) (i : Fin t.width) : Value :=
  row.1.get (i.cast row.2.symm)

inductive Selection where
  | all
  | ignoring (names : List String)
  | only (names : List String)
  deriving DecidableEq, Repr

namespace Selection

def named : Selection → List String
  | .all => []
  | .ignoring names | .only names => names

def covers : Selection → String → Bool
  | .all, _ => true
  | .ignoring names, name => !names.contains name
  | .only names, name => names.contains name

/-- Positions of the columns covered, which must be some, in the table's order. -/
def positions (s : Selection) (t : Table) : Except Malformation t.Positions :=
  match s.named.find? fun name => !t.hasColumn name with
  | some name => .error (.noSuchColumn t.name name)
  | none =>
    let kept := (List.finRange t.width).filter fun i => s.covers (t.columnAt i).name
    if kept.isEmpty then .error (.nothingToWrite t.name) else .ok kept

end Selection

namespace Table

def requireWidth (t : Table) (row : List Value) : Except Failure t.Row :=
  if whole : row.length = t.width then .ok ⟨row, whole⟩ else .error (.binding t.width row.length)

def assignments (t : Table) (positions : t.Positions) (row : t.Row) : List (String × Value) :=
  List.map (fun i => ((t.columnAt i).name, row.value i)) positions

def insert (t : Table) (positions : t.Positions) (row : List Value) : Except Failure Sql.Command := do
  let whole ← t.requireWidth row
  let written := t.assignments positions whole
  pure (.insert t.name (some (written.map Prod.fst)) [written.map Prod.snd])

def filterIn (scope : Scope) (filter : Option Predicate) : Except Failure (Option Sql.Condition) :=
  (Predicate.conditionOf scope filter).mapError .malformed

def updateIn (t : Table) (scope : Scope) (positions : t.Positions) (row : List Value) (filter : Option Predicate) :
    Except Failure Sql.Command := do
  let whole ← t.requireWidth row
  let condition ← filterIn scope filter
  pure (.update t.name (t.assignments positions whole) condition)

def update (t : Table) (positions : t.Positions) (row : List Value) (filter : Option Predicate) :
    Except Failure Sql.Command :=
  t.updateIn ⟨t, []⟩ positions row filter

def deleteIn (t : Table) (scope : Scope) (filter : Option Predicate) : Except Failure Sql.Command := do
  let condition ← filterIn scope filter
  pure (.delete t.name condition)

def delete (t : Table) (filter : Option Predicate) : Except Failure Sql.Command :=
  t.deleteIn ⟨t, []⟩ filter

def create (t : Table) : Sql.Command :=
  .create t.definition

def addColumn (t : Table) (c : Column) : Sql.Command :=
  .addColumn t.name (c.definition false)

end Table

end RecordMapper
