import RecordMapper.Proofs.Outcome
import RecordMapper.Proofs.Predicate.Evaluation

namespace RecordMapper

open RecordMapper.Store RecordMapper.Text

structure Placed where
  entry : ScopedTable
  table : StoredTable
  row : StoredRow

namespace Placed

def binding (p : Placed) : Binding :=
  ⟨p.entry.label, p.table, p.row⟩

def cell (p : Placed) (name : String) : Cell :=
  match p.table.spot? name with
  | none => ⟨.null, .blob⟩
  | some spot => ⟨p.row.valueOf spot, p.table.affinityOf spot⟩

def standing? (placed : List Placed) : Option String → Option Placed
  | none => placed.head?
  | some table => placed.find? fun p => p.entry.table.name == table

def cellOf (placed : List Placed) (c : ColumnRef) : Cell :=
  (standing? placed c.table).elim ⟨.null, .blob⟩ fun p => p.cell c.column

end Placed

/-- A column compared with a value; equality with null is the null test. -/
def cellTruth (cell : Cell) (op : Comparison) (v : Value) : Truth :=
  match v, op with
  | .null, .eq => some cell.value.isNull
  | .null, .ne => some !cell.value.isNull
  | v, op => compareCell op cell v

def mirroredTruth (v : Value) (op : Comparison) (cell : Cell) : Truth :=
  match v, op with
  | .null, .eq => some cell.value.isNull
  | .null, .ne => some !cell.value.isNull
  | v, op =>
    let left := cell.affinity.compared (admitted v)
    let right := cell.affinity.compared cell.value
    if left.isNull || right.isNull then none else some (op.holds (compareValues right left).swap)

namespace Predicate

def comparisonTruth (placed : List Placed) : Operand → Comparison → Operand → Truth
  | .column a, op, .column b => compareCells op (Placed.cellOf placed a) (Placed.cellOf placed b)
  | .column c, op, .value v => cellTruth (Placed.cellOf placed c) op v
  | .value v, op, .column c => mirroredTruth v op (Placed.cellOf placed c)
  | _, _, _ => none

def patternTruth (cell : Cell) (p : Pattern) : Truth :=
  let text := if p.ignoreCase then foldCase p.text else p.text
  let truth := globTruth p.ignoreCase (p.kind.glob text) cell.value
  if p.negated then truth.not else truth

/-- The truth of a predicate on an assignment of rows to the tables of a scope. -/
def truth (placed : List Placed) : Predicate → Truth
  | .compare left op right => comparisonTruth placed left op right
  | .member c values negated =>
    let truth := memberTruth (Placed.cellOf placed c) values
    if negated then truth.not else truth
  | .pattern c p => patternTruth (Placed.cellOf placed c) p
  | .and left right => (left.truth placed).and (right.truth placed)
  | .or left right => (left.truth placed).or (right.truth placed)
  | .not inner => (inner.truth placed).not

end Predicate

namespace Scope

variable {s : Scope} {c : ColumnRef} {column : Sql.ColumnName}

theorem entry_mem {table : Option String} {e : ScopedTable} (found : s.entry table = .ok e) : e ∈ s.entries := by
  cases table with
  | none =>
    cases found
    simp [entries]
  | some table =>
    simp only [entry] at found
    split at found
    · rename_i hit
      cases found
      exact List.mem_of_find?_eq_some hit
    · cases found

theorem resolve_eq_ok : s.resolve c = .ok column ↔
    ∃ e, s.entry c.table = .ok e ∧ e.table.hasColumn c.column = true ∧ column = ⟨e.label, c.column⟩ := by
  simp only [resolve, bind_eq_ok]
  constructor
  · rintro ⟨e, found, rest⟩
    split at rest
    · rename_i has
      exact ⟨e, found, has, (pure_eq_ok.1 rest).symm⟩
    · exact absurd rest throw_ne_ok
  · rintro ⟨e, found, has, rfl⟩
    exact ⟨e, found, by simp [has]⟩

end Scope

/-- A scope that conditions can be written in: no two labels are the same, none needs quotes, and no column name
    holds U+0000. -/
structure Scope.Writable (s : Scope) : Prop where
  distinct : (s.entries.map ScopedTable.label).Nodup
  plain : ∀ e ∈ s.entries, Sql.IsPlainLabel e.label
  names : ∀ e ∈ s.entries, ∀ name ∈ e.table.columnNames, '\x00' ∉ name.toList

section Assignment

variable {s : Scope} {placed : List Placed} {c : ColumnRef} {column : Sql.ColumnName}

theorem standing?_entry {table : Option String} {e : ScopedTable} (all : placed.map Placed.entry = s.entries)
    (found : s.entry table = .ok e) : ∃ p ∈ placed, Placed.standing? placed table = some p ∧ p.entry = e := by
  cases table with
  | none =>
    cases placed with
    | nil => simp [Scope.entries] at all
    | cons p rest =>
      simp only [Scope.entry, Except.ok.injEq] at found
      simp only [List.map_cons, Scope.entries, List.cons.injEq] at all
      exact ⟨p, by simp, rfl, all.1.trans found⟩
  | some table =>
    simp only [Scope.entry, ← all, List.find?_map, Function.comp_def] at found
    rcases hit : placed.find? fun p => p.entry.table.name == table with _ | p
    · rw [hit] at found
      cases found
    · rw [hit] at found
      simp only [Option.map_some, Except.ok.injEq] at found
      exact ⟨p, List.mem_of_find?_eq_some hit, hit, found⟩

theorem find?_label {p : Placed} (distinct : (placed.map fun p => p.entry.label).Nodup) (member : p ∈ placed) :
    (placed.map Placed.binding).find? (fun b => b.label == p.entry.label) = some p.binding := by
  induction placed with
  | nil => cases member
  | cons first rest ih =>
    simp only [List.map_cons, List.nodup_cons] at distinct
    rcases List.mem_cons.1 member with rfl | later
    · simp [Placed.binding]
    · have other : first.entry.label ≠ p.entry.label :=
        fun same => distinct.1 (List.mem_map.2 ⟨p, later, same.symm⟩)
      simpa [Placed.binding, other] using ih distinct.2 later

theorem cell_resolve (labels : (s.entries.map ScopedTable.label).Nodup) (all : placed.map Placed.entry = s.entries)
    (found : s.resolve c = .ok column) :
    Bindings.cell (placed.map Placed.binding) column = Placed.cellOf placed c := by
  obtain ⟨e, entry, -, rfl⟩ := Scope.resolve_eq_ok.1 found
  obtain ⟨p, member, standing, rfl⟩ := standing?_entry all entry
  have distinct : (placed.map fun p => p.entry.label).Nodup := by
    simpa [← all, Function.comp_def] using labels
  simp only [Bindings.cell, find?_label distinct member, Placed.cellOf, standing, Option.elim_some, Placed.cell]
  rcases spot : p.table.spot? c.column with _ | spot <;> simp [Placed.binding, spot]

theorem Predicate.truth_compareWithValue {op : Comparison} {v : Value} {written : Sql.Condition}
    (labels : (s.entries.map ScopedTable.label).Nodup) (all : placed.map Placed.entry = s.entries)
    (compiled : Predicate.compareWithValue s c op v = .ok written) :
    conditionTruth (placed.map Placed.binding) written = cellTruth (Placed.cellOf placed c) op v := by
  simp only [Predicate.compareWithValue, bind_eq_ok] at compiled
  obtain ⟨column, found, rest⟩ := compiled
  rw [← cell_resolve labels all found]
  split at rest
  · obtain rfl := pure_eq_ok.1 rest
    simp [conditionTruth, cellTruth, Bindings.value]
  · obtain rfl := pure_eq_ok.1 rest
    simp [conditionTruth, cellTruth, Bindings.value]
  · exact absurd rest throw_ne_ok
  · rename_i some
    obtain rfl := pure_eq_ok.1 rest
    unfold cellTruth
    split <;> simp_all [conditionTruth]

theorem cellTruth_flipped (cell : Cell) (op : Comparison) (v : Value) :
    cellTruth cell op.flipped v = mirroredTruth v op cell := by
  have turned : compareCell op.flipped cell v =
      if (cell.affinity.compared (admitted v)).isNull || (cell.affinity.compared cell.value).isNull then none
      else some (op.holds (compareValues (cell.affinity.compared cell.value)
        (cell.affinity.compared (admitted v))).swap) := by
    rw [compareCell, compareTruth, Bool.or_comm, Comparison.holds_flipped]
  cases v with
  | null => cases op <;> first | rfl | exact turned
  | integer n | real x | text s | blob bytes => exact turned

theorem Predicate.truth_compareOperands {left right : Operand} {op : Comparison} {written : Sql.Condition}
    (labels : (s.entries.map ScopedTable.label).Nodup) (all : placed.map Placed.entry = s.entries)
    (compiled : Predicate.compareOperands s left op right = .ok written) :
    conditionTruth (placed.map Placed.binding) written = comparisonTruth placed left op right := by
  unfold Predicate.compareOperands at compiled
  split at compiled
  · cases compiled
  · cases compiled
  · simp only [bind_eq_ok, pure_eq_ok] at compiled
    obtain ⟨a, first, b, second, rfl⟩ := compiled
    simp only [conditionTruth, comparisonTruth, cell_resolve labels all first, cell_resolve labels all second]
  · exact Predicate.truth_compareWithValue labels all compiled
  · rw [Predicate.truth_compareWithValue labels all compiled]
    exact cellTruth_flipped _ _ _
  · cases compiled
  · cases compiled

/-- A condition says of the rows under their labels what its predicate says of the tables' rows. -/
theorem Predicate.truth_condition {p : Predicate} {written : Sql.Condition}
    (labels : (s.entries.map ScopedTable.label).Nodup) (all : placed.map Placed.entry = s.entries)
    (compiled : p.condition s = .ok written) :
    conditionTruth (placed.map Placed.binding) written = p.truth placed := by
  induction p generalizing written with
  | compare left op right =>
    unfold condition at compiled
    unfold truth
    exact truth_compareOperands labels all compiled
  | member c values negated =>
    simp only [condition, memberTest, bind_eq_ok] at compiled
    obtain ⟨column, found, rest⟩ := compiled
    rw [truth, ← cell_resolve labels all found]
    cases values with
    | nil =>
      obtain rfl := pure_eq_ok.1 rest
      cases negated <;> rfl
    | cons v values =>
      obtain rfl := pure_eq_ok.1 rest
      rfl
  | pattern c p =>
    simp only [condition, patternTest, bind_eq_ok] at compiled
    obtain ⟨column, found, rest⟩ := compiled
    obtain rfl := pure_eq_ok.1 rest
    rw [truth, ← cell_resolve labels all found, patternTruth]
    cases p.negated <;> rfl
  | and left right ihLeft ihRight | or left right ihLeft ihRight =>
    simp only [condition, bind_eq_ok, pure_eq_ok] at compiled
    obtain ⟨a, first, b, second, rfl⟩ := compiled
    simp only [conditionTruth, truth, ihLeft first, ihRight second]
  | not inner ih =>
    simp only [condition, bind_eq_ok, pure_eq_ok] at compiled
    obtain ⟨a, first, rfl⟩ := compiled
    simp only [conditionTruth, truth, ih first]

theorem Scope.resolve_writable (writable : s.Writable) (found : s.resolve c = .ok column) : column.Writable := by
  obtain ⟨e, entry, has, rfl⟩ := Scope.resolve_eq_ok.1 found
  have member := Scope.entry_mem entry
  exact ⟨writable.plain e member, writable.names e member _ ((e.table.hasColumn_iff _).1 has)⟩

theorem Predicate.compareWithValue_writable {op : Comparison} {v : Value} {written : Sql.Condition}
    (writable : s.Writable) (compiled : compareWithValue s c op v = .ok written) : written.Writable := by
  simp only [compareWithValue, bind_eq_ok] at compiled
  obtain ⟨column, found, rest⟩ := compiled
  have column := Scope.resolve_writable writable found
  split at rest
  · obtain rfl := pure_eq_ok.1 rest
    exact column
  · obtain rfl := pure_eq_ok.1 rest
    exact column
  · exact absurd rest throw_ne_ok
  · obtain rfl := pure_eq_ok.1 rest
    exact column

theorem Predicate.compareOperands_writable {left right : Operand} {op : Comparison} {written : Sql.Condition}
    (writable : s.Writable) (compiled : compareOperands s left op right = .ok written) : written.Writable := by
  unfold compareOperands at compiled
  split at compiled
  · cases compiled
  · cases compiled
  · simp only [bind_eq_ok, pure_eq_ok] at compiled
    obtain ⟨a, first, b, second, rfl⟩ := compiled
    exact ⟨Scope.resolve_writable writable first, Scope.resolve_writable writable second⟩
  · exact compareWithValue_writable writable compiled
  · exact compareWithValue_writable writable compiled
  · cases compiled
  · cases compiled

theorem Predicate.condition_writable {p : Predicate} {written : Sql.Condition} (writable : s.Writable)
    (compiled : p.condition s = .ok written) : written.Writable := by
  induction p generalizing written with
  | compare left op right => exact compareOperands_writable writable compiled
  | member c values negated =>
    simp only [condition, memberTest, bind_eq_ok] at compiled
    obtain ⟨column, found, rest⟩ := compiled
    cases values with
    | nil =>
      obtain rfl := pure_eq_ok.1 rest
      exact trivial
    | cons v values =>
      obtain rfl := pure_eq_ok.1 rest
      exact ⟨Scope.resolve_writable writable found, List.cons_ne_nil _ _⟩
  | pattern c p =>
    simp only [condition, patternTest, bind_eq_ok] at compiled
    obtain ⟨column, found, rest⟩ := compiled
    obtain rfl := pure_eq_ok.1 rest
    have column := Scope.resolve_writable writable found
    cases p.negated with
    | false => exact column
    | true => exact column
  | and left right ihLeft ihRight | or left right ihLeft ihRight =>
    simp only [condition, bind_eq_ok, pure_eq_ok] at compiled
    obtain ⟨a, first, b, second, rfl⟩ := compiled
    exact ⟨ihLeft first, ihRight second⟩
  | not inner ih =>
    simp only [condition, bind_eq_ok, pure_eq_ok] at compiled
    obtain ⟨a, first, rfl⟩ := compiled
    have inner : a.Writable := ih first
    exact inner

theorem Predicate.conditionOf_writable (writable : s.Writable) {filter : Option Predicate} {condition : Option Sql.Condition}
    (compiled : conditionOf s filter = .ok condition) : ∀ f ∈ condition, f.Writable := by
  cases filter with
  | none =>
    cases compiled
    exact fun f none => absurd none (Option.not_mem_none f)
  | some p =>
    simp only [conditionOf, bind_eq_ok, pure_eq_ok] at compiled
    obtain ⟨written, made, rfl⟩ := compiled
    intro f here
    cases here
    exact condition_writable writable made

/-- Writing a predicate keeps its meaning: its text is one expression that takes up all parameters and is as true
    as the predicate on every assignment of rows to the tables of the scope. -/
theorem Predicate.read_condition (p : Predicate) (s : Scope) (written : Sql.Condition) (writable : s.Writable)
    (compiled : p.condition s = .ok written) :
    ∃ e, Sql.Expression.read written.text written.params = some e ∧
      ∀ placed : List Placed, placed.map Placed.entry = s.entries →
        e.truth (placed.map Placed.binding) = p.truth placed := by
  refine ⟨written.expression, Sql.Condition.read_text (condition_writable writable compiled), ?_⟩
  intro placed all
  rw [Sql.Condition.truth_expression, truth_condition writable.distinct all compiled]

end Assignment

def quotedScope : Scope :=
  ⟨⟨"notes", [⟨"a\" = ? OR \"b", .integer, true, true⟩, ⟨"NULL", .text, true, false⟩], by decide⟩,
    [⟨"t1", ⟨"tags", [⟨"?", .text, true, false⟩], by decide⟩⟩]⟩

def quotedPredicate : Predicate :=
  .not (.or
    (.and (.compare (.value (.integer 3)) .lt (.column ⟨none, "a\" = ? OR \"b"⟩))
      (.compare (.column ⟨some "tags", "?"⟩) .ne (.column ⟨none, "NULL"⟩)))
    (.and (.not (.member ⟨some "tags", "?"⟩ [.text "x", .null] true))
      (.or (.pattern ⟨none, "NULL"⟩ ⟨.contains, "*?", true, true⟩)
        (.compare (.value .null) .ne (.column ⟨none, "NULL"⟩)))))

theorem quotedScope_writable : quotedScope.Writable :=
  ⟨by decide, by
    intro e member
    simp only [quotedScope, Scope.entries, List.mem_cons, List.not_mem_nil, or_false] at member
    rcases member with rfl | rfl
    · exact ⟨by decide, by decide⟩
    · exact ⟨by decide, by decide⟩, by decide⟩

theorem read_condition_quoted :
    quotedScope.Writable ∧ ∃ written, quotedPredicate.condition quotedScope = .ok written ∧
      ∃ e, Sql.Expression.read written.text written.params = some e ∧
        ∀ placed : List Placed, placed.map Placed.entry = quotedScope.entries →
          e.truth (placed.map Placed.binding) = quotedPredicate.truth placed :=
  ⟨quotedScope_writable, _, rfl, Predicate.read_condition quotedPredicate quotedScope _ quotedScope_writable rfl⟩

end RecordMapper
