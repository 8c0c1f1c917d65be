import RecordMapper.Proofs.Predicate.Meaning

namespace RecordMapper

section Columns

inductive FirstNamed (name : String) : List ScopedTable → ScopedTable → Prop where
  | here {e : ScopedTable} {rest : List ScopedTable} (named : e.table.name = name) : FirstNamed name (e :: rest) e
  | later {e found : ScopedTable} {rest : List ScopedTable} (other : e.table.name ≠ name)
    (first : FirstNamed name rest found) : FirstNamed name (e :: rest) found

/-- A column without a table is one of the root's, and one with a table is one of the first table of the name. -/
inductive Scope.Has (s : Scope) : ColumnRef → Prop where
  | root {column : String} (listed : column ∈ s.root.columnNames) : Has s ⟨none, column⟩
  | named {table column : String} {e : ScopedTable} (first : FirstNamed table s.entries e)
    (listed : column ∈ e.table.columnNames) : Has s ⟨some table, column⟩

theorem find?_eq_some_iff_firstNamed {name : String} {entries : List ScopedTable} {found : ScopedTable} :
    entries.find? (·.table.name == name) = some found ↔ FirstNamed name entries found := by
  constructor
  · intro hit
    induction entries with
    | nil => cases hit
    | cons e rest ih =>
      by_cases named : e.table.name = name
      · rw [List.find?_cons_of_pos (by simpa using named)] at hit
        obtain rfl := Option.some.inj hit
        exact .here named
      · rw [List.find?_cons_of_neg (by simpa using named)] at hit
        exact .later named (ih hit)
  · intro first
    induction first with
    | here named => exact List.find?_cons_of_pos (by simpa using named)
    | later other first ih => rw [List.find?_cons_of_neg (by simpa using other), ih]

variable {s : Scope}

theorem Scope.exists_resolve_iff {c : ColumnRef} : (∃ column, s.resolve c = .ok column) ↔ s.Has c := by
  obtain ⟨table, name⟩ := c
  constructor
  · rintro ⟨column, resolved⟩
    obtain ⟨e, entry, has, -⟩ := Scope.resolve_eq_ok.1 resolved
    have listed : name ∈ e.table.columnNames := (e.table.hasColumn_iff name).1 has
    cases table with
    | none =>
      cases entry
      exact .root listed
    | some table =>
      simp only [Scope.entry] at entry
      split at entry
      · rename_i hit
        cases entry
        exact .named (find?_eq_some_iff_firstNamed.1 hit) listed
      · cases entry
  · intro has
    cases has with
    | root listed => exact ⟨_, Scope.resolve_eq_ok.2 ⟨_, rfl, (s.root.hasColumn_iff name).2 listed, rfl⟩⟩
    | @named table _ e first listed =>
      have entry : s.entry (some table) = .ok e := by
        simp only [Scope.entry, find?_eq_some_iff_firstNamed.2 first]
      exact ⟨_, Scope.resolve_eq_ok.2 ⟨e, entry, (e.table.hasColumn_iff name).2 listed, rfl⟩⟩

end Columns

section Leaves

structure Comparable (s : Scope) (left : Operand) (op : Comparison) (right : Operand) : Prop where
  scalar : ∀ values, left ≠ .list values ∧ right ≠ .list values
  column : (∃ c, left = .column c) ∨ ∃ c, right = .column c
  known : ∀ c, left = .column c ∨ right = .column c → s.Has c
  null : left = .value .null ∨ right = .value .null → op = .eq ∨ op = .ne

namespace Comparable

variable {s : Scope} {left right : Operand} {op : Comparison}

theorem flip (comparable : Comparable s left op right) : Comparable s right op.flipped left := by
  obtain ⟨scalar, column, known, null⟩ := comparable
  refine ⟨fun values => (scalar values).symm, column.symm, fun c is => known c is.symm, fun is => ?_⟩
  rcases null is.symm with rfl | rfl
  · exact .inl rfl
  · exact .inr rfl

theorem flip_iff : Comparable s left op right ↔ Comparable s right op.flipped left := by
  refine ⟨flip, fun flipped => ?_⟩
  have twice := flipped.flip
  rwa [Comparison.flipped_flipped] at twice

theorem not_list {values : List Value} : ¬ Comparable s (.list values) op right :=
  fun comparable => (comparable.scalar values).1 rfl

theorem not_values {v w : Value} : ¬ Comparable s (.value v) op (.value w) := by
  intro comparable
  rcases comparable.column with ⟨c, is⟩ | ⟨c, is⟩
  · cases is
  · cases is

theorem column_column {a b : ColumnRef} : Comparable s (.column a) op (.column b) ↔ s.Has a ∧ s.Has b := by
  constructor
  · intro comparable
    exact ⟨comparable.known a (.inl rfl), comparable.known b (.inr rfl)⟩
  · rintro ⟨first, second⟩
    refine ⟨fun values => ⟨nofun, nofun⟩, .inl ⟨a, rfl⟩, ?_, by rintro (is | is) <;> cases is⟩
    rintro c (is | is)
    · cases is
      exact first
    · cases is
      exact second

theorem column_value {c : ColumnRef} {v : Value} :
    Comparable s (.column c) op (.value v) ↔ s.Has c ∧ (v = .null → op = .eq ∨ op = .ne) := by
  constructor
  · intro comparable
    exact ⟨comparable.known c (.inl rfl), fun null => comparable.null (.inr (congrArg _ null))⟩
  · rintro ⟨known, equality⟩
    refine ⟨fun values => ⟨nofun, nofun⟩, .inl ⟨c, rfl⟩, ?_, ?_⟩
    · rintro _ (is | is)
      · cases is
        exact known
      · cases is
    · rintro (is | is)
      · cases is
      · exact equality (Operand.value.inj is)

end Comparable

/-- A leaf that can be written. A test of membership names its column even if there is nothing to be a member of. -/
inductive Predicate.Askable (s : Scope) : Predicate → Prop where
  | compare {left right : Operand} {op : Comparison} (comparable : Comparable s left op right) :
    Askable s (.compare left op right)
  | member {c : ColumnRef} {values : List Value} {negated : Bool} (known : s.Has c) : Askable s (.member c values negated)
  | pattern {c : ColumnRef} {p : Pattern} (known : s.Has c) : Askable s (.pattern c p)

namespace Predicate

def leaves : Predicate → List Predicate
  | .and left right | .or left right => left.leaves ++ right.leaves
  | .not inner => inner.leaves
  | leaf => [leaf]

def WellFormed (s : Scope) (p : Predicate) : Prop :=
  ∀ leaf ∈ p.leaves, leaf.Askable s

variable {s : Scope}

theorem wellFormed_compare {left right : Operand} {op : Comparison} :
    (compare left op right).WellFormed s ↔ Comparable s left op right := by
  refine List.forall_mem_singleton.trans ⟨?_, .compare⟩
  intro askable
  cases askable with
  | compare comparable => exact comparable

theorem wellFormed_member {c : ColumnRef} {values : List Value} {negated : Bool} :
    (member c values negated).WellFormed s ↔ s.Has c := by
  refine List.forall_mem_singleton.trans ⟨?_, .member⟩
  intro askable
  cases askable with
  | member known => exact known

theorem wellFormed_pattern {c : ColumnRef} {p : Pattern} : (pattern c p).WellFormed s ↔ s.Has c := by
  refine List.forall_mem_singleton.trans ⟨?_, .pattern⟩
  intro askable
  cases askable with
  | pattern known => exact known

theorem exists_compareWithValue_iff {c : ColumnRef} {op : Comparison} {v : Value} :
    (∃ written, compareWithValue s c op v = .ok written) ↔ Comparable s (.column c) op (.value v) := by
  rw [Comparable.column_value]
  simp only [← Scope.exists_resolve_iff, compareWithValue, bind_eq_ok]
  constructor
  · rintro ⟨written, column, resolved, rest⟩
    refine ⟨⟨column, resolved⟩, fun null => ?_⟩
    subst null
    cases op with
    | eq => exact .inl rfl
    | ne => exact .inr rfl
    | lt | le | gt | ge => exact absurd rest throw_ne_ok
  · rintro ⟨⟨column, resolved⟩, equality⟩
    cases v with
    | null =>
      rcases equality rfl with rfl | rfl
      · exact ⟨_, column, resolved, rfl⟩
      · exact ⟨_, column, resolved, rfl⟩
    | integer n | real x | text t | blob bytes => exact ⟨_, column, resolved, rfl⟩

theorem exists_compareOperands_iff {left right : Operand} {op : Comparison} :
    (∃ written, compareOperands s left op right = .ok written) ↔ Comparable s left op right := by
  have refused {fault : Malformation} (thrown : compareOperands s left op right = .error fault)
      (not : ¬ Comparable s left op right) :
      (∃ written, compareOperands s left op right = .ok written) ↔ Comparable s left op right := by
    refine iff_of_false ?_ not
    rintro ⟨written, compiled⟩
    rw [thrown] at compiled
    cases compiled
  cases left with
  | list values => exact refused rfl Comparable.not_list
  | column a =>
    cases right with
    | list values => exact refused rfl fun comparable => Comparable.not_list comparable.flip
    | column b =>
      rw [Comparable.column_column, ← Scope.exists_resolve_iff, ← Scope.exists_resolve_iff]
      simp only [compareOperands, bind_eq_ok, pure_eq_ok]
      constructor
      · rintro ⟨_, first, one, second, two, -⟩
        exact ⟨⟨first, one⟩, second, two⟩
      · rintro ⟨⟨first, one⟩, second, two⟩
        exact ⟨_, first, one, second, two, rfl⟩
    | value v => exact exists_compareWithValue_iff
  | value v =>
    cases right with
    | list values => exact refused rfl fun comparable => Comparable.not_list comparable.flip
    | column c => exact exists_compareWithValue_iff.trans Comparable.flip_iff.symm
    | value w => cases v <;> cases w <;> exact refused rfl Comparable.not_values

/-- A predicate has a condition exactly if each of its leaves can be written, at whatever depth they stand. -/
theorem exists_condition_iff {p : Predicate} : (∃ written, p.condition s = .ok written) ↔ p.WellFormed s := by
  induction p with
  | compare left op right => exact exists_compareOperands_iff.trans wellFormed_compare.symm
  | member c values negated =>
    rw [wellFormed_member, ← Scope.exists_resolve_iff]
    simp only [condition, memberTest, bind_eq_ok]
    constructor
    · rintro ⟨_, column, resolved, -⟩
      exact ⟨column, resolved⟩
    · rintro ⟨column, resolved⟩
      cases values with
      | nil => exact ⟨_, column, resolved, rfl⟩
      | cons v values => exact ⟨_, column, resolved, rfl⟩
  | pattern c p =>
    rw [wellFormed_pattern, ← Scope.exists_resolve_iff]
    simp only [condition, patternTest, bind_eq_ok, pure_eq_ok]
    constructor
    · rintro ⟨_, column, resolved, -⟩
      exact ⟨column, resolved⟩
    · rintro ⟨column, resolved⟩
      exact ⟨_, column, resolved, rfl⟩
  | and left right ihLeft ihRight | or left right ihLeft ihRight =>
    refine Iff.trans ?_ ((and_congr ihLeft ihRight).trans List.forall_mem_append.symm)
    simp only [condition, bind_eq_ok, pure_eq_ok]
    constructor
    · rintro ⟨_, a, first, b, second, -⟩
      exact ⟨⟨a, first⟩, b, second⟩
    · rintro ⟨⟨a, first⟩, b, second⟩
      exact ⟨_, a, first, b, second, rfl⟩
  | not inner ih =>
    refine Iff.trans ?_ ih
    simp only [condition, bind_eq_ok, pure_eq_ok]
    constructor
    · rintro ⟨_, a, compiled, -⟩
      exact ⟨a, compiled⟩
    · rintro ⟨a, compiled⟩
      exact ⟨_, a, compiled, rfl⟩

end Predicate

end Leaves

end RecordMapper
