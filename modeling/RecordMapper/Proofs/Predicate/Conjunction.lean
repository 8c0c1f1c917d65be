import RecordMapper.Proofs.Predicate.Meaning
import RecordMapper.Proofs.Store.Sifting

namespace RecordMapper

open RecordMapper.Store

namespace Predicate

def conjuncts : Predicate → List Predicate
  | .and left right => left.conjuncts ++ right.conjuncts
  | p => [p]

theorem truth_conjuncts (placed : List Placed) (p : Predicate) :
    p.truth placed = some true ↔ ∀ e ∈ p.conjuncts, e.truth placed = some true := by
  induction p with
  | and left right ihLeft ihRight =>
    simp only [conjuncts, List.forall_mem_append, ← ihLeft, ← ihRight, truth]
    rcases left.truth placed with _ | _ | _ <;> rcases right.truth placed with _ | _ | _ <;> decide
  | compare | member | pattern | or | not => simp [conjuncts]

theorem exists_condition {s : Scope} {p : Predicate} (each : ∀ e ∈ p.conjuncts, ∃ c, e.condition s = .ok c) :
    ∃ c, p.condition s = .ok c := by
  induction p with
  | and left right ihLeft ihRight =>
    rw [conjuncts, List.forall_mem_append] at each
    obtain ⟨a, first⟩ := ihLeft each.1
    obtain ⟨b, second⟩ := ihRight each.2
    exact ⟨.and a b, by simp only [condition, first, second]; rfl⟩
  | compare | member | pattern | or | not => exact each _ (List.mem_singleton_self _)

theorem conjuncts_foldl (first : Predicate) (rest : List Predicate) :
    (rest.foldl .and first).conjuncts = first.conjuncts ++ rest.flatMap conjuncts := by
  induction rest generalizing first with
  | nil => exact (List.append_nil _).symm
  | cons next rest ih => rw [List.foldl_cons, ih, conjuncts, List.flatMap_cons, List.append_assoc]

theorem conjuncts_all {tests : List Predicate} {p : Predicate} (joined : all tests = some p) :
    p.conjuncts = tests.flatMap conjuncts := by
  cases tests with
  | nil => cases joined
  | cons first rest =>
    obtain rfl := Option.some.inj joined
    exact conjuncts_foldl first rest

section Depth

variable {s : Scope} {d : Nat} {join : Predicate → Predicate → Predicate}

/-- A way to join predicates whose condition stands one deeper than those joined. -/
def Deepens (join : Predicate → Predicate → Predicate) : Prop :=
  ∀ {s : Scope} {p q : Predicate} {c : Sql.Condition}, (join p q).condition s = .ok c →
    ∃ a b, p.condition s = .ok a ∧ q.condition s = .ok b ∧ c.depth = 1 + max a.depth (2 + b.depth)

theorem deepens_and : Deepens .and := by
  intro s p q c compiled
  simp only [condition, bind_eq_ok, pure_eq_ok] at compiled
  obtain ⟨a, one, b, two, rfl⟩ := compiled
  exact ⟨a, b, one, two, rfl⟩

theorem deepens_or : Deepens .or := by
  intro s p q c compiled
  simp only [condition, bind_eq_ok, pure_eq_ok] at compiled
  obtain ⟨a, one, b, two, rfl⟩ := compiled
  exact ⟨a, b, one, two, rfl⟩

theorem depth_foldl (deepens : Deepens join) {first : Predicate} {rest : List Predicate} {n : Nat} (start : d + 2 ≤ n)
    (own : ∀ c, first.condition s = .ok c → c.depth ≤ n)
    (each : ∀ e ∈ rest, ∀ c, e.condition s = .ok c → c.depth ≤ d) {c : Sql.Condition}
    (compiled : (rest.foldl join first).condition s = .ok c) : c.depth ≤ n + rest.length := by
  induction rest generalizing first n with
  | nil => exact own c compiled
  | cons next rest ih =>
    have grown : ∀ c, (join first next).condition s = .ok c → c.depth ≤ n + 1 := by
      intro c compiled
      obtain ⟨a, b, one, two, depth⟩ := deepens compiled
      have left := own a one
      have right := each next List.mem_cons_self b two
      omega
    have deep := ih (Nat.le_succ_of_le start) grown (fun e later => each e (List.mem_cons_of_mem _ later)) compiled
    rw [List.length_cons]
    omega

theorem depth_combined (deepens : Deepens join) {tests : List Predicate} {p : Predicate}
    (joined : combined join tests = some p) (each : ∀ e ∈ tests, ∀ c, e.condition s = .ok c → c.depth ≤ d)
    {c : Sql.Condition} (compiled : p.condition s = .ok c) : c.depth ≤ d + 1 + tests.length := by
  cases tests with
  | nil => cases joined
  | cons first rest =>
    obtain rfl := Option.some.inj joined
    have own : ∀ c, first.condition s = .ok c → c.depth ≤ d + 2 := fun c one =>
      Nat.le_add_right_of_le (each first List.mem_cons_self c one)
    have deep := depth_foldl deepens (Nat.le_refl _) own (fun e later => each e (List.mem_cons_of_mem _ later)) compiled
    rw [List.length_cons]
    omega

theorem four_le_depth (c : Sql.Condition) : 4 ≤ c.depth := by
  cases c with
  | constant | value => exact Nat.le_refl 4
  | columns => exact Nat.le_add_right 4 2
  | null | member | glob =>
    simp only [Sql.Condition.depth]
    split <;> decide
  | and left right | or left right =>
    have inner := four_le_depth right
    simp only [Sql.Condition.depth]
    omega
  | not inner => exact Nat.le_add_left_of_le (four_le_depth inner)

theorem depth_le_foldl (deepens : Deepens join) {first : Predicate} {rest : List Predicate} {c : Sql.Condition}
    (compiled : (rest.foldl join first).condition s = .ok c) :
    ∃ a, first.condition s = .ok a ∧ a.depth + rest.length ≤ c.depth := by
  induction rest generalizing first with
  | nil => exact ⟨c, compiled, Nat.le_refl _⟩
  | cons next rest ih =>
    obtain ⟨joined, made, least⟩ := ih compiled
    obtain ⟨a, b, one, -, depth⟩ := deepens made
    refine ⟨a, one, ?_⟩
    rw [List.length_cons]
    omega

theorem length_le_depth (deepens : Deepens join) {tests : List Predicate} {p : Predicate}
    (joined : combined join tests = some p) (several : 2 ≤ tests.length) {c : Sql.Condition}
    (compiled : p.condition s = .ok c) : 5 + tests.length ≤ c.depth := by
  match tests, joined, several with
  | first :: next :: rest, joined, _ =>
    obtain rfl := Option.some.inj joined
    have joins : (rest.foldl join (join first next)).condition s = .ok c := compiled
    obtain ⟨start, made, least⟩ := depth_le_foldl deepens joins
    obtain ⟨a, b, -, -, depth⟩ := deepens made
    have leaf := four_le_depth b
    simp only [List.length_cons]
    omega

end Depth

end Predicate

section Patterns

variable {s : Scope} {join : Predicate → Predicate → Predicate}

def Pattern.written (p : Pattern) : String :=
  p.kind.glob (if p.ignoreCase then Text.foldCase p.text else p.text)

namespace Predicate

def patterns : Predicate → List Pattern
  | .compare .. | .member .. => []
  | .pattern _ p => [p]
  | .and left right | .or left right => left.patterns ++ right.patterns
  | .not inner => inner.patterns

theorem compareWithValue_patterns {c : ColumnRef} {op : Comparison} {v : Value} {written : Sql.Condition}
    (compiled : compareWithValue s c op v = .ok written) : written.patterns = [] := by
  simp only [compareWithValue, bind_eq_ok] at compiled
  obtain ⟨column, -, rest⟩ := compiled
  split at rest
  · exact pure_eq_ok.1 rest ▸ rfl
  · exact pure_eq_ok.1 rest ▸ rfl
  · exact absurd rest throw_ne_ok
  · exact pure_eq_ok.1 rest ▸ rfl

theorem compareOperands_patterns {left right : Operand} {op : Comparison} {written : Sql.Condition}
    (compiled : compareOperands s left op right = .ok written) : written.patterns = [] := by
  unfold compareOperands at compiled
  split at compiled
  · cases compiled
  · cases compiled
  · simp only [bind_eq_ok, pure_eq_ok] at compiled
    obtain ⟨a, -, b, -, rfl⟩ := compiled
    rfl
  · exact compareWithValue_patterns compiled
  · exact compareWithValue_patterns compiled
  · cases compiled
  · cases compiled

theorem condition_patterns {p : Predicate} {written : Sql.Condition} (compiled : p.condition s = .ok written) :
    written.patterns = p.patterns.map Pattern.written := by
  induction p generalizing written with
  | compare left op right => exact compareOperands_patterns compiled
  | member c values negated =>
    simp only [condition, memberTest, bind_eq_ok] at compiled
    obtain ⟨column, -, rest⟩ := compiled
    split at rest <;> exact pure_eq_ok.1 rest ▸ rfl
  | pattern c p =>
    simp only [condition, patternTest, bind_eq_ok] at compiled
    obtain ⟨column, -, rest⟩ := compiled
    obtain rfl := pure_eq_ok.1 rest
    cases p.negated <;> rfl
  | and left right ihLeft ihRight | or left right ihLeft ihRight =>
    simp only [condition, bind_eq_ok, pure_eq_ok] at compiled
    obtain ⟨a, first, b, second, rfl⟩ := compiled
    rw [Sql.Condition.patterns, patterns, List.map_append, ihLeft first, ihRight second]
  | not inner ih =>
    simp only [condition, bind_eq_ok, pure_eq_ok] at compiled
    obtain ⟨a, first, rfl⟩ := compiled
    rw [Sql.Condition.patterns, patterns, ih first]

theorem matchable_condition {p : Predicate} {written : Sql.Condition} (compiled : p.condition s = .ok written)
    (short : ∀ e ∈ p.patterns, e.written.utf8ByteSize ≤ patternLimit) : Matchable written := by
  rw [Matchable, condition_patterns compiled]
  exact List.forall_mem_map.2 short

theorem matchable_of_none {p : Predicate} {written : Sql.Condition} (compiled : p.condition s = .ok written)
    (none : p.patterns = []) : Matchable written :=
  matchable_condition compiled fun _ member => absurd member (none ▸ List.not_mem_nil)

/-- Predicates without patterns have none when they are joined. -/
theorem patterns_combined (joins : ∀ p q, (join p q).patterns = p.patterns ++ q.patterns) {tests : List Predicate}
    {p : Predicate} (joined : combined join tests = some p) (each : ∀ e ∈ tests, e.patterns = []) : p.patterns = [] := by
  cases tests with
  | nil => cases joined
  | cons first rest =>
    obtain rfl := Option.some.inj joined
    obtain ⟨own, others⟩ := List.forall_mem_cons.1 each
    clear each joined
    induction rest generalizing first with
    | nil => exact own
    | cons next rest ih =>
      obtain ⟨second, others⟩ := List.forall_mem_cons.1 others
      refine ih (join first next) ?_ others
      rw [joins, own, second, List.append_nil]

theorem patterns_conjuncts {p : Predicate} (each : ∀ e ∈ p.conjuncts, e.patterns = []) : p.patterns = [] := by
  induction p with
  | and left right ihLeft ihRight =>
    rw [conjuncts, List.forall_mem_append] at each
    rw [patterns, ihLeft each.1, ihRight each.2, List.append_nil]
  | compare | member | pattern | or | not => exact each _ (List.mem_singleton_self _)

end Predicate

end Patterns

section Columns

variable {s : Scope}

/-- Columns that a scope finds for references. -/
def Scope.Finds (s : Scope) (c : Sql.ColumnName) : Prop :=
  ∃ ref : ColumnRef, s.resolve ref = .ok c

theorem columnsOf_append (left right : List Sql.Piece) :
    Sql.columnsOf (left ++ right) = Sql.columnsOf left ++ Sql.columnsOf right :=
  List.filterMap_append

theorem columnsOf_raw (text : String) : Sql.columnsOf [.raw text] = [] := rfl

theorem columnsOf_separated (separator : String) (parts : List (List Sql.Piece)) :
    Sql.columnsOf (Sql.Piece.separated separator parts) = parts.flatMap Sql.columnsOf := by
  induction parts with
  | nil => rfl
  | cons first parts ih =>
    cases parts with
    | nil => exact (List.append_nil _).symm
    | cons next rest =>
      show Sql.columnsOf (first ++ .raw separator :: Sql.Piece.separated separator (next :: rest)) = _
      rw [columnsOf_append, List.flatMap_cons, ← ih]
      rfl

theorem columnsOf_placeholders (values : List Value) :
    Sql.columnsOf (Sql.Piece.separated ", " (values.map fun v => [.bound v])) = [] := by
  rw [columnsOf_separated, List.flatMap_map]
  exact List.flatMap_eq_nil_iff.2 fun _ _ => rfl

def Operand.references : Operand → List ColumnRef
  | .column c => [c]
  | .value _ | .list _ => []

def Predicate.references : Predicate → List ColumnRef
  | .compare left _ right => left.references ++ right.references
  | .member _ [] _ => []
  | .member c (_ :: _) _ => [c]
  | .pattern c _ => [c]
  | .and left right | .or left right => left.references ++ right.references
  | .not inner => inner.references

def Scope.Resolves (s : Scope) : List ColumnRef → List Sql.ColumnName → Prop :=
  List.Forall₂ fun ref column => s.resolve ref = .ok column

theorem Scope.Resolves.single {c : ColumnRef} {column : Sql.ColumnName} (found : s.resolve c = .ok column) :
    s.Resolves [c] [column] :=
  .cons found .nil

namespace Predicate

theorem compareWithValue_references {c : ColumnRef} {op : Comparison} {v : Value} {written : Sql.Condition}
    (compiled : compareWithValue s c op v = .ok written) : s.Resolves [c] (Sql.columnsOf written.pieces) := by
  simp only [compareWithValue, bind_eq_ok] at compiled
  obtain ⟨column, found, rest⟩ := compiled
  have only : Sql.columnsOf written.pieces = [column] := by
    split at rest
    · obtain rfl := pure_eq_ok.1 rest
      rfl
    · obtain rfl := pure_eq_ok.1 rest
      rfl
    · exact absurd rest throw_ne_ok
    · obtain rfl := pure_eq_ok.1 rest
      rfl
  rw [only]
  exact .single found

theorem compareOperands_references {left right : Operand} {op : Comparison} {written : Sql.Condition}
    (compiled : compareOperands s left op right = .ok written) :
    s.Resolves (left.references ++ right.references) (Sql.columnsOf written.pieces) := by
  unfold compareOperands at compiled
  split at compiled
  · cases compiled
  · cases compiled
  · simp only [bind_eq_ok, pure_eq_ok] at compiled
    obtain ⟨a, first, b, second, rfl⟩ := compiled
    exact .cons first (.cons second .nil)
  · exact compareWithValue_references compiled
  · exact compareWithValue_references compiled
  · cases compiled
  · cases compiled

/-- The columns that a condition names are those that its predicate's references resolve to, in their order. -/
theorem condition_references {p : Predicate} {written : Sql.Condition} (compiled : p.condition s = .ok written) :
    s.Resolves p.references (Sql.columnsOf written.pieces) := by
  induction p generalizing written with
  | compare left op right => exact compareOperands_references compiled
  | member c values negated =>
    simp only [condition, memberTest, bind_eq_ok] at compiled
    obtain ⟨column, found, rest⟩ := compiled
    cases values with
    | nil =>
      obtain rfl := pure_eq_ok.1 rest
      cases negated <;> exact .nil
    | cons v values =>
      obtain rfl := pure_eq_ok.1 rest
      simp only [Sql.Condition.pieces, columnsOf_append, columnsOf_placeholders]
      exact .single found
  | pattern c p =>
    simp only [condition, patternTest, bind_eq_ok] at compiled
    obtain ⟨column, found, rest⟩ := compiled
    obtain rfl := pure_eq_ok.1 rest
    cases p.negated <;> exact .single found
  | and left right ihLeft ihRight | or left right ihLeft ihRight =>
    simp only [condition, bind_eq_ok, pure_eq_ok] at compiled
    obtain ⟨a, first, b, second, rfl⟩ := compiled
    simp only [Sql.Condition.pieces, columnsOf_append, columnsOf_raw, List.nil_append, List.append_nil]
    exact List.rel_append (ihLeft first) (ihRight second)
  | not inner ih =>
    simp only [condition, bind_eq_ok, pure_eq_ok] at compiled
    obtain ⟨a, first, rfl⟩ := compiled
    simp only [Sql.Condition.pieces, columnsOf_append, columnsOf_raw, List.nil_append, List.append_nil]
    exact ih first

theorem condition_columns {p : Predicate} {written : Sql.Condition} (compiled : p.condition s = .ok written) :
    ∀ column ∈ Sql.columnsOf written.pieces, s.Finds column := by
  intro column named
  obtain ⟨i, here⟩ := List.getElem?_of_mem named
  obtain ⟨ref, -, found⟩ := forall₂_getElem? (condition_references compiled).flip here
  exact ⟨ref, found⟩

end Predicate

end Columns

end RecordMapper
