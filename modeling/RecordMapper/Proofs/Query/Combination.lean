import RecordMapper.Proofs.Predicate.Meaning
import RecordMapper.Proofs.Query.Labels
import RecordMapper.Store.Reading

namespace RecordMapper

open RecordMapper.Store

namespace Store.Content

variable (c : Content)

/-- What is stored under a table's name; nothing stored counts as no rows. -/
def stored (t : Table) : StoredTable :=
  (c.table? t.name).getD ⟨t.name, [], []⟩

def place (label : String) (t : Table) (row : StoredRow) : Placed :=
  ⟨⟨label, t⟩, c.stored t, row⟩

def cell (t : Table) (row : StoredRow) (name : String) : Cell :=
  (c.place "" t row).cell name

def valuesOf (t : Table) (row : StoredRow) : List Value :=
  t.columnNames.map fun name => (c.cell t row name).value

end Store.Content

def Store.Cell.Equals (a b : Cell) : Prop :=
  (compareCells .eq a b).holds = true

structure Match where
  pivot : Option StoredRow
  child : StoredRow

/-- A row of the root, and what each join adds to it. -/
structure Combination where
  root : StoredRow
  matched : List Match

section Combinations

variable (c : Content)

def Join.Links (root : Table) (row : StoredRow) (j : Join) (m : Match) : Prop :=
  m.child ∈ (c.stored j.child).rows ∧
    match j.kind with
    | .direct parentKey childKey =>
      m.pivot = none ∧ (c.cell root row parentKey).Equals (c.cell j.child m.child childKey)
    | .pivot pivot parentKey pivotParentKey childKey pivotChildKey =>
      ∃ between ∈ (c.stored pivot).rows, m.pivot = some between ∧
        (c.cell root row parentKey).Equals (c.cell pivot between pivotParentKey) ∧
        (c.cell pivot between pivotChildKey).Equals (c.cell j.child m.child childKey)

def Match.placed (position : Nat) (j : Join) (m : Match) : List Placed :=
  match j.pivot?, m.pivot with
  | some pivot, some between =>
    [c.place (Join.pivotLabel position) pivot between, c.place (Join.childLabel position) j.child m.child]
  | _, _ => [c.place (Join.childLabel position) j.child m.child]

def placedFrom (position : Nat) : List Join → List Match → List Placed
  | j :: joins, m :: matched => m.placed c position j ++ placedFrom (position + 1) joins matched
  | _, _ => []

def Combination.placed (p : Plan) (k : Combination) : List Placed :=
  c.place Sql.rootLabel p.root k.root :: placedFrom c 0 p.joins k.matched

/-- Whether a combination's rows are stored, linked, and pass the filter. -/
structure Combination.Satisfies (p : Plan) (k : Combination) : Prop where
  root : k.root ∈ (c.stored p.root).rows
  linked : List.Forall₂ (Join.Links c p.root k.root) p.joins k.matched
  filter : ∀ f, p.filter = some f → f.truth (k.placed c p) = some true

end Combinations

section Cells

variable {c : Content}

theorem cell_of_find? {b : Bindings} {label name : String} {t : Table} {row : StoredRow}
    (found : List.find? (fun e => e.label == label) b = some (c.place label t row).binding) :
    Bindings.cell b ⟨label, name⟩ = c.cell t row name := by
  rw [Bindings.cell, found]
  rfl

theorem cell_append {b rest : Bindings} {label name : String} {t : Table} {row : StoredRow}
    (new : ∀ e ∈ b, e.label ≠ label) :
    Bindings.cell (b ++ (c.place label t row).binding :: rest) ⟨label, name⟩ = c.cell t row name := by
  apply cell_of_find?
  have none : List.find? (fun e : Binding => e.label == label) b = none := by
    rw [List.find?_eq_none]
    intro e member same
    exact new e member (eq_of_beq same)
  rw [List.find?_append, none, Option.none_or, List.find?_cons_of_pos]
  exact beq_self_eq_true label

structure Rooted (c : Content) (root : Table) (start : Nat) (row : StoredRow) (b : Bindings) : Prop where
  root : b.head? = some (c.place Sql.rootLabel root row).binding
  fresh : ∀ e ∈ b, ¬LabelFrom start e.label

variable {root : Table} {start : Nat} {row : StoredRow} {b : Bindings}

theorem Rooted.unique {other : StoredRow} (rooted : Rooted c root start row b)
    (same : Rooted c root start other b) : row = other := by
  have first := rooted.root.symm.trans same.root
  exact congrArg Binding.row (Option.some.inj first)

theorem Rooted.cell (rooted : Rooted c root start row b) (rest : Bindings) (name : String) :
    Bindings.cell (b ++ rest) ⟨Sql.rootLabel, name⟩ = c.cell root row name := by
  have first := rooted.root
  cases b with
  | nil => cases first
  | cons e b =>
    cases first
    exact cell_of_find? (List.find?_cons_of_pos (beq_self_eq_true Sql.rootLabel))

theorem Rooted.child (rooted : Rooted c root start row b) :
    ∀ e ∈ b, e.label ≠ Join.childLabel start := by
  intro e member same
  exact rooted.fresh e member ⟨start, Nat.le_refl _, .inl same⟩

theorem Rooted.pivot (rooted : Rooted c root start row b) :
    ∀ e ∈ b, e.label ≠ Join.pivotLabel start := by
  intro e member same
  exact rooted.fresh e member ⟨start, Nat.le_refl _, .inr same⟩

theorem Rooted.append (rooted : Rooted c root start row b) (j : Join) (m : Match) :
    Rooted c root (start + 1) row (b ++ (m.placed c start j).map Placed.binding) := by
  refine ⟨by rw [List.head?_append, rooted.root]; rfl, ?_⟩
  intro e member
  rcases List.mem_append.1 member with before | added
  · exact fun later => rooted.fresh e before (later.mono (Nat.le_succ _))
  · obtain ⟨p, place, rfl⟩ := List.mem_map.1 added
    unfold Match.placed at place
    split at place
    · rcases List.mem_pair.1 place with rfl | rfl
      · exact not_labelFrom_pivot start
      · exact not_labelFrom_child start
    · rw [List.mem_singleton] at place
      subst place
      exact not_labelFrom_child start

end Cells

section Evaluation

variable {c : Content} {root : Table} {start : Nat} {bs : List Bindings} {b : Bindings}

theorem mem_extend {t : Table} {label : String} {left right : Sql.ColumnName} :
    b ∈ extend c bs ⟨⟨t.name, label⟩, left, right⟩ ↔
      ∃ before ∈ bs, ∃ row ∈ (c.stored t).rows, b = before ++ [(c.place label t row).binding] ∧
        (b.cell left).Equals (b.cell right) := by
  unfold extend Content.stored Content.place Content.stored
  rcases c.table? t.name with _ | stored
  · simp
  · simp only [List.mem_flatMap, List.mem_filter, List.mem_map, bindingsOf, Option.getD_some]
    constructor
    · rintro ⟨before, known, ⟨e, ⟨row, member, rfl⟩, rfl⟩, equal⟩
      exact ⟨before, known, row, member, rfl, equal⟩
    · rintro ⟨before, known, row, member, rfl, equal⟩
      exact ⟨before, known, ⟨_, ⟨row, member, rfl⟩, rfl⟩, equal⟩

theorem foldl_extend_nil (links : List Sql.Link) : links.foldl (extend c) [] = [] := by
  induction links with
  | nil => rfl
  | cons link links ih =>
    have none : extend c [] link = [] := by
      unfold extend
      split <;> rfl
    rw [List.foldl_cons, none, ih]

theorem mem_links_direct {relation parentKey childKey : String} {child : Table}
    (rooted : ∀ b ∈ bs, ∃ row, Rooted c root start row b) :
    b ∈ (Join.links start ⟨relation, child, .direct parentKey childKey⟩).foldl (extend c) bs ↔
      ∃ before ∈ bs, ∃ row m, Rooted c root start row before ∧
        Join.Links c root row ⟨relation, child, .direct parentKey childKey⟩ m ∧
        b = before ++ (m.placed c start ⟨relation, child, .direct parentKey childKey⟩).map Placed.binding := by
  simp only [Join.links, List.foldl_cons, List.foldl_nil, mem_extend]
  constructor
  · rintro ⟨before, known, child, member, rfl, equal⟩
    obtain ⟨row, stands⟩ := rooted before known
    rw [stands.cell, cell_append stands.child] at equal
    exact ⟨before, known, row, ⟨none, child⟩, stands, ⟨member, rfl, equal⟩, rfl⟩
  · rintro ⟨before, known, row, ⟨pivot, child⟩, stands, ⟨member, none, equal⟩, rfl⟩
    refine ⟨before, known, child, member, rfl, ?_⟩
    rw [show Match.placed c start _ ⟨pivot, child⟩ = [c.place (Join.childLabel start) _ child] from rfl,
      List.map_singleton, stands.cell, cell_append stands.child]
    exact equal

theorem mem_links_pivot {relation parentKey pivotParentKey childKey pivotChildKey : String} {pivot child : Table}
    (rooted : ∀ b ∈ bs, ∃ row, Rooted c root start row b) :
    b ∈ (Join.links start ⟨relation, child, .pivot pivot parentKey pivotParentKey childKey pivotChildKey⟩).foldl
        (extend c) bs ↔
      ∃ before ∈ bs, ∃ row m, Rooted c root start row before ∧
        Join.Links c root row ⟨relation, child, .pivot pivot parentKey pivotParentKey childKey pivotChildKey⟩ m ∧
        b = before ++ (m.placed c start
          ⟨relation, child, .pivot pivot parentKey pivotParentKey childKey pivotChildKey⟩).map Placed.binding := by
  have apart : ∀ {before : Bindings} {between row : StoredRow}, Rooted c root start row before →
      ∀ e ∈ before ++ [(c.place (Join.pivotLabel start) pivot between).binding], e.label ≠ Join.childLabel start := by
    intro before between row stands e member
    rcases List.mem_append.1 member with first | last
    · exact stands.child e first
    · rw [List.mem_singleton.1 last]
      exact (childLabel_ne_pivotLabel _ _).symm
  simp only [Join.links, List.foldl_cons, List.foldl_nil, mem_extend]
  constructor
  · rintro ⟨_, ⟨before, known, between, linked, rfl, first⟩, child, member, rfl, second⟩
    obtain ⟨row, stands⟩ := rooted before known
    rw [stands.cell, cell_append stands.pivot] at first
    rw [cell_append (apart stands), List.append_assoc, List.singleton_append, cell_append stands.pivot] at second
    refine ⟨before, known, row, ⟨some between, child⟩, stands, ⟨member, between, linked, rfl, first, second⟩, ?_⟩
    rw [List.append_assoc]
    rfl
  · rintro ⟨before, known, row, ⟨_, row'⟩, stands, ⟨member, between, linked, rfl, first, second⟩, rfl⟩
    have shape : before ++ (Match.placed c start
          ⟨relation, child, .pivot pivot parentKey pivotParentKey childKey pivotChildKey⟩
          ⟨some between, row'⟩).map Placed.binding =
        (before ++ [(c.place (Join.pivotLabel start) pivot between).binding]) ++
          [(c.place (Join.childLabel start) child row').binding] := by
      rw [List.append_assoc]
      rfl
    rw [shape]
    refine ⟨_, ⟨before, known, between, linked, rfl, ?_⟩, row', member, rfl, ?_⟩
    · rw [stands.cell, cell_append stands.pivot]
      exact first
    · rw [cell_append (apart stands), List.append_assoc, List.singleton_append, cell_append stands.pivot]
      exact second

theorem mem_links (j : Join) (rooted : ∀ b ∈ bs, ∃ row, Rooted c root start row b) :
    b ∈ (j.links start).foldl (extend c) bs ↔
      ∃ before ∈ bs, ∃ row m, Rooted c root start row before ∧ j.Links c root row m ∧
        b = before ++ (m.placed c start j).map Placed.binding := by
  rcases j with ⟨relation, child, _ | _⟩
  · exact mem_links_direct rooted
  · exact mem_links_pivot rooted

theorem mem_positioned_links (joins : List Join) (rooted : ∀ b ∈ bs, ∃ row, Rooted c root start row b) :
    b ∈ (positioned Join.links start joins).foldl (extend c) bs ↔
      ∃ before ∈ bs, ∃ row matched, Rooted c root start row before ∧
        List.Forall₂ (Join.Links c root row) joins matched ∧
        b = before ++ (placedFrom c start joins matched).map Placed.binding := by
  induction joins generalizing start bs with
  | nil =>
    rw [positioned, List.foldl_nil]
    constructor
    · intro known
      obtain ⟨row, stands⟩ := rooted b known
      exact ⟨b, known, row, [], stands, .nil, by simp [placedFrom]⟩
    · rintro ⟨before, known, row, matched, -, linked, rfl⟩
      cases linked
      simpa [placedFrom] using known
  | cons j joins ih =>
    have stands : ∀ b ∈ (j.links start).foldl (extend c) bs, ∃ row, Rooted c root (start + 1) row b := by
      intro after member
      obtain ⟨before, -, row, m, stands, -, rfl⟩ := (mem_links j rooted).1 member
      exact ⟨row, stands.append j m⟩
    rw [positioned, List.foldl_append, ih stands]
    constructor
    · rintro ⟨_, known, row, matched, later, linked, rfl⟩
      obtain ⟨before, member, other, m, first, links, rfl⟩ := (mem_links j rooted).1 known
      obtain rfl := later.unique (first.append j m)
      refine ⟨before, member, row, m :: matched, first, .cons links linked, ?_⟩
      rw [placedFrom, List.map_append, List.append_assoc]
    · rintro ⟨before, member, row, matched, first, linked, rfl⟩
      cases linked with
      | cons links linked =>
        rename_i m matched
        refine ⟨_, (mem_links j rooted).2 ⟨before, member, row, m, first, links, rfl⟩, row, matched,
          first.append j m, linked, ?_⟩
        rw [placedFrom, List.map_append, List.append_assoc]

theorem placed_entries {row : StoredRow} {j : Join} {m : Match} (links : j.Links c root row m) (position : Nat) :
    (m.placed c position j).map Placed.entry = j.entries position := by
  rcases j with ⟨relation, child, _ | _⟩
  · rfl
  · obtain ⟨-, between, -, same, -⟩ := links
    rw [Match.placed, same]
    rfl

theorem placedFrom_entries {row : StoredRow} {joins : List Join} {matched : List Match}
    (linked : List.Forall₂ (Join.Links c root row) joins matched) (start : Nat) :
    (placedFrom c start joins matched).map Placed.entry = positioned Join.entries start joins := by
  induction linked generalizing start with
  | nil => rfl
  | cons links linked ih => rw [placedFrom, List.map_append, placed_entries links, ih, positioned]

variable {p : Plan} {k : Combination}

theorem Combination.placed_entries (linked : List.Forall₂ (Join.Links c p.root k.root) p.joins k.matched) :
    (k.placed c p).map Placed.entry = p.scope.entries := by
  rw [Combination.placed, List.map_cons, placedFrom_entries linked]
  rfl

theorem keeps_iff {condition : Option Sql.Condition} {placed : List Placed}
    (compiled : Predicate.conditionOf p.scope p.filter = .ok condition)
    (all : placed.map Placed.entry = p.scope.entries) :
    keeps (placed.map Placed.binding) condition = true ↔ ∀ f, p.filter = some f → f.truth placed = some true := by
  rcases filter : p.filter with _ | f
  · rw [filter] at compiled
    cases compiled
    simp [keeps]
  · rw [filter, Predicate.conditionOf] at compiled
    simp only [bind_eq_ok, pure_eq_ok] at compiled
    obtain ⟨written, compiled, rfl⟩ := compiled
    have truth := Predicate.truth_condition (nodup_labels p) all compiled
    simp [keeps, truth, Truth.holds]

/-- The statement of a plan is evaluated on the combinations that satisfy the plan. -/
theorem mem_combinations {rows : Sql.Rows} (compiled : p.rows = .ok rows) :
    b ∈ combinations c rows ↔ ∃ k : Combination, k.Satisfies c p ∧ b = (k.placed c p).map Placed.binding := by
  simp only [Plan.rows, bind_eq_ok, pure_eq_ok] at compiled
  obtain ⟨condition, compiled, rfl⟩ := compiled
  have rooted : ∀ root, Rooted c p.root 0 root [(c.place Sql.rootLabel p.root root).binding] := by
    refine fun root => ⟨rfl, fun e single => ?_⟩
    rw [List.mem_singleton.1 single]
    exact not_labelFrom_root 0
  have roots : ∀ b ∈ (c.stored p.root).rows.map fun row => [(c.place Sql.rootLabel p.root row).binding],
      ∃ row, Rooted c p.root 0 row b := by
    intro b member
    obtain ⟨row, -, rfl⟩ := List.mem_map.1 member
    exact ⟨row, rooted row⟩
  have evaluated : combinations c ⟨rootSource p.root, linksOf p.joins, condition⟩ =
      ((linksOf p.joins).foldl (extend c)
        ((c.stored p.root).rows.map fun row => [(c.place Sql.rootLabel p.root row).binding])).filter
          fun b => keeps b condition := by
    unfold combinations linkedRows Content.place Content.stored rootSource
    rcases c.table? p.root.name with _ | stored
    · simp [foldl_extend_nil]
    · simp [bindingsOf, Placed.binding, Function.comp_def]
  rw [evaluated, List.mem_filter, linksOf, mem_positioned_links p.joins roots]
  constructor
  · rintro ⟨⟨_, known, row, matched, stands, linked, rfl⟩, kept⟩
    obtain ⟨root, member, rfl⟩ := List.mem_map.1 known
    have same : root = row := congrArg Binding.row (Option.some.inj stands.root)
    subst same
    have all := Combination.placed_entries (k := ⟨root, matched⟩) linked
    exact ⟨⟨root, matched⟩, ⟨member, linked, (keeps_iff compiled all).1 kept⟩, rfl⟩
  · rintro ⟨⟨root, matched⟩, satisfies, rfl⟩
    have all := Combination.placed_entries satisfies.linked
    exact ⟨⟨_, List.mem_map_of_mem satisfies.root, root, matched, rooted root, satisfies.linked, rfl⟩,
      (keeps_iff compiled all).2 satisfies.filter⟩

end Evaluation

end RecordMapper
