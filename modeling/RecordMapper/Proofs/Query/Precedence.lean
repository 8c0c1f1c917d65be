import RecordMapper.Proofs.Query.Layout
import RecordMapper.Proofs.Query.Scoping
import RecordMapper.Proofs.Store.Sameness

namespace RecordMapper

open RecordMapper.Sql

namespace Store

variable {α β : Type} {value : α → ColumnName → Value} {order : List Sql.OrderTerm} {a b : α}

/-- Whether `a` may stand before `b`, by the first term in which their values differ. -/
def precedes (value : α → ColumnName → Value) : List Sql.OrderTerm → α → α → Bool
  | [], _, _ => true
  | term :: rest, a, b =>
    match compareValues (value a term.column) (value b term.column) with
    | .eq => precedes value rest a b
    | .lt => !term.descending
    | .gt => term.descending

/-- On assignments of rows this is the order that the engine brings them in. -/
theorem precedes_value (order : List Sql.OrderTerm) (a b : Bindings) :
    precedes Bindings.value order a b = inOrder order a b := by
  induction order with
  | nil => rfl
  | cons term rest ih =>
    unfold precedes inOrder
    cases compareValues (a.value term.column) (b.value term.column) with
    | eq => exact ih
    | lt => rfl
    | gt => rfl

theorem compareValues_self (v : Value) : compareValues v v = .eq := by
  simpa [sameValue] using sameValue_of_normal (Eq.refl v.normal)

theorem precedes_congr {value' : β → ColumnName → Value} {a' b' : β}
    (first : ∀ t ∈ order, value a t.column = value' a' t.column)
    (second : ∀ t ∈ order, value b t.column = value' b' t.column) :
    precedes value order a b = precedes value' order a' b' := by
  induction order with
  | nil => rfl
  | cons term rest ih =>
    rw [List.forall_mem_cons] at first second
    rw [precedes, precedes, first.1, second.1, ih first.2 second.2]

theorem precedes_filter (keep : Sql.OrderTerm → Bool)
    (equal : ∀ t ∈ order, keep t = false → value a t.column = value b t.column) :
    precedes value (order.filter keep) a b = precedes value order a b := by
  induction order with
  | nil => rfl
  | cons term rest ih =>
    rw [List.forall_mem_cons] at equal
    by_cases kept : keep term = true
    · rw [List.filter_cons_of_pos kept, precedes, precedes, ih equal.2]
    · rw [List.filter_cons_of_neg kept, ih equal.2, precedes, equal.1 (Bool.not_eq_true _ ▸ kept), compareValues_self]

theorem precedes_of_append {others : List Sql.OrderTerm} (before : precedes value (order ++ others) a b = true) :
    precedes value order a b = true := by
  induction order with
  | nil => rfl
  | cons term rest ih =>
    rw [List.cons_append, precedes] at before
    rw [precedes]
    split at before
    · exact ih before
    · exact before
    · exact before

end Store

def valueUnder (columns : List ColumnName) (row : List Value) (c : ColumnName) : Value :=
  row.getD (columns.idxOf c) .null

theorem valueUnder_part {columns own : List ColumnName} {start length : Nat} (distinct : columns.Nodup)
    (placed : (columns.drop start).take length = own) {c : ColumnName} (listed : c ∈ own) (row : List Value) :
    valueUnder own (part row start length) c = valueUnder columns row c := by
  have here : own[own.idxOf c]? = some c := List.getElem?_idxOf listed
  have inside : own.idxOf c < own.length := List.idxOf_lt_length_of_mem listed
  have taken : own.length ≤ length := placed ▸ List.length_take_le _ _
  have short : own.idxOf c < length := Nat.lt_of_lt_of_le inside taken
  have there : columns[start + own.idxOf c]? = some c := by
    rw [← List.getElem?_drop, ← List.getElem?_take_of_lt short, placed, here]
  have place : columns.idxOf c = start + own.idxOf c := by
    obtain ⟨bound, same⟩ := List.getElem?_eq_some_iff.1 there
    have found := distinct.idxOf_getElem _ bound
    rwa [same] at found
  rw [valueUnder, valueUnder, place, List.getD_eq_getElem?_getD, List.getD_eq_getElem?_getD, part,
    List.getElem?_take_of_lt short, List.getElem?_drop]

def SortedUnder (columns : List ColumnName) (order : List Sql.OrderTerm) (rows : List (List Value)) : Prop :=
  rows.Pairwise fun a b => Store.precedes (valueUnder columns) order a b = true

def ScopedTable.Sorted (e : ScopedTable) (order : List Sql.OrderTerm) (parts : List (List Value)) : Prop :=
  SortedUnder e.listed (order.filter fun t => t.column.label == e.label) parts

section Terms

/-- Terms on columns of the root come first, then such on columns of children. -/
def Plan.RootFirst (p : Plan) (order : List Sql.OrderTerm) : Prop :=
  ∃ roots children, order = roots ++ children ∧
    (∀ t ∈ roots, t.column ∈ ScopedTable.listed ⟨rootLabel, p.root⟩) ∧
    ∀ t ∈ children, ∃ i j, p.joins[i]? = some j ∧ t.column ∈ ScopedTable.listed ⟨Join.childLabel i, j.child⟩

theorem ScopedTable.label_of_listed {e : ScopedTable} {c : ColumnName} (listed : c ∈ e.listed) : c.label = e.label := by
  obtain ⟨name, -, rfl⟩ := List.mem_map.1 listed
  rfl

theorem childLabel_inj {i k : Nat} (same : Join.childLabel i = Join.childLabel k) : i = k := by
  have number := numeral_inj ((String.append_right_inj "t").1 same)
  omega

theorem childLabel_ne_rootLabel (i : Nat) : Join.childLabel i ≠ rootLabel :=
  fun same => not_labelFrom_root 0 ⟨i, Nat.zero_le i, .inl same.symm⟩

variable {p : Plan} {order : List Sql.OrderTerm} {t : Sql.OrderTerm}

theorem Plan.RootFirst.listed (first : p.RootFirst order) (member : t ∈ order) :
    t.column ∈ ScopedTable.listed ⟨rootLabel, p.root⟩ ∨
      ∃ i j, p.joins[i]? = some j ∧ t.column ∈ ScopedTable.listed ⟨Join.childLabel i, j.child⟩ := by
  obtain ⟨roots, children, rfl, own, others⟩ := first
  exact (List.mem_append.1 member).imp (own t) (others t)

theorem Plan.RootFirst.listed_root (first : p.RootFirst order) (member : t ∈ order) (label : t.column.label = rootLabel) :
    t.column ∈ ScopedTable.listed ⟨rootLabel, p.root⟩ := by
  rcases first.listed member with listed | ⟨i, j, -, listed⟩
  · exact listed
  · exact absurd ((ScopedTable.label_of_listed listed).symm.trans label) (childLabel_ne_rootLabel i)

theorem Plan.RootFirst.listed_child (first : p.RootFirst order) (member : t ∈ order) {i : Nat} {j : Join}
    (here : p.joins[i]? = some j) (label : t.column.label = Join.childLabel i) :
    t.column ∈ ScopedTable.listed ⟨Join.childLabel i, j.child⟩ := by
  rcases first.listed member with listed | ⟨k, other, there, listed⟩
  · exact absurd (label.symm.trans (ScopedTable.label_of_listed listed)) (childLabel_ne_rootLabel i)
  · obtain rfl := childLabel_inj (label.symm.trans (ScopedTable.label_of_listed listed))
    obtain rfl := Option.some.inj (here.symm.trans there)
    exact listed

theorem Plan.RootFirst.begins (first : p.RootFirst order) :
    ∃ others, order = (order.filter fun t => t.column.label == rootLabel) ++ others := by
  obtain ⟨roots, children, rfl, own, others⟩ := first
  refine ⟨children, ?_⟩
  have kept : (roots.filter fun t => t.column.label == rootLabel) = roots := by
    rw [List.filter_eq_self]
    intro t member
    exact beq_iff_eq.2 (ScopedTable.label_of_listed (own t member))
  have left : (children.filter fun t => t.column.label == rootLabel) = [] := by
    rw [List.filter_eq_nil_iff]
    intro t member same
    obtain ⟨i, j, -, listed⟩ := others t member
    exact childLabel_ne_rootLabel i ((ScopedTable.label_of_listed listed).symm.trans (beq_iff_eq.1 same))
  rw [List.filter_append, kept, left, List.append_nil]

theorem Scope.Denotes.listed {s : Scope} {ref : ColumnRef} {c : ColumnName} {e : ScopedTable} (denotes : s.Denotes ref c e) :
    c ∈ e.listed := by
  have name := (e.table.hasColumn_iff c.name).1 denotes.column
  have column : c = ⟨e.label, c.name⟩ := congrArg (ColumnName.mk · c.name) denotes.label
  rw [column]
  exact List.mem_map_of_mem name

theorem mem_positioned_child (start : Nat) {joins : List Join} {i : Nat} {j : Join} (here : joins[i]? = some j) :
    (⟨Join.childLabel (start + i), j.child⟩ : ScopedTable) ∈ positioned Join.entries start joins := by
  induction joins generalizing start i with
  | nil => cases here
  | cons first joins ih =>
    rw [positioned, List.mem_append]
    cases i with
    | zero =>
      obtain rfl := Option.some.inj here
      left
      rw [Join.entries]
      cases first.pivot? with
      | none => exact List.mem_cons_self
      | some pivot => exact List.mem_cons_of_mem _ List.mem_cons_self
    | succ i =>
      right
      have later := ih (start + 1) here
      rwa [Nat.add_assoc, Nat.add_comm 1 i] at later

theorem Plan.resolve_of_mem {terms : List OrderTerm}
    (made : (terms.mapM fun term => do
      let column ← p.scope.resolve term.column
      pure (⟨column, term.descending⟩ : Sql.OrderTerm)) = .ok order) (member : t ∈ order) :
    ∃ term ∈ terms, p.scope.resolve term.column = .ok t.column := by
  obtain ⟨i, here⟩ := List.getElem?_of_mem member
  obtain ⟨term, given, made⟩ := forall₂_getElem? (mapM_eq_ok.1 made).flip here
  simp only [bind_eq_ok, pure_eq_ok] at made
  obtain ⟨column, found, rfl⟩ := made
  exact ⟨term, List.mem_of_getElem? given, found⟩

namespace Query

variable {g : ShapeGraph} {s : Fin g.size} {q : Query g s}

def NamesRootFirst (q : Query g s) : Prop :=
  ∃ roots children, q.plan.order = roots ++ children ∧ (∀ t ∈ roots, t.column.table = some q.plan.root.name) ∧
    ∀ t ∈ children, ∃ j ∈ q.plan.joins, t.column.table = some j.child.name

theorem NamesRootFirst.push {after : Query g s} {j : Join} {l : Loader g.size} (names : q.NamesRootFirst)
    (pushed : q.push j l = .ok after) : after.NamesRootFirst := by
  obtain ⟨-, -, rfl⟩ := push_eq_ok pushed
  obtain ⟨roots, children, order, own, others⟩ := names
  refine ⟨roots, children, order, own, fun t member => ?_⟩
  obtain ⟨k, known, table⟩ := others t member
  exact ⟨k, List.mem_append_left _ known, table⟩

/-- A further term is on the root as long as nothing is joined, and on the child joined last from then on. -/
theorem NamesRootFirst.ordered (names : q.NamesRootFirst) (column : String) (descending : Bool) :
    (q.order column descending).NamesRootFirst := by
  obtain ⟨roots, children, order, own, others⟩ := names
  unfold NamesRootFirst Query.order orderTable
  rcases last : q.plan.joins.getLast? with _ | j
  · have unjoined : q.plan.joins = [] := List.getLast?_eq_none_iff.1 last
    have none : children = [] := by
      rw [List.eq_nil_iff_forall_not_mem]
      intro t member
      obtain ⟨j, known, -⟩ := others t member
      rw [unjoined] at known
      cases known
    refine ⟨roots ++ [⟨⟨some q.plan.root.name, column⟩, descending⟩], [], ?_, ?_, ?_⟩
    · rw [order, none, List.append_nil, List.append_nil]
    · simpa [or_imp, forall_and] using own
    · simp
  · refine ⟨roots, children ++ [⟨⟨some j.child.name, column⟩, descending⟩], ?_, own, ?_⟩
    · rw [order, List.append_assoc]
    · intro t member
      rcases List.mem_append.1 member with before | new
      · exact others t before
      · rw [List.mem_singleton.1 new]
        exact ⟨j, List.mem_of_getLast? last, rfl⟩

theorem Built.namesRootFirst (built : q.Built) : q.NamesRootFirst := by
  induction built with
  | table described => exact ⟨[], [], rfl, by simp, by simp⟩
  | keyedBy described => exact ⟨[], [], rfl, by simp, by simp⟩
  | filter p built ih => exact ih
  | order column descending built ih => exact ih.ordered column descending
  | limit limit skip built ih => exact ih
  | skip skip built ih => exact ih
  | join built declared made ih =>
    simp only [Query.join, bind_eq_ok] at made
    obtain ⟨child, -, pushed⟩ := made
    exact ih.push pushed
  | joinPivot built declared made ih =>
    simp only [Query.joinPivot, bind_eq_ok] at made
    obtain ⟨between, -, child, -, pushed⟩ := made
    exact ih.push pushed

theorem Built.rootFirst (built : q.Built) (made : q.plan.orderTerms = .ok order) :
    q.plan.RootFirst order := by
  obtain ⟨roots, children, names, own, others⟩ := built.namesRootFirst
  rw [Plan.orderTerms, names, List.mapM_append] at made
  simp only [bind_eq_ok, pure_eq_ok] at made
  obtain ⟨first, madeFirst, second, madeSecond, rfl⟩ := made
  -- A table's name stands for its one entry in scope, so the column found is one of that entry's.
  have listed {term : OrderTerm} {c : ColumnName} {e : ScopedTable} (found : q.plan.scope.resolve term.column = .ok c)
      (entry : e ∈ q.plan.scope.entries) (named : term.column.table = some e.table.name) : c ∈ e.listed := by
    obtain ⟨other, denotes⟩ := Scope.denotes_of_resolve built.fits.tables found
    obtain rfl := (denotes.named _ named).2 e entry rfl
    exact denotes.listed
  refine ⟨first, second, rfl, ?_, ?_⟩
  · intro t member
    obtain ⟨term, given, found⟩ := Plan.resolve_of_mem madeFirst member
    exact listed found List.mem_cons_self (own term given)
  · intro t member
    obtain ⟨term, given, found⟩ := Plan.resolve_of_mem madeSecond member
    obtain ⟨j, known, named⟩ := others term given
    obtain ⟨i, here⟩ := List.getElem?_of_mem known
    have entry := mem_positioned_child 0 here
    rw [Nat.zero_add] at entry
    exact ⟨i, j, here, listed found (List.mem_cons_of_mem _ entry) named⟩

end Query

end Terms

end RecordMapper
