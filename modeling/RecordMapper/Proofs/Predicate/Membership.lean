import RecordMapper.Proofs.Predicate.Meaning

namespace RecordMapper

open RecordMapper.Store

namespace ColumnRef

def equals (c : ColumnRef) (v : Value) : Predicate :=
  .compare (.column c) .eq (.value v)

def differs (c : ColumnRef) (v : Value) : Predicate :=
  .compare (.column c) .ne (.value v)

end ColumnRef

section Truths

theorem Truth.or_assoc (a b c : Truth) : (a.or b).or c = a.or (b.or c) := by
  rcases a with _ | _ | _ <;> rcases b with _ | _ | _ <;> rcases c with _ | _ | _ <;> rfl

theorem Truth.or_false (t : Truth) : t.or (some false) = t := by
  rcases t with _ | _ | _ <;> rfl

theorem Truth.foldl_or (t : Truth) (ts : List Truth) : ts.foldl Truth.or t = t.or (ts.foldr Truth.or (some false)) := by
  induction ts generalizing t with
  | nil => exact t.or_false.symm
  | cons next ts ih => rw [List.foldl_cons, ih, List.foldr_cons, or_assoc]

theorem Truth.eq_false_of_or {a b : Truth} (neither : a.or b = some false) : b = some false := by
  rcases a with _ | _ | _ <;> rcases b with _ | _ | _ <;> first | rfl | cases neither

theorem Truth.holds_not_of_ne {t : Truth} (other : t ≠ some false) : t.not.holds = false := by
  rcases t with _ | _ | _
  · rfl
  · exact absurd rfl other
  · rfl

theorem Truth.not_foldl_or (t : Truth) (ts : List Truth) :
    (ts.foldl Truth.or t).not = (ts.map Truth.not).foldl Truth.and t.not := by
  induction ts generalizing t with
  | nil => rfl
  | cons next ts ih => rw [List.foldl_cons, ih, List.map_cons, List.foldl_cons, not_or]

theorem memberTruth_eq (cell : Cell) (values : List Value) :
    memberTruth cell values = (values.map (compareCell .eq cell)).foldr Truth.or (some false) := by
  rw [memberTruth, List.foldr_map]

theorem compareCell_ne (cell : Cell) (v : Value) : compareCell .ne cell v = (compareCell .eq cell v).not := by
  unfold compareCell compareTruth
  split
  · rfl
  · cases compareValues _ _ <;> rfl

theorem compared_null (affinity : Affinity) : affinity.compared .null = .null := by
  cases affinity <;> rfl

theorem compareCell_null (op : Comparison) (cell : Cell) : compareCell op cell .null = none := by
  have bound : admitted .null = .null := rfl
  rw [compareCell, bound, compared_null, compareTruth, Value.isNull, Bool.or_true]
  rfl

theorem compareCell_absent {cell : Cell} (absent : cell.value = .null) (op : Comparison) (v : Value) :
    compareCell op cell v = none := by
  rw [compareCell, absent, compared_null, compareTruth, Value.isNull, Bool.true_or]
  rfl

theorem isNull_iff {v : Value} : v.isNull = true ↔ v = .null := by
  cases v <;> simp [Value.isNull]

theorem cellTruth_of_ne_null {v : Value} (valued : v ≠ .null) (cell : Cell) (op : Comparison) :
    cellTruth cell op v = compareCell op cell v := by
  cases v with
  | null => exact absurd rfl valued
  | integer n | real x | text t | blob bytes => cases op <;> rfl

theorem holds_compareCell (cell : Cell) (v : Value) :
    (compareCell .eq cell v).holds = ((cellTruth cell .eq v).holds && !cell.value.isNull) := by
  by_cases null : v = .null
  · subst null
    rw [compareCell_null, cellTruth]
    cases cell.value.isNull <;> rfl
  · rw [cellTruth_of_ne_null null]
    by_cases absent : cell.value = .null
    · rw [compareCell_absent absent]
      rfl
    · rw [Bool.eq_false_iff.2 (mt isNull_iff.1 absent), Bool.not_false, Bool.and_true]

theorem holds_memberTruth (cell : Cell) (values : List Value) :
    (memberTruth cell values).holds = values.any fun v => (compareCell .eq cell v).holds := by
  induction values with
  | nil => rfl
  | cons v values ih =>
    rw [memberTruth, List.foldr_cons, Truth.holds_or, List.any_cons]
    exact congrArg _ ih

/-- Nothing can be told not to be one of several values if a null is among them. -/
theorem holds_not_memberTruth {values : List Value} (null : .null ∈ values) (cell : Cell) :
    (memberTruth cell values).not.holds = false := by
  have least : memberTruth cell values ≠ some false := by
    induction values with
    | nil => cases null
    | cons v values ih =>
      have first : memberTruth cell (v :: values) = (compareCell .eq cell v).or (memberTruth cell values) := rfl
      rw [first]
      rcases List.mem_cons.1 null with rfl | later
      · rw [compareCell_null]
        rcases memberTruth cell values with _ | _ | _ <;> decide
      · exact mt Truth.eq_false_of_or (ih later)
  exact Truth.holds_not_of_ne least

end Truths

section Joined

def Predicate.truthIn (s : Scope) (b : Bindings) (p : Predicate) : Except Malformation Truth :=
  (p.condition s).map (conditionTruth b)

def Predicate.keepsIn (s : Scope) (b : Bindings) (p : Predicate) : Except Malformation Bool :=
  (p.truthIn s b).map Truth.holds

/-- A way to join predicates, and what it does to what they say. -/
structure Joins (join : Predicate → Predicate → Predicate) (meet : Truth → Truth → Truth) : Prop where
  truth : ∀ {s b p q t u}, p.truthIn s b = .ok t → q.truthIn s b = .ok u → (join p q).truthIn s b = .ok (meet t u)
  refused : ∀ {s b p q fault}, p.truthIn s b = .error fault → (join p q).truthIn s b = .error fault

variable {s : Scope} {b : Bindings} {join : Predicate → Predicate → Predicate} {meet : Truth → Truth → Truth}

theorem joins_or : Joins .or Truth.or where
  truth := by
    intro s b p q t u first second
    obtain ⟨a, one, rfl⟩ := map_eq_ok.1 first
    obtain ⟨a', two, rfl⟩ := map_eq_ok.1 second
    rw [Predicate.truthIn, Predicate.condition, one, two]
    rfl
  refused := by
    intro s b p q fault first
    rw [Predicate.truthIn, Predicate.condition, map_eq_error.1 first]
    rfl

theorem joins_and : Joins .and Truth.and where
  truth := by
    intro s b p q t u first second
    obtain ⟨a, one, rfl⟩ := map_eq_ok.1 first
    obtain ⟨a', two, rfl⟩ := map_eq_ok.1 second
    rw [Predicate.truthIn, Predicate.condition, one, two]
    rfl
  refused := by
    intro s b p q fault first
    rw [Predicate.truthIn, Predicate.condition, map_eq_error.1 first]
    rfl

namespace Joins

variable {α : Type} {f : α → Predicate} {said : α → Truth} {first : Predicate}

theorem truth_foldl (joins : Joins join meet) (each : ∀ a, (f a).truthIn s b = .ok (said a)) {t : Truth}
    (start : first.truthIn s b = .ok t) (rest : List α) :
    ((rest.map f).foldl join first).truthIn s b = .ok ((rest.map said).foldl meet t) := by
  induction rest generalizing first t with
  | nil => exact start
  | cons a rest ih => exact ih (joins.truth start (each a))

theorem refused_foldl (joins : Joins join meet) {fault : Malformation} (start : first.truthIn s b = .error fault)
    (rest : List Predicate) : (rest.foldl join first).truthIn s b = .error fault := by
  induction rest generalizing first with
  | nil => exact start
  | cons next rest ih => exact ih (joins.refused start)

end Joins

end Joined

section Membership

variable {s : Scope} {b : Bindings} {c : ColumnRef} {values : List Value} {p : Predicate}

theorem truthIn_comparison {op : Comparison} (equality : op = .eq ∨ op = .ne) (v : Value) :
    (Predicate.compare (.column c) op (.value v)).truthIn s b =
      (s.resolve c).map fun column => cellTruth (b.cell column) op v := by
  rw [Predicate.truthIn, Predicate.condition, Predicate.compareOperands, Predicate.compareWithValue]
  rcases s.resolve c with fault | column
  · rfl
  · have tested (negated : Bool) : conditionTruth b (.null column negated) =
        some ((b.cell column).value.isNull != negated) := rfl
    rcases equality with rfl | rfl
    · cases v with
      | null => exact congrArg Except.ok ((tested false).trans (by rw [Bool.bne_false]; rfl))
      | integer n | real x | text t | blob bytes => rfl
    · cases v with
      | null => exact congrArg Except.ok ((tested true).trans (by rw [Bool.bne_true]; rfl))
      | integer n | real x | text t | blob bytes => rfl

theorem truthIn_isIn (values : List Value) :
    (c.isIn values).truthIn s b = (s.resolve c).map fun column => memberTruth (b.cell column) values := by
  rw [Predicate.truthIn, ColumnRef.isIn, Predicate.condition, Predicate.memberTest]
  rcases s.resolve c with fault | column
  · rfl
  · cases values <;> rfl

theorem truthIn_notIn (values : List Value) :
    (c.notIn values).truthIn s b = (s.resolve c).map fun column => (memberTruth (b.cell column) values).not := by
  rw [Predicate.truthIn, ColumnRef.notIn, Predicate.condition, Predicate.memberTest]
  rcases s.resolve c with fault | column
  · rfl
  · cases values <;> rfl

/-- What comparisons with each of several values say together, a null test for a null. -/
def foundTruth (cell : Cell) (values : List Value) : Truth :=
  (values.map (cellTruth cell .eq)).foldr Truth.or (some false)

theorem truthIn_any (joined : Predicate.any (values.map c.equals) = some p) :
    p.truthIn s b = (s.resolve c).map fun column => foundTruth (b.cell column) values := by
  cases values with
  | nil => cases joined
  | cons v rest =>
    obtain rfl := Option.some.inj joined
    rcases resolved : s.resolve c with fault | column
    · have start : (c.equals v).truthIn s b = .error fault := by
        rw [ColumnRef.equals, truthIn_comparison (.inl rfl), resolved]
        rfl
      exact joins_or.refused_foldl start _
    · have each (w : Value) : (c.equals w).truthIn s b = .ok (cellTruth (b.cell column) .eq w) := by
        rw [ColumnRef.equals, truthIn_comparison (.inl rfl), resolved]
        rfl
      rw [joins_or.truth_foldl each (each v) rest, Truth.foldl_or]
      rfl

theorem cellTruth_ne (cell : Cell) (v : Value) : cellTruth cell .ne v = (cellTruth cell .eq v).not := by
  by_cases null : v = .null
  · subst null
    rfl
  · rw [cellTruth_of_ne_null null, cellTruth_of_ne_null null, compareCell_ne]

theorem truthIn_all (joined : Predicate.all (values.map c.differs) = some p) :
    p.truthIn s b = (s.resolve c).map fun column => (foundTruth (b.cell column) values).not := by
  cases values with
  | nil => cases joined
  | cons v rest =>
    obtain rfl := Option.some.inj joined
    rcases resolved : s.resolve c with fault | column
    · have start : (c.differs v).truthIn s b = .error fault := by
        rw [ColumnRef.differs, truthIn_comparison (.inr rfl), resolved]
        rfl
      exact joins_and.refused_foldl start _
    · have each (w : Value) : (c.differs w).truthIn s b = .ok (cellTruth (b.cell column) .eq w).not := by
        rw [ColumnRef.differs, truthIn_comparison (.inr rfl), resolved, ← cellTruth_ne]
        rfl
      have negated : (rest.map fun w => (cellTruth (b.cell column) .eq w).not) =
          (rest.map (cellTruth (b.cell column) .eq)).map Truth.not := (List.map_map).symm
      rw [joins_and.truth_foldl each (each v) rest, negated, ← Truth.not_foldl_or, Truth.foldl_or]
      rfl

theorem foundTruth_eq (valued : .null ∉ values) (cell : Cell) : foundTruth cell values = memberTruth cell values := by
  rw [foundTruth, memberTruth_eq]
  congr 1
  exact List.map_congr_left fun v listed => cellTruth_of_ne_null (fun null => valued (null ▸ listed)) cell .eq

theorem holds_foundTruth (cell : Cell) (values : List Value) :
    (memberTruth cell values).holds = ((foundTruth cell values).holds && !cell.value.isNull) := by
  rw [holds_memberTruth, foundTruth]
  induction values with
  | nil => rfl
  | cons v values ih =>
    rw [List.any_cons, ih, List.map_cons, List.foldr_cons, Truth.holds_or, holds_compareCell, Bool.and_or_distrib_right]

theorem truthIn_isIn_any (valued : .null ∉ values) (joined : Predicate.any (values.map c.equals) = some p) :
    (c.isIn values).truthIn s b = p.truthIn s b := by
  rw [truthIn_isIn, truthIn_any joined]
  simp only [foundTruth_eq valued]

theorem truthIn_notIn_all (valued : .null ∉ values) (joined : Predicate.all (values.map c.differs) = some p) :
    (c.notIn values).truthIn s b = p.truthIn s b := by
  rw [truthIn_notIn, truthIn_all joined]
  simp only [foundTruth_eq valued]

/-- Membership keeps the rows that equality with one of the values keeps, those without a value apart. -/
theorem keepsIn_isIn_any (joined : Predicate.any (values.map c.equals) = some p) :
    (c.isIn values).keepsIn s b = (p.and c.isNotNull).keepsIn s b := by
  have present : c.isNotNull.truthIn s b = (s.resolve c).map fun column => some !(b.cell column).value.isNull := by
    rw [ColumnRef.isNotNull, truthIn_comparison (.inr rfl)]
    rfl
  have said := truthIn_any (s := s) (b := b) joined
  rw [Predicate.keepsIn, Predicate.keepsIn, truthIn_isIn]
  rcases resolved : s.resolve c with fault | column
  · rw [resolved] at said
    rw [joins_and.refused said]
    rfl
  · rw [resolved] at said present
    rw [joins_and.truth said present]
    refine congrArg Except.ok ?_
    rw [holds_foundTruth, Truth.holds_and]
    dsimp only
    cases (b.cell column).value.isNull <;> rfl

theorem keepsIn_notIn_null (null : .null ∈ values) :
    (c.notIn values).keepsIn s b = (s.resolve c).map fun _ => false := by
  rw [Predicate.keepsIn, truthIn_notIn]
  rcases s.resolve c with fault | column
  · rfl
  · exact congrArg Except.ok (holds_not_memberTruth null (b.cell column))

end Membership

end RecordMapper
