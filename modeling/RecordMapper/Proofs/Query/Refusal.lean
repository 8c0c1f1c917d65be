import RecordMapper.Proofs.Predicate.Formation
import RecordMapper.Proofs.Query.ObjectGraph

namespace RecordMapper

variable {p : Predicate} {cause : Malformation} {g : ShapeGraph} {i : Fin g.size} {q : Query g i}

section Builders

/-- Without a condition there is no statement, and the cause is the same for each. A row of another width is refused
    before the predicate is looked at. -/
structure Predicate.Refused (s : Scope) (p : Predicate) (cause : Malformation) : Prop where
  condition : p.condition s = .error cause
  select : ∀ plan : Plan, plan.scope = s → plan.filter = some p → plan.select = .error cause
  count : ∀ plan : Plan, plan.scope = s → plan.filter = some p → plan.count = .error cause
  update : ∀ (t : Table) (positions : t.Positions) (row : List Value), t.updateIn s positions row (some p) =
    .error (if row.length = t.width then .malformed cause else .binding t.width row.length)
  delete : ∀ t : Table, t.deleteIn s (some p) = .error (.malformed cause)

theorem Plan.rows_eq_error {plan : Plan} (filter : plan.filter = some p)
    (refused : p.condition plan.scope = .error cause) : plan.rows = .error cause := by
  rw [rows, filter]
  simp only [Predicate.conditionOf, refused]
  rfl

theorem Predicate.refused_of_condition {s : Scope} (refused : p.condition s = .error cause) : p.Refused s cause where
  condition := refused
  select := by
    rintro plan rfl filter
    rw [Plan.select, Plan.rows_eq_error filter refused]
    rfl
  count := by
    rintro plan rfl filter
    rw [Plan.count, Plan.rows_eq_error filter refused]
    rfl
  update := by
    intro t positions row
    rw [Table.updateIn, Table.requireWidth]
    by_cases fits : row.length = t.width
    · rw [dif_pos fits, if_pos fits, Table.filterIn, conditionOf, refused]
      rfl
    · rw [dif_neg fits, if_neg fits]
      rfl
  delete := by
    intro t
    rw [Table.deleteIn, Table.filterIn, conditionOf, refused]
    rfl

end Builders

section Statements

structure Query.MadeFrom (q : Query g i) (p : Predicate) : Prop where
  select : (∃ statement, q.selectStatement = .ok statement) ↔
    p.WellFormed q.plan.scope ∧ ∀ term ∈ q.plan.order, q.plan.scope.Has term.column
  count : (∃ statement, q.countStatement = .ok statement) ↔ p.WellFormed q.plan.scope
  update : ∀ (r : (g.shape i).Record) (selection : Selection), (∃ statement, q.updateStatement r selection = .ok statement) ↔
    q.plan.joins = [] ∧ (∃ positions, selection.positions q.plan.root = .ok positions) ∧
      ((g.shape i).write r).length = q.plan.root.width ∧ p.WellFormed q.plan.scope
  delete : (∃ statement, q.deleteStatement = .ok statement) ↔ q.plan.joins = [] ∧ p.WellFormed q.plan.scope

theorem Plan.exists_rows_iff {plan : Plan} (filter : plan.filter = some p) :
    (∃ rows, plan.rows = .ok rows) ↔ p.WellFormed plan.scope := by
  rw [← Predicate.exists_condition_iff]
  simp only [rows, filter, Predicate.conditionOf, bind_eq_ok, pure_eq_ok]
  constructor
  · rintro ⟨_, _, ⟨written, compiled, -⟩, -⟩
    exact ⟨written, compiled⟩
  · rintro ⟨written, compiled⟩
    exact ⟨_, _, ⟨written, compiled, rfl⟩, rfl⟩

theorem Plan.exists_orderTerms_iff {plan : Plan} :
    (∃ order, plan.orderTerms = .ok order) ↔ ∀ term ∈ plan.order, plan.scope.Has term.column := by
  rw [orderTerms, exists_mapM_iff]
  refine forall₂_congr fun term _ => ?_
  rw [← Scope.exists_resolve_iff]
  simp only [bind_eq_ok, pure_eq_ok]
  constructor
  · rintro ⟨_, column, resolved, -⟩
    exact ⟨column, resolved⟩
  · rintro ⟨column, resolved⟩
    exact ⟨_, column, resolved, rfl⟩

theorem Table.exists_filterIn_iff {s : Scope} :
    (∃ condition, Table.filterIn s (some p) = .ok condition) ↔ p.WellFormed s := by
  rw [← Predicate.exists_condition_iff]
  simp only [Table.filterIn, Predicate.conditionOf, mapError_eq_ok, bind_eq_ok, pure_eq_ok]
  constructor
  · rintro ⟨_, written, compiled, -⟩
    exact ⟨written, compiled⟩
  · rintro ⟨written, compiled⟩
    exact ⟨_, written, compiled, rfl⟩

namespace Query

theorem requireUnjoined_eq_ok {operation : String} : q.requireUnjoined operation = .ok () ↔ q.plan.joins = [] := by
  rw [requireUnjoined, ← List.isEmpty_iff]
  by_cases alone : q.plan.joins.isEmpty = true
  · simp only [alone, if_true]
  · simp only [alone, if_false, reduceCtorEq, Bool.false_eq_true]

theorem scope_unjoined (alone : q.plan.joins = []) : q.plan.scope = ⟨q.plan.root, []⟩ := by
  rw [Plan.scope, alone]
  rfl

theorem madeFrom (filter : q.plan.filter = some p) : q.MadeFrom p where
  select := by
    rw [← Plan.exists_rows_iff filter, ← Plan.exists_orderTerms_iff]
    simp only [selectStatement, mapError_eq_ok, map_eq_ok, Plan.select, bind_eq_ok, pure_eq_ok]
    constructor
    · rintro ⟨_, _, ⟨rows, compiled, order, sorted, -⟩, -⟩
      exact ⟨⟨rows, compiled⟩, order, sorted⟩
    · rintro ⟨⟨rows, compiled⟩, order, sorted⟩
      exact ⟨_, _, ⟨rows, compiled, order, sorted, rfl⟩, rfl⟩
  count := by
    rw [← Plan.exists_rows_iff filter]
    simp only [countStatement, mapError_eq_ok, map_eq_ok, Plan.count, bind_eq_ok]
    constructor
    · rintro ⟨_, _, ⟨rows, compiled, -⟩, -⟩
      exact ⟨rows, compiled⟩
    · rintro ⟨rows, compiled⟩
      by_cases alone : q.plan.joins.isEmpty = true
      · rcases paged : q.plan.paging with _ | paging
        · exact ⟨_, _, ⟨rows, compiled, by rw [if_pos alone]; rfl⟩, rfl⟩
        · exact ⟨_, _, ⟨rows, compiled, by rw [if_pos alone]; rfl⟩, rfl⟩
      · exact ⟨_, _, ⟨rows, compiled, by rw [if_neg alone]; rfl⟩, rfl⟩
  update := by
    intro r selection
    simp only [updateStatement, bind_eq_ok, pure_eq_ok, mapError_eq_ok, Table.update, Table.updateIn,
      Table.requireWidth, filter]
    constructor
    · rintro ⟨_, _, unjoined, positions, chosen, _, ⟨_, fits, condition, compiled, -⟩, -⟩
      have alone := requireUnjoined_eq_ok.1 unjoined
      rw [scope_unjoined alone, ← Table.exists_filterIn_iff]
      refine ⟨alone, ⟨positions, chosen⟩, ?_, condition, compiled⟩
      by_contra other
      rw [dif_neg other] at fits
      cases fits
    · rintro ⟨alone, ⟨positions, chosen⟩, fits, formed⟩
      rw [scope_unjoined alone, ← Table.exists_filterIn_iff] at formed
      obtain ⟨condition, compiled⟩ := formed
      exact ⟨_, (), requireUnjoined_eq_ok.2 alone, positions, chosen, _, ⟨_, dif_pos fits, condition, compiled, rfl⟩, rfl⟩
  delete := by
    simp only [deleteStatement, bind_eq_ok, pure_eq_ok, Table.delete, Table.deleteIn, filter]
    constructor
    · rintro ⟨_, _, unjoined, _, ⟨condition, compiled, -⟩, -⟩
      have alone := requireUnjoined_eq_ok.1 unjoined
      rw [scope_unjoined alone, ← Table.exists_filterIn_iff]
      exact ⟨alone, condition, compiled⟩
    · rintro ⟨alone, formed⟩
      rw [scope_unjoined alone, ← Table.exists_filterIn_iff] at formed
      obtain ⟨condition, compiled⟩ := formed
      exact ⟨_, (), requireUnjoined_eq_ok.2 alone, _, ⟨condition, compiled, rfl⟩, rfl⟩

end Query

namespace Query

/-- Without statements the actions of a query fail, and leave the database as it is. -/
structure Idle (q : Query g i) (cause : Malformation) : Prop where
  select : ∀ db, (Database.select q).run db = (.error (.malformed cause), db)
  first : ∀ db, (Database.selectFirst q).run db = (.error (.malformed cause), db)
  count : ∀ db, (Database.count q).run db = (.error (.malformed cause), db)
  update : ∀ r selection db, ∃ failure, (Database.update q r selection).run db = (.error failure, db)
  delete : ∀ db, ∃ failure, (Database.delete q).run db = (.error failure, db)

theorem select_refused (filter : q.plan.filter = some p) (refused : p.condition q.plan.scope = .error cause)
    (db : Database) : (Database.select q).run db = (.error (.malformed cause), db) := by
  have none : q.selectStatement = .error (.malformed cause) := by
    rw [selectStatement, (Predicate.refused_of_condition refused).select q.plan rfl filter]
    rfl
  rw [Database.select, run_bind, Database.run_known, none]

theorem idle (filter : q.plan.filter = some p) (malformed : ¬ p.WellFormed q.plan.scope)
    (refused : p.condition q.plan.scope = .error cause) : q.Idle cause where
  select := select_refused filter refused
  first := by
    intro db
    have none : (Database.select q.first).run db = (.error (.malformed cause), db) :=
      select_refused (q := q.first) filter refused db
    rw [Database.selectFirst, run_bind, none]
  count := by
    intro db
    have none : q.countStatement = .error (.malformed cause) := by
      rw [countStatement, (Predicate.refused_of_condition refused).count q.plan rfl filter]
      rfl
    rw [Database.count, run_bind, Database.run_known, none]
  update := by
    intro r selection db
    rcases made : q.updateStatement r selection with failure | statement
    · refine ⟨failure, ?_⟩
      rw [Database.update, run_bind, Database.run_known, made]
    · exact absurd (((madeFrom filter).update r selection).1 ⟨statement, made⟩).2.2.2 malformed
  delete := by
    intro db
    rcases made : q.deleteStatement with failure | statement
    · refine ⟨failure, ?_⟩
      rw [Database.delete, run_bind, Database.run_known, made]
    · exact absurd ((madeFrom filter).delete.1 ⟨statement, made⟩).2 malformed

end Query

end Statements

/-- A predicate has a condition exactly if each of its leaves can be written. With any other as its filter, no statement
    is made and no action of a query is begun. -/
theorem Predicate.condition_iff_wellFormed (p : Predicate) (s : Scope) :
    ((∃ written, p.condition s = .ok written) ↔ p.WellFormed s) ∧
    (¬ p.WellFormed s → ∃ cause, p.Refused s cause) ∧
    ∀ {g : ShapeGraph} {i : Fin g.size} (q : Query g i), q.plan.filter = some p → q.MadeFrom p ∧
      (¬ p.WellFormed q.plan.scope → ∃ cause, p.Refused q.plan.scope cause ∧ q.Idle cause) := by
  have refusal (s : Scope) (malformed : ¬ p.WellFormed s) : ∃ cause, p.condition s = .error cause := by
    rcases compiled : p.condition s with cause | written
    · exact ⟨cause, rfl⟩
    · exact absurd (exists_condition_iff.1 ⟨written, compiled⟩) malformed
  refine ⟨exists_condition_iff, fun malformed => ?_, fun q filter => ⟨q.madeFrom filter, fun malformed => ?_⟩⟩
  · obtain ⟨cause, refused⟩ := refusal s malformed
    exact ⟨cause, refused_of_condition refused⟩
  · obtain ⟨cause, refused⟩ := refusal q.plan.scope malformed
    exact ⟨cause, refused_of_condition refused, q.idle filter malformed refused⟩

section Shelf

def labelled : Predicate :=
  .or (.compare (.column ⟨none, "id"⟩) .eq (.value (.integer 1))) (.not (.member ⟨some "album", "label"⟩ [] false))

def labelledArtists : Query shelf artists := artistsWithAlbums.filter labelled

theorem labelled_malformed : ¬ labelled.WellFormed labelledArtists.plan.scope := by
  intro formed
  have membership : (Predicate.member ⟨some "album", "label"⟩ [] false) ∈ labelled.leaves := by decide
  cases formed _ membership with
  | member known =>
    cases known with
    | named first listed =>
      cases first with
      | here named => exact absurd named (by decide)
      | later _ first =>
        cases first with
        | here _ => exact absurd listed (by decide)
        | later _ first => cases first

theorem condition_iff_wellFormed_shelf : labelledArtists.plan.filter = some labelled ∧
    ¬ labelled.WellFormed labelledArtists.plan.scope ∧
    ∃ cause, labelled.Refused labelledArtists.plan.scope cause ∧ labelledArtists.Idle cause := by
  have decided := labelled.condition_iff_wellFormed labelledArtists.plan.scope
  exact ⟨rfl, labelled_malformed, (decided.2.2 labelledArtists rfl).2 labelled_malformed⟩

end Shelf

end RecordMapper
