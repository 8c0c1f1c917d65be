import RecordMapper.Proofs.Predicate.Conjunction
import RecordMapper.Proofs.Query.Answering

namespace RecordMapper

open RecordMapper.Store

variable {g : ShapeGraph} {i : Fin g.size} {q : Query g i} {p p' : Predicate} {c : Content} {db : Database}
  {records : List (Loaded g i)}

section Conditions

def joinedCondition (existing : Option Sql.Condition) (written : Sql.Condition) : Sql.Condition :=
  match existing with
  | none => written
  | some first => .and first written

theorem keeps_joinedCondition (b : Bindings) (existing : Option Sql.Condition) (written : Sql.Condition) :
    keeps b (some (joinedCondition existing written)) = (keeps b existing && keeps b (some written)) := by
  cases existing with
  | none => rfl
  | some first => exact Truth.holds_and _ _

theorem conditionOf_restrict {s : Scope} {existing : Option Predicate} {condition : Option Sql.Condition} :
    Predicate.conditionOf s (some (Predicate.restrict existing p)) = .ok condition ↔
      ∃ first written, Predicate.conditionOf s existing = .ok first ∧ p.condition s = .ok written ∧
        condition = some (joinedCondition first written) := by
  cases existing with
  | none =>
    simp only [Predicate.conditionOf, Predicate.restrict, bind_eq_ok, pure_eq_ok]
    constructor
    · rintro ⟨written, compiled, rfl⟩
      exact ⟨none, written, rfl, compiled, rfl⟩
    · rintro ⟨_, written, rfl, compiled, rfl⟩
      exact ⟨written, compiled, rfl⟩
  | some r =>
    simp only [Predicate.conditionOf, Predicate.restrict, Predicate.condition, bind_eq_ok, pure_eq_ok]
    constructor
    · rintro ⟨_, ⟨a, first, b, second, rfl⟩, rfl⟩
      exact ⟨_, b, ⟨a, first, rfl⟩, second, rfl⟩
    · rintro ⟨_, b, ⟨a, first, rfl⟩, second, rfl⟩
      exact ⟨_, ⟨a, first, b, second, rfl⟩, rfl⟩

/-- Where the added filter has no pattern, the condition can be said of a row if the existing filter can. -/
theorem sift_joinedCondition {written : Sql.Condition} (short : Matchable written) (b : Bindings)
    (existing : Option Sql.Condition) : sift b (some (joinedCondition existing written)) =
      .ok (keeps b (some (joinedCondition existing written))) ↔ sift b existing = .ok (keeps b existing) := by
  have own := comesOut_of_matchable b true short
  cases existing with
  | none => exact iff_of_true own rfl
  | some first =>
    constructor
    · intro done
      obtain ⟨kept, tested, -⟩ := bind_eq_ok.1 done
      exact (sift_eq_ok tested : kept = keeps b (some first)) ▸ tested
    · intro done
      have tested : comesOut b true first = .ok (keeps b (some first)) := done
      have known : sift b (some (joinedCondition (some first) written)) =
          if keeps b (some first) == true then .ok (conditionTruth b written == some true) else .ok (keeps b (some first)) := by
        rw [joinedCondition, sift, comesOut, tested, own]
        rfl
      split at known <;> rw [known, sift_eq_ok known]

theorem combinations_congr {source : Sql.Source} {links : List Sql.Link} {f f' : Option Sql.Condition}
    (same : ∀ b, keeps b f = keeps b f') : combinations c ⟨source, links, f⟩ = combinations c ⟨source, links, f'⟩ := by
  exact List.filter_congr fun b _ => same b

theorem combinations_none {source : Sql.Source} {links : List Sql.Link} {f : Option Sql.Condition}
    (dropped : ∀ b, keeps b f = false) : combinations c ⟨source, links, f⟩ = [] := by
  exact List.filter_eq_nil_iff.2 fun b _ => by simp [dropped b]

theorem Store.windowed_nil {α : Type} (window : Option Sql.Window) : windowed window ([] : List α) = [] := by
  rcases window with _ | window
  · rfl
  · simp [windowed]

end Conditions

namespace Query

def filtered (q : Query g i) (filter : Option Predicate) : Query g i :=
  { q with plan.filter := filter }

def Stackable (q : Query g i) : Prop :=
  ∀ condition, Predicate.conditionOf q.plan.scope q.plan.filter = .ok condition → stackable condition

def Answered (q : Query g i) (c : Content) : Prop :=
  ∃ rows order, q.Asks c rows order

def Sifts (q : Query g i) (c : Content) (condition : Option Sql.Condition) : Prop :=
  ∀ b ∈ linkedRows c ⟨rootSource q.plan.root, linksOf q.plan.joins, condition⟩, sift b condition = .ok (keeps b condition)

theorem rows_eq_ok_iff {rows : Sql.Rows} : q.plan.rows = .ok rows ↔
    ∃ condition, Predicate.conditionOf q.plan.scope q.plan.filter = .ok condition ∧
      rows = ⟨rootSource q.plan.root, linksOf q.plan.joins, condition⟩ := by
  simp only [Plan.rows, bind_eq_ok, pure_eq_ok]
  exact exists_congr fun condition => and_congr_right fun _ => eq_comm

theorem recordsOf_nil : q.recordsOf [] = .ok [] := by
  rw [recordsOf]
  split
  · rfl
  · refine congrArg Except.ok ?_
    rcases q.plan.heldPaging? with _ | ⟨_ | limit, skip⟩
    · rfl
    · exact List.drop_nil
    · simp [Paging.apply]

end Query

namespace Database

theorem select_condition_iff : ((select q).run db).1 = .ok records ↔
    ∃ condition order, Predicate.conditionOf q.plan.scope q.plan.filter = .ok condition ∧ q.plan.orderTerms = .ok order ∧
      q.plan.Plain ∧ q.plan.Served db.engine.store.content ∧ stackable condition ∧
      q.Sifts db.engine.store.content condition ∧
      q.recordsOf (q.rowsRead db.engine.store.content ⟨rootSource q.plan.root, linksOf q.plan.joins, condition⟩ order) =
        .ok records := by
  rw [select_eq_ok_iff]
  simp only [Query.asks_iff, Query.rows_eq_ok_iff]
  constructor
  · rintro ⟨_, order, ⟨⟨condition, compiled, rfl⟩, ordered, plain, served, shallow, sifts⟩, read⟩
    exact ⟨condition, order, compiled, ordered, plain, served, shallow, sifts, read⟩
  · rintro ⟨condition, order, compiled, ordered, plain, served, shallow, sifts, read⟩
    exact ⟨_, order, ⟨⟨condition, compiled, rfl⟩, ordered, plain, served, shallow, sifts⟩, read⟩

theorem stackable_of_select (done : ((select q).run db).1 = .ok records) : q.Stackable := by
  obtain ⟨_, _, compiled, -, -, -, shallow, -⟩ := select_condition_iff.1 done
  exact fun condition again => Except.ok.inj (compiled.symm.trans again) ▸ shallow

/-- With a filter that keeps the same rows, and that the engine can stack and say of them, a query gives the same
    records. -/
theorem select_filtered_congr {filter : Option Predicate} {condition : Option Sql.Condition}
    (compiled : Predicate.conditionOf q.plan.scope filter = .ok condition) (shallow : stackable condition)
    (same : ∀ own, Predicate.conditionOf q.plan.scope q.plan.filter = .ok own → ∀ b, keeps b own = keeps b condition ∧
      (sift b own = .ok (keeps b own) → sift b condition = .ok (keeps b condition)))
    (done : ((select q).run db).1 = .ok records) : ((select (q.filtered filter)).run db).1 = .ok records := by
  rw [select_condition_iff] at done ⊢
  obtain ⟨own, order, written, ordered, plain, served, -, sifts, read⟩ := done
  refine ⟨condition, order, compiled, ordered, ⟨plain.root, plain.joins⟩,
    ⟨served.wide, served.known⟩, shallow, fun b linked => (same own written b).2 (sifts b linked), ?_⟩
  have rows : (q.filtered filter).rowsRead db.engine.store.content
      ⟨rootSource q.plan.root, linksOf q.plan.joins, condition⟩ order =
      q.rowsRead db.engine.store.content ⟨rootSource q.plan.root, linksOf q.plan.joins, own⟩ order := by
    simp only [Query.rowsRead, Store.select, combinations_congr fun b => (same own written b).1]
    rfl
  exact (congrArg (q.filtered filter).recordsOf rows).trans read

end Database

section Depth

variable {first : Option Sql.Condition} {written flat : Sql.Condition}

theorem stackable_flat (shallow : stackable (some (joinedCondition first written))) (least : flat.depth ≤ 7) :
    stackable (some (joinedCondition first flat)) := by
  have limit : stackLimit = 99 := rfl
  have before := shallow _ rfl
  intro f here
  cases here
  cases first with
  | none => simp only [joinedCondition]; omega
  | some own =>
    simp only [joinedCondition, Sql.Condition.depth] at before ⊢
    omega

theorem stackable_first (shallow : stackable (some (joinedCondition first written))) : stackable first := by
  have before := shallow _ rfl
  intro f here
  cases here
  simp only [joinedCondition, Sql.Condition.depth] at before
  omega

theorem depth_le_joinedCondition (existing : Option Sql.Condition) (written : Sql.Condition) :
    written.depth ≤ (joinedCondition existing written).depth := by
  cases existing with
  | none => exact Nat.le_refl _
  | some own =>
    simp only [joinedCondition, Sql.Condition.depth]
    omega

/-- The engine stacks no more than 89 joined tests, whatever they ask and whatever is stored. -/
theorem Database.select_comparisons_refused {join : Predicate → Predicate → Predicate} (deepens : Predicate.Deepens join)
    (tests : List Predicate) (joined : Predicate.combined join tests = some p) (many : 89 < tests.length) :
    ((select (q.filter p)).run db).1 ≠ .ok records := by
  intro done
  obtain ⟨_, _, compiled, -, -, -, shallow, -⟩ := select_condition_iff.1 done
  obtain ⟨existing, written, -, own, rfl⟩ := conditionOf_restrict.1 compiled
  have deep := Predicate.length_le_depth deepens joined (by omega) own
  have flat := shallow _ rfl
  have inner := depth_le_joinedCondition existing written
  have limit : stackLimit = 99 := rfl
  omega

end Depth

end RecordMapper
