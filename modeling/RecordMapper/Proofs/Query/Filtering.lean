import RecordMapper.Proofs.Predicate.Membership
import RecordMapper.Proofs.Query.Conditions
import RecordMapper.Proofs.Query.Separation

namespace RecordMapper

open RecordMapper.Store

variable {g : ShapeGraph} {i : Fin g.size} {q : Query g i} {p p' : Predicate} {c : Content} {db : Database}
  {records : List (Loaded g i)}

section Filters

variable {b : Bindings} {s : Scope}

theorem keepsIn_of_condition {written : Sql.Condition} (compiled : p.condition s = .ok written) :
    p.keepsIn s b = .ok (keeps b (some written)) := by
  rw [Predicate.keepsIn, Predicate.truthIn, compiled]
  rfl

theorem exists_condition_of_keepsIn {kept : Bool} (answers : p.keepsIn s b = .ok kept) :
    ∃ written, p.condition s = .ok written := by
  obtain ⟨truth, said, -⟩ := map_eq_ok.1 answers
  obtain ⟨written, compiled, -⟩ := map_eq_ok.1 said
  exact ⟨written, compiled⟩

namespace Database

/-- A filter without patterns that keeps the same rows as another, and that the engine can stack, gives the same
    records. -/
theorem select_filter_congr (same : ∀ b, p'.keepsIn q.plan.scope b = p.keepsIn q.plan.scope b) (none : p.patterns = [])
    (none' : p'.patterns = []) (fits : (q.filter p').Stackable) (done : ((select (q.filter p)).run db).1 = .ok records) :
    ((select (q.filter p')).run db).1 = .ok records := by
  obtain ⟨_, _, compiled, -⟩ := select_condition_iff.1 done
  obtain ⟨first, written, existing, own, rfl⟩ := conditionOf_restrict.1 compiled
  obtain ⟨written', own'⟩ := exists_condition_of_keepsIn ((same []).trans (keepsIn_of_condition own))
  have compiled' := conditionOf_restrict.2 ⟨first, written', existing, own', rfl⟩
  refine select_filtered_congr (q := q.filter p) compiled' (fits _ compiled') (fun condition known b => ?_) done
  obtain rfl := Except.ok.inj (compiled.symm.trans known)
  have kept : keeps b (some written') = keeps b (some written) :=
    Except.ok.inj ((keepsIn_of_condition own').symm.trans ((same b).trans (keepsIn_of_condition own)))
  constructor
  · rw [keeps_joinedCondition, keeps_joinedCondition, kept]
  · rw [sift_joinedCondition (Predicate.matchable_of_none own none),
      sift_joinedCondition (Predicate.matchable_of_none own' none')]
    exact id

theorem select_filter_iff (flat : ∀ written, p'.condition q.plan.scope = .ok written → written.depth ≤ 7)
    (same : ∀ b, p'.keepsIn q.plan.scope b = p.keepsIn q.plan.scope b) (none : p.patterns = [])
    (none' : p'.patterns = []) (fits : (q.filter p).Stackable) :
    ((select (q.filter p')).run db).1 = .ok records ↔ ((select (q.filter p)).run db).1 = .ok records := by
  refine ⟨select_filter_congr (fun b => (same b).symm) none' none fits, fun done => ?_⟩
  -- Back again nothing is assumed of the depth: the new condition is flat, and what it stands beside was stacked before.
  refine select_filter_congr same none none' (fun condition compiled' => ?_) done
  obtain ⟨_, _, compiled, -, -, -, shallow, -⟩ := select_condition_iff.1 done
  obtain ⟨first, written, existing, own, rfl⟩ := conditionOf_restrict.1 compiled
  obtain ⟨first', written', existing', own', rfl⟩ := conditionOf_restrict.1 compiled'
  obtain rfl := Except.ok.inj (existing.symm.trans existing')
  exact stackable_flat shallow (flat written' own')

theorem select_filter_all (all : ∀ b, p.keepsIn q.plan.scope b = .ok true) (none : p.patterns = [])
    (fits : (q.filter p).Stackable) :
    ((select (q.filter p)).run db).1 = .ok records ↔ ((select q).run db).1 = .ok records := by
  obtain ⟨written, own⟩ := exists_condition_of_keepsIn (all [])
  have kept (b : Bindings) : keeps b (some written) = true :=
    Except.ok.inj ((keepsIn_of_condition own).symm.trans (all b))
  have sifted := sift_joinedCondition (Predicate.matchable_of_none own none)
  constructor
  · intro done
    obtain ⟨_, _, compiled, -, -, -, shallow, -⟩ := select_condition_iff.1 done
    obtain ⟨first, other, existing, known, rfl⟩ := conditionOf_restrict.1 compiled
    obtain rfl := Except.ok.inj (own.symm.trans known)
    refine select_filtered_congr (q := q.filter p) existing (stackable_first shallow) (fun condition again b => ?_) done
    obtain rfl := Except.ok.inj (compiled.symm.trans again)
    exact ⟨by rw [keeps_joinedCondition, kept b, Bool.and_true], (sifted b first).1⟩
  · intro done
    obtain ⟨first, _, existing, -⟩ := select_condition_iff.1 done
    have compiled := conditionOf_restrict.2 ⟨first, written, existing, own, rfl⟩
    refine select_filtered_congr (q := q) compiled (fits _ compiled) (fun condition again b => ?_) done
    obtain rfl := Except.ok.inj (existing.symm.trans again)
    exact ⟨by rw [keeps_joinedCondition, kept b, Bool.and_true], (sifted b _).2⟩

theorem select_filter_none (unkept : ∀ b kept, p.keepsIn q.plan.scope b = .ok kept → kept = false) :
    ((select (q.filter p)).run db).1 = .ok records ↔
      (q.filter p).Answered db.engine.store.content ∧ records = [] := by
  have unread {rows : Sql.Rows} {order : List Sql.OrderTerm} (asks : (q.filter p).Asks db.engine.store.content rows order) :
      (q.filter p).recordsOf ((q.filter p).rowsRead db.engine.store.content rows order) = .ok [] := by
    obtain ⟨condition, compiled, rfl⟩ := Query.rows_eq_ok_iff.1 asks.made
    obtain ⟨first, written, existing, own, rfl⟩ := conditionOf_restrict.1 compiled
    have dropped (b : Bindings) : keeps b (some (joinedCondition first written)) = false := by
      rw [keeps_joinedCondition, unkept b _ (keepsIn_of_condition own), Bool.and_false]
    have rows : (q.filter p).rowsRead db.engine.store.content
        ⟨rootSource (q.filter p).plan.root, linksOf (q.filter p).plan.joins, some (joinedCondition first written)⟩ order =
        [] := by
      simp only [Query.rowsRead, Store.select, combinations_none dropped, List.mergeSort_nil, windowed_nil, List.map_nil]
    rw [rows, Query.recordsOf_nil]
  rw [select_eq_ok_iff]
  constructor
  · rintro ⟨rows, order, asks, read⟩
    exact ⟨⟨rows, order, asks⟩, (Except.ok.inj ((unread asks).symm.trans read)).symm⟩
  · rintro ⟨⟨rows, order, asks⟩, rfl⟩
    exact ⟨rows, order, asks, unread asks⟩

end Database

end Filters

section Membership

variable {c : ColumnRef} {values : List Value}

theorem depth_member {negated : Bool} {s : Scope} {written : Sql.Condition}
    (compiled : (Predicate.member c values negated).condition s = .ok written) : written.depth ≤ 7 := by
  simp only [Predicate.condition, Predicate.memberTest, bind_eq_ok] at compiled
  obtain ⟨column, -, rest⟩ := compiled
  cases values with
  | nil =>
    obtain rfl := pure_eq_ok.1 rest
    exact Nat.le_add_left 4 3
  | cons v values =>
    obtain rfl := pure_eq_ok.1 rest
    simp only [Sql.Condition.depth]
    split <;> decide

theorem depth_comparison {op : Comparison} {v : Value} {s : Scope} {written : Sql.Condition}
    (compiled : (Predicate.compare (.column c) op (.value v)).condition s = .ok written) : written.depth ≤ 5 := by
  simp only [Predicate.condition, Predicate.compareOperands, Predicate.compareWithValue, bind_eq_ok] at compiled
  obtain ⟨column, -, rest⟩ := compiled
  split at rest
  · obtain rfl := pure_eq_ok.1 rest
    exact Nat.le_succ 4
  · obtain rfl := pure_eq_ok.1 rest
    exact Nat.le_refl 5
  · exact absurd rest throw_ne_ok
  · obtain rfl := pure_eq_ok.1 rest
    exact Nat.le_succ 4

theorem depth_comparisons {join : Predicate → Predicate → Predicate} (deepens : Predicate.Deepens join)
    {op : Comparison} (joined : Predicate.combined join (values.map fun v => .compare (.column c) op (.value v)) = some p)
    {s : Scope} {written : Sql.Condition} (compiled : p.condition s = .ok written) : written.depth ≤ 6 + values.length := by
  have each : ∀ e ∈ values.map fun v => Predicate.compare (.column c) op (.value v), ∀ f, e.condition s = .ok f → f.depth ≤ 5 := by
    intro e listed f alone
    obtain ⟨v, -, rfl⟩ := List.mem_map.1 listed
    exact depth_comparison alone
  have deep := Predicate.depth_combined deepens joined each compiled
  rwa [List.length_map] at deep

/-- What tests of membership say of a row, beside comparisons with each of the values. A null among the values is bound
    like the others, while a comparison with null is a null test. -/
structure ColumnRef.TestsMembers (c : ColumnRef) (values : List Value) (s : Scope) (b : Bindings) : Prop where
  isIn_nil : values = [] → (c.isIn values).keepsIn s b = (s.resolve c).map fun _ => false
  notIn_nil : values = [] → (c.notIn values).keepsIn s b = (s.resolve c).map fun _ => true
  isIn : ∀ p, Predicate.any (values.map c.equals) = some p →
    (c.isIn values).keepsIn s b = (p.and c.isNotNull).keepsIn s b
  isIn_some : .null ∉ values → ∀ p, Predicate.any (values.map c.equals) = some p →
    (c.isIn values).truthIn s b = p.truthIn s b
  notIn_some : .null ∉ values → ∀ p, Predicate.all (values.map c.differs) = some p →
    (c.notIn values).truthIn s b = p.truthIn s b
  notIn_null : .null ∈ values → (c.notIn values).keepsIn s b = (s.resolve c).map fun _ => false

theorem ColumnRef.testsMembers (c : ColumnRef) (values : List Value) (s : Scope) (b : Bindings) :
    c.TestsMembers values s b where
  isIn_nil := by
    rintro rfl
    rw [Predicate.keepsIn, truthIn_isIn]
    cases s.resolve c <;> rfl
  notIn_nil := by
    rintro rfl
    rw [Predicate.keepsIn, truthIn_notIn]
    cases s.resolve c <;> rfl
  isIn _ joined := keepsIn_isIn_any joined
  isIn_some valued _ joined := truthIn_isIn_any valued joined
  notIn_some valued _ joined := truthIn_notIn_all valued joined
  notIn_null := keepsIn_notIn_null

structure Query.SelectsMembers (q : Query g i) (c : ColumnRef) (values : List Value) : Prop where
  isIn_nil : values = [] → ∀ db records, ((Database.select (q.filter (c.isIn values))).run db).1 = .ok records ↔
    (q.filter (c.isIn values)).Answered db.engine.store.content ∧ records = []
  notIn_nil : values = [] → (q.filter (c.notIn values)).Stackable → ∀ db records,
    ((Database.select (q.filter (c.notIn values))).run db).1 = .ok records ↔
      (∃ column, q.plan.scope.resolve c = .ok column) ∧ ((Database.select q).run db).1 = .ok records
  isIn : ∀ p, Predicate.any (values.map c.equals) = some p → (q.filter (p.and c.isNotNull)).Stackable → ∀ db records,
    ((Database.select (q.filter (c.isIn values))).run db).1 = .ok records ↔
      ((Database.select (q.filter (p.and c.isNotNull))).run db).1 = .ok records
  isIn_some : .null ∉ values → ∀ p, Predicate.any (values.map c.equals) = some p → (q.filter p).Stackable →
    ∀ db records, ((Database.select (q.filter (c.isIn values))).run db).1 = .ok records ↔
      ((Database.select (q.filter p)).run db).1 = .ok records
  notIn_some : .null ∉ values → ∀ p, Predicate.all (values.map c.differs) = some p → (q.filter p).Stackable →
    ∀ db records, ((Database.select (q.filter (c.notIn values))).run db).1 = .ok records ↔
      ((Database.select (q.filter p)).run db).1 = .ok records
  notIn_null : .null ∈ values → ∀ db records,
    ((Database.select (q.filter (c.notIn values))).run db).1 = .ok records ↔
      (q.filter (c.notIn values)).Answered db.engine.store.content ∧ records = []
  isIn_fits : q.plan.filter = none → values.length ≤ 87 → ∀ p, Predicate.any (values.map c.equals) = some p →
    (q.filter p).Stackable ∧ (q.filter (p.and c.isNotNull)).Stackable
  notIn_fits : q.plan.filter = none → (q.filter (c.notIn [])).Stackable ∧
    (values.length ≤ 87 → ∀ p, Predicate.all (values.map c.differs) = some p → (q.filter p).Stackable)

theorem Query.stackable_filter (alone : q.plan.filter = none)
    (least : ∀ written, p.condition q.plan.scope = .ok written → written.depth ≤ 94) : (q.filter p).Stackable := by
  intro condition compiled
  obtain ⟨first, written, existing, own, rfl⟩ := conditionOf_restrict.1 compiled
  rw [alone] at existing
  obtain rfl := Except.ok.inj existing
  have deep := least written own
  have limit : stackLimit = 99 := rfl
  intro f here
  obtain rfl : written = f := Option.some.inj here
  omega

theorem Query.stackable_any (alone : q.plan.filter = none) (few : values.length ≤ 87)
    (joined : Predicate.any (values.map c.equals) = some p) :
    (q.filter p).Stackable ∧ (q.filter (p.and c.isNotNull)).Stackable := by
  have least {written : Sql.Condition} : p.condition q.plan.scope = .ok written → written.depth ≤ 6 + values.length :=
    depth_comparisons Predicate.deepens_or joined
  constructor
  · refine stackable_filter alone fun written compiled => ?_
    have deep := least compiled
    omega
  · refine stackable_filter alone fun written compiled => ?_
    obtain ⟨found, present, one, two, depth⟩ := Predicate.deepens_and compiled
    have deep := least one
    have flat : present.depth ≤ 5 := depth_comparison two
    omega

theorem Query.stackable_all (alone : q.plan.filter = none) (few : values.length ≤ 87)
    (joined : Predicate.all (values.map c.differs) = some p) : (q.filter p).Stackable := by
  refine stackable_filter alone fun written compiled => ?_
  have deep := depth_comparisons Predicate.deepens_and joined compiled
  omega

theorem patterns_comparisons {op : Comparison} {join : Predicate → Predicate → Predicate}
    (joins : ∀ p q, (join p q).patterns = p.patterns ++ q.patterns)
    (joined : Predicate.combined join (values.map fun v => .compare (.column c) op (.value v)) = some p) :
    p.patterns = [] := by
  refine Predicate.patterns_combined joins joined fun e listed => ?_
  obtain ⟨v, -, rfl⟩ := List.mem_map.1 listed
  rfl

theorem eq_false_of_keepsIn {s : Scope} {b : Bindings} {kept : Bool}
    (said : p.keepsIn s b = (s.resolve c).map fun _ => false) (answers : p.keepsIn s b = .ok kept) : kept = false := by
  rw [said] at answers
  obtain ⟨_, -, same⟩ := map_eq_ok.1 answers
  exact same.symm

theorem Query.selectsMembers (q : Query g i) (c : ColumnRef) (values : List Value) : q.SelectsMembers c values where
  isIn_nil := by
    rintro rfl db records
    exact Database.select_filter_none fun b _ =>
      eq_false_of_keepsIn ((c.testsMembers [] q.plan.scope b).isIn_nil rfl)
  notIn_nil := by
    rintro rfl fits db records
    have said (b : Bindings) := (c.testsMembers [] q.plan.scope b).notIn_nil rfl
    have all {column : Sql.ColumnName} (resolved : q.plan.scope.resolve c = .ok column) (b : Bindings) :
        (c.notIn []).keepsIn q.plan.scope b = .ok true := by
      rw [said, resolved]
      rfl
    constructor
    · intro done
      obtain ⟨_, _, compiled, -⟩ := Database.select_condition_iff.1 done
      obtain ⟨first, written, -, own, -⟩ := conditionOf_restrict.1 compiled
      obtain ⟨column, resolved, -⟩ := map_eq_ok.1 ((said []).symm.trans (keepsIn_of_condition own))
      exact ⟨⟨column, resolved⟩, (Database.select_filter_all (all resolved) rfl fits).1 done⟩
    · rintro ⟨⟨column, resolved⟩, done⟩
      exact (Database.select_filter_all (all resolved) rfl fits).2 done
  isIn p joined fits _ _ :=
    have none : p.patterns = [] := patterns_comparisons (fun _ _ => rfl) joined
    Database.select_filter_iff (fun _ => depth_member) (fun b => (c.testsMembers values _ b).isIn p joined)
      (congrArg (· ++ []) none) rfl fits
  isIn_some valued p joined fits _ _ :=
    Database.select_filter_iff (fun _ => depth_member)
      (fun b => congrArg (Except.map Truth.holds) ((c.testsMembers values _ b).isIn_some valued p joined))
      (patterns_comparisons (fun _ _ => rfl) joined) rfl fits
  notIn_some valued p joined fits _ _ :=
    Database.select_filter_iff (fun _ => depth_member)
      (fun b => congrArg (Except.map Truth.holds) ((c.testsMembers values _ b).notIn_some valued p joined))
      (patterns_comparisons (fun _ _ => rfl) joined) rfl fits
  notIn_null null _ _ :=
    Database.select_filter_none fun b _ =>
      eq_false_of_keepsIn ((c.testsMembers values q.plan.scope b).notIn_null null)
  isIn_fits alone few _ joined := stackable_any alone few joined
  notIn_fits alone :=
    ⟨stackable_filter alone fun _ compiled => Nat.le_trans (depth_member compiled) (by decide),
      fun few _ joined => stackable_all alone few joined⟩

/-- A member equals one of the values and is not null. Where a null is among the values, no row is known not to be a
    member. -/
theorem ColumnRef.membership_selects (c : ColumnRef) (values : List Value) :
    (∀ s b, c.TestsMembers values s b) ∧
      ∀ {g : ShapeGraph} {i : Fin g.size} (q : Query g i), q.SelectsMembers c values :=
  ⟨c.testsMembers values, fun q => q.selectsMembers c values⟩

end Membership

section Ledger

def accountNote : ColumnRef := ⟨none, "note"⟩

def allAccounts : Query ledger accounts := .ofTable accountTable

def accountAlone (id : Int64) (note : Option String) : Loaded ledger accounts :=
  ⟨(id, note, ()), []⟩

theorem select_allAccounts (rows : List StoredRow) {written : Sql.Condition} {records : List (Loaded ledger accounts)}
    (compiled : p.condition ⟨accountTable, []⟩ = .ok written) (shallow : 5 + written.depth ≤ stackLimit)
    (unmatched : p.patterns = [])
    (chosen : (ledgerWith accountRows entryRows).chosen accountTable (some p) = rows)
    (reads : rows.mapM (fun row => Loaded.readOne ledger accounts accountTable
      ((ledgerWith accountRows entryRows).valuesOf accountTable row)) = .ok records) :
    ((Database.select (allAccounts.filter p)).run ledgerDatabase).1 = .ok records := by
  have plain : accountTable.Plain := ⟨by decide, by decide⟩
  have fits : stackable (some written) := fun f here => Option.some.inj here ▸ shallow
  have made : List.Forall₂ (fun row l => Loaded.readOne ledger accounts accountTable
      (ledgerDatabase.engine.store.content.valuesOf accountTable row) = .ok l)
      (ledgerDatabase.engine.store.content.chosen accountTable (some p)) records := by
    rw [← chosen] at reads
    exact mapM_eq_ok.1 reads
  obtain ⟨after, ran, -⟩ := Database.select_chosen plain (by decide) rfl (by decide) compiled fits
    (Predicate.matchable_of_none compiled unmatched) made
  exact congrArg Prod.fst ran

theorem membership_selects_repeated :
    ((Database.select (allAccounts.filter (accountNote.isIn [.text "rent", .text "rent"]))).run ledgerDatabase).1 =
      .ok [accountAlone 1 (some "rent")] := by
  have selects := (accountNote.membership_selects [.text "rent", .text "rent"]).2 allAccounts
  have joined : Predicate.any ([Value.text "rent", .text "rent"].map accountNote.equals) =
      some ((accountNote.equals (.text "rent")).or (accountNote.equals (.text "rent"))) := rfl
  have fits := (selects.isIn_fits rfl (by decide) _ joined).1
  refine (selects.isIn_some (by decide) _ joined fits ledgerDatabase _).2 ?_
  exact select_allAccounts [⟨1, [.integer 1, .text "rent"]⟩] rfl (by decide) rfl (by decide +kernel) rfl

/-- The accounts without a note equal a null and are no members of one, the account with another note differs from a null
    and may be a member of it, and of 96 values the comparisons are too deep. -/
theorem membership_apart :
    (∃ p, Predicate.any ([Value.null].map accountNote.equals) = some p ∧
      ((Database.select (allAccounts.filter p)).run ledgerDatabase).1 =
        .ok [accountAlone 2 none, accountAlone 3 none] ∧
      ((Database.select (allAccounts.filter (accountNote.isIn [.null]))).run ledgerDatabase).1 = .ok []) ∧
    (∃ p, Predicate.all ([Value.text "food", .null].map accountNote.differs) = some p ∧
      ((Database.select (allAccounts.filter p)).run ledgerDatabase).1 = .ok [accountAlone 1 (some "rent")] ∧
      ((Database.select (allAccounts.filter (accountNote.notIn [.text "food", .null]))).run ledgerDatabase).1 = .ok []) ∧
    ∃ p, Predicate.any ((List.replicate 96 (Value.text "rent")).map accountNote.equals) = some p ∧
      (∀ records, ((Database.select (allAccounts.filter p)).run ledgerDatabase).1 ≠ .ok records) ∧
      ((Database.select (allAccounts.filter (accountNote.isIn (.replicate 96 (.text "rent"))))).run ledgerDatabase).1 =
        .ok [accountAlone 1 (some "rent")] := by
  refine ⟨⟨_, rfl, ?_, ?_⟩, ⟨_, rfl, ?_, ?_⟩, _, rfl, ?_, ?_⟩
  · exact select_allAccounts [⟨2, [.integer 2, .null]⟩, ⟨3, [.integer 3, .null]⟩] rfl (by decide) rfl
      (by decide +kernel) rfl
  · exact select_allAccounts [] rfl (by decide) rfl (by decide +kernel) rfl
  · exact select_allAccounts [⟨1, [.integer 1, .text "rent"]⟩] rfl (by decide) rfl (by decide +kernel) rfl
  · exact select_allAccounts [] rfl (by decide) rfl (by decide +kernel) rfl
  · exact fun _ => Database.select_comparisons_refused Predicate.deepens_or
      ((List.replicate 96 (Value.text "rent")).map accountNote.equals) rfl (by decide)
  · exact select_allAccounts [⟨1, [.integer 1, .text "rent"]⟩] rfl (by decide) rfl (by decide +kernel) rfl

end Ledger

end RecordMapper
