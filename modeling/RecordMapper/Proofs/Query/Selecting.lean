import RecordMapper.Proofs.Query.Inserting
import RecordMapper.Proofs.Statement.Places
import RecordMapper.Proofs.Store.Readiness

namespace RecordMapper

open RecordMapper.Store RecordMapper.Text

section Command

variable {c : Content} {t : Table} {filter : Option Predicate} {condition : Option Sql.Condition}

theorem columnsOf_list (columns : List Sql.ColumnName) : Sql.columnsOf (Sql.selectListPieces columns) = columns := by
  rw [Sql.selectListPieces, columnsOf_separated, List.flatMap_map]
  exact List.flatMap_singleton' columns

def Table.reading (t : Table) (condition : Option Sql.Condition) : Sql.Command :=
  .select (Scope.columns ⟨t, []⟩) ⟨rootSource t, [], condition⟩ [] none

theorem mem_scope_columns {column : Sql.ColumnName} :
    column ∈ Scope.columns ⟨t, []⟩ ↔ ∃ name ∈ t.columnNames, column = ⟨Sql.rootLabel, name⟩ := by
  simp [Scope.columns, Scope.entries, eq_comm]

theorem Scope.Finds.of_table {column : Sql.ColumnName} (found : Scope.Finds ⟨t, []⟩ column) :
    ∃ name ∈ t.columnNames, column = ⟨Sql.rootLabel, name⟩ := by
  obtain ⟨ref, resolved⟩ := found
  obtain ⟨e, entry, has, rfl⟩ := Scope.resolve_eq_ok.1 resolved
  obtain rfl := List.mem_singleton.1 (Scope.entry_mem entry)
  exact ⟨ref.column, (t.hasColumn_iff _).1 has, rfl⟩

theorem plain_rootLabel : Sql.IsPlainLabel Sql.rootLabel :=
  ⟨by decide, by decide⟩

theorem Table.Plain.writable (plain : t.Plain) : Scope.Writable ⟨t, []⟩ where
  distinct := List.nodup_singleton _
  plain _ member := List.mem_singleton.1 member ▸ plain_rootLabel
  names _ member := List.mem_singleton.1 member ▸ plain.columns

theorem Table.reading_asked (plain : t.Plain) (compiled : Predicate.conditionOf ⟨t, []⟩ filter = .ok condition) :
    (t.reading condition).statement.asked = .ok (t.reading condition) ∧
      (t.reading condition).statement.placeholders = (t.reading condition).statement.params.length := by
  have listed : ∀ column ∈ Scope.columns ⟨t, []⟩, column.Writable := by
    intro column listed
    obtain ⟨name, known, rfl⟩ := mem_scope_columns.1 listed
    exact ⟨plain_rootLabel, plain.columns name known⟩
  have filtered := Predicate.conditionOf_writable plain.writable compiled
  have read : Sql.Rows.Writable ⟨rootSource t, [], condition⟩ :=
    ⟨⟨plain_rootLabel.word, plain.name⟩, fun l none => absurd none List.not_mem_nil, filtered⟩
  exact (Sql.Command.select_places listed read fun term none => absurd none List.not_mem_nil).statement

/-- Whether the engine can stack the entries of a condition while it reads a statement on one table. -/
def stackable (condition : Option Sql.Condition) : Prop :=
  ∀ f ∈ condition, 5 + f.depth ≤ stackLimit

theorem Table.reading_checked (wide : t.columns ≠ []) {own : StoredTable} (found : c.table? t.name = some own)
    (known : ∀ name ∈ t.columnNames, (own.spot? name).isSome = true)
    (compiled : Predicate.conditionOf ⟨t, []⟩ filter = .ok condition) (shallow : stackable condition) (enforces : Bool) :
    checkCommand c enforces (t.reading condition) = .ok () := by
  have has : ∀ name ∈ t.columnNames, Sources.has [(Sql.rootLabel, own)] ⟨Sql.rootLabel, name⟩ = true := by
    intro name listed
    simpa [Sources.has] using known name listed
  have text : refuse (textFault? (t.reading condition)) = .ok () := by
    have least : Scope.columns ⟨t, []⟩ ≠ [] := by
      obtain ⟨column, listed⟩ := List.exists_mem_of_ne_nil _ wide
      exact List.ne_nil_of_mem (mem_scope_columns.2 ⟨column.name, List.mem_map_of_mem listed, rfl⟩)
    have fits : isTooDeep (t.reading condition) = false := by
      cases condition with
      | none => rfl
      | some f =>
        have depth := shallow f rfl
        simp only [isTooDeep, reading, conditionPlace?, Option.map_some, decide_eq_false_iff_not]
        omega
    unfold textFault?
    split
    · rename_i none
      exact absurd (Sql.Command.select.inj none).1 least
    · rename_i same
      cases same
    · rename_i same
      cases same
    · rw [fits]
      rfl
  have columns : ∀ column ∈ Sql.columnsOf (Sql.selectListPieces (Scope.columns ⟨t, []⟩)),
      Sources.has [(Sql.rootLabel, own)] column = true := by
    rw [columnsOf_list]
    intro column listed
    obtain ⟨name, member, rfl⟩ := mem_scope_columns.1 listed
    exact has name member
  have filtered : ∀ f ∈ condition, ∀ column ∈ Sql.columnsOf f.pieces, Sources.has [(Sql.rootLabel, own)] column = true := by
    intro f here column named
    cases filter with
    | none =>
      cases compiled
      cases here
    | some p =>
      simp only [Predicate.conditionOf, bind_eq_ok, pure_eq_ok] at compiled
      obtain ⟨written, made, rfl⟩ := compiled
      cases here
      obtain ⟨name, member, rfl⟩ := (p.condition_columns made column named).of_table
      exact has name member
  rw [reading] at text ⊢
  rw [checkCommand, text]
  exact checkReading_known found columns filtered

theorem Table.reading_rows (compiled : Predicate.conditionOf ⟨t, []⟩ filter = .ok condition) :
    rowsOf c (t.reading condition) = given ((c.chosen t filter).map (c.valuesOf t)) := by
  rw [reading, rowsOf, Store.select, mergeSort_unordered, windowed, combinations_chosen compiled, List.map_map]
  refine congrArg given (List.map_congr_left fun row _ => ?_)
  exact values_unjoined (p := ⟨t, [], filter, [], none⟩) rfl row

end Command

section Reading

variable {g : ShapeGraph} {s : Fin g.size} {db : Database} {t : Table} {p : Predicate} {condition : Sql.Condition}

/-- A query with a filter on a table reads one record from each chosen row, and changes nothing. -/
theorem Database.select_chosen (plain : t.Plain) (wide : t.columns ≠ []) {own : StoredTable}
    (found : db.engine.store.content.table? t.name = some own)
    (known : ∀ name ∈ t.columnNames, (own.spot? name).isSome = true)
    (compiled : p.condition ⟨t, []⟩ = .ok condition) (shallow : stackable (some condition)) (short : Matchable condition)
    {records : List (Loaded g s)}
    (reads : List.Forall₂ (fun row l => Loaded.readOne g s t (db.engine.store.content.valuesOf t row) = .ok l)
      (db.engine.store.content.chosen t (some p)) records) :
    ∃ after, (select ((Query.ofTable t : Query g s).filter p)).run db = (.ok records, after) ∧
      after.engine.store.content = db.engine.store.content := by
  have made : Predicate.conditionOf ⟨t, []⟩ (some p) = .ok (some condition) := by
    simp only [Predicate.conditionOf, compiled]
    rfl
  have statement : ((Query.ofTable t : Query g s).filter p).selectStatement =
      .ok (t.reading (some condition)).statement := by
    have rows : ((Query.ofTable t : Query g s).filter p).plan.rows = .ok ⟨rootSource t, [], some condition⟩ := by
      simp only [Plan.rows, bind_eq_ok]
      exact ⟨_, made, rfl⟩
    simp only [Query.selectStatement, Plan.select, rows]
    rfl
  have checked := Table.reading_checked wide found known made shallow db.engine.store.connection.enforces
  obtain ⟨asked, counted⟩ := Table.reading_asked plain made
  obtain ⟨store, prepared⟩ := State.prepare_select checked (t.reading (some condition)).statement.sql
  have folded : (rowsOf db.engine.store.content (t.reading (some condition))).foldlM
      (Engine.takeRow fun records row => do
        let record ← (Loaded.readOne g s t row).mapError .decoding
        pure (records ++ [record])) [] = .ok records := by
    rw [Table.reading_rows made, Engine.foldlM_takeRow]
    refine foldlM_append_ok ?_ []
    rw [List.forall₂_map_left_iff]
    exact reads.imp fun row l one => mapError_eq_ok.2 one
  have examined : examine db.engine.store.content (t.reading (some condition)) = .ok () :=
    examine_of_matchable _ fun f here => Option.some.inj here ▸ short
  obtain ⟨after, ran, touched, -⟩ := Engine.fold_ready rfl (fun _ => rfl) asked counted checked examined prepared folded
  refine ⟨{ db with engine := after }, ?_, ?_⟩
  · have unjoined : ((Query.ofTable t : Query g s).filter p).loaders.isEmpty = true := rfl
    unfold select
    rw [run_bind, run_known, statement]
    simp only [unjoined, if_true]
    rw [selectPlain, run_onEngine]
    exact congrArg (fun result : Except Failure (List (Loaded g s)) × Engine =>
      (result.1, { db with engine := result.2 })) ran
  · rw [State.content_eq, State.content_eq]
    exact touched.content

end Reading

end RecordMapper
