import RecordMapper.Proofs.Statement.Wholeness
import RecordMapper.Proofs.Store.Sifting

namespace RecordMapper

open RecordMapper.Store

section Engine

variable {β : Type} {take : β → List Value → Except Failure β} {start last : β} {engine : Engine}

theorem Engine.acting_ok {ε α : Type} {sql : String} {toFault : ε → Fault}
    {act : Store.State → Except ε α × Store.State} {a : α} {after : Engine}
    (done : (acting sql toFault act).run engine = (.ok a, after)) : (act engine.store).1 = .ok a ∧ after.store = (act engine.store).2 := by
  rw [run_acting] at done
  obtain ⟨outcome, rfl⟩ := Prod.mk.inj done
  exact ⟨mapError_eq_ok.1 outcome, rfl⟩

theorem Store.State.runPlain_checked {s : State} {sql : String} {command : Sql.Command} {result : Rows}
    (looking : looks command = true) (reads : ∀ c, writes c command = false)
    (done : (s.runPlain sql command).1 = .ok result) :
    checkCommand s.content s.connection.enforces command = .ok () ∧ examine s.content command = .ok () := by
  have seen : s.fixView.loadSchema.content = s.content := by
    rw [State.content_eq, State.content_eq, State.outline_loadSchema, State.outline_fixView, Outline.content_fixed]
  unfold runPlain at done
  simp only [looking, Bool.not_true, Bool.false_eq_true, if_false] at done
  rcases checked : checkCommand s.content s.connection.enforces command with fault | _
  · obtain ⟨cause, failed⟩ := (s.refuseStale_failed sql command fault.cause).1
    rw [checked] at done
    simp only [failed] at done
    cases done
  · simp only [checked, reads, Bool.false_eq_true, if_false, seen] at done
    obtain ⟨_, examined, -⟩ := map_eq_ok.1 done
    exact ⟨rfl, examined⟩

theorem Engine.fold_checked {command : Sql.Command} (plain : isControl command = false) (looking : looks command = true)
    (reads : ∀ c, writes c command = false) (done : ((fold command.statement take start).run engine).1 = .ok last) :
    command.statement.asked = .ok command ∧
      checkCommand engine.store.content engine.store.connection.enforces command = .ok () ∧
      examine engine.store.content command = .ok () := by
  obtain ⟨asked, ready, made, rest⟩ := run_bind_ok done
  obtain ⟨same, asks⟩ := prepare_outline command.statement engine
  rw [made] at same asks
  have own := asks asked rfl
  obtain rfl := eq_of_asked own
  obtain ⟨read, after, ran, -⟩ := run_bind_ok rest
  have checked := (acting_ok ran).1
  rw [ready.store.run_plain _ plain] at checked
  have found := State.runPlain_checked looking reads checked
  refine ⟨own, ?_⟩
  have content : ready.store.content = engine.store.content := by
    rw [State.content_eq, State.content_eq]
    exact congrArg Outline.content same
  have enforces : ready.store.connection.enforces = engine.store.connection.enforces := congrArg Outline.enforces same
  rwa [content, enforces] at found

end Engine

variable {g : ShapeGraph} {s : Fin g.size} {q : Query g s} {rows : Sql.Rows} {order : List Sql.OrderTerm}

namespace Query

def reading (q : Query g s) (rows : Sql.Rows) (order : List Sql.OrderTerm) : Sql.Command :=
  .select q.plan.scope.columns rows order (Database.windowOf q)

def rowsRead (q : Query g s) (c : Content) (rows : Sql.Rows) (order : List Sql.OrderTerm) : List (List Value) :=
  Store.select c q.plan.scope.columns rows order (Database.windowOf q)

def recordsOf (q : Query g s) (rows : List (List Value)) : Except Failure (List (Loaded g s)) :=
  if q.loaders.isEmpty then
    (rows.mapM (Loaded.readOne g s q.plan.root)).mapError .decoding
  else do
    let hydration ← rows.foldlM Hydration.taking (Hydration.empty q.plan.root q.loaders)
    let records ← hydration.finish.mapError .decoding
    pure (match q.plan.heldPaging? with
      | some paging => paging.apply records
      | none => records)

/-- What a query asks of a content before it reads any of its rows. -/
structure Asks (q : Query g s) (c : Content) (rows : Sql.Rows) (order : List Sql.OrderTerm) : Prop where
  made : q.plan.rows = .ok rows
  ordered : q.plan.orderTerms = .ok order
  plain : q.plan.Plain
  checked : checkCommand c true (q.reading rows order) = .ok ()
  examined : examine c (q.reading rows order) = .ok ()

theorem select_eq_ok_iff {command : Sql.Command} : q.plan.select = .ok command ↔
    ∃ rows order, q.plan.rows = .ok rows ∧ q.plan.orderTerms = .ok order ∧ command = q.reading rows order := by
  simp only [Plan.select, bind_eq_ok, pure_eq_ok]
  constructor
  · rintro ⟨rows, made, order, ordered, rfl⟩
    exact ⟨rows, order, made, ordered, rfl⟩
  · rintro ⟨rows, order, made, ordered, rfl⟩
    exact ⟨rows, made, order, ordered, rfl⟩

theorem selectStatement_eq_ok_iff {statement : Sql.Statement} : q.selectStatement = .ok statement ↔
    ∃ rows order, q.plan.rows = .ok rows ∧ q.plan.orderTerms = .ok order ∧ statement = (q.reading rows order).statement := by
  simp only [selectStatement, mapError_eq_ok, map_eq_ok, select_eq_ok_iff]
  constructor
  · rintro ⟨_, ⟨rows, order, made, ordered, rfl⟩, rfl⟩
    exact ⟨rows, order, made, ordered, rfl⟩
  · rintro ⟨rows, order, made, ordered, rfl⟩
    exact ⟨_, ⟨rows, order, made, ordered, rfl⟩, rfl⟩

theorem fold_eq_ok_iff {β : Type} {take : β → List Value → Except Failure β} {start last : β} {engine : Engine}
    (made : q.plan.rows = .ok rows) (ordered : q.plan.orderTerms = .ok order) :
    ((Engine.fold (q.reading rows order).statement take start).run engine).1 = .ok last ↔
      q.Asks engine.store.content rows order ∧
        (q.rowsRead engine.store.content rows order).foldlM take start = .ok last := by
  constructor
  · intro done
    obtain ⟨asked, checked, examined⟩ := Engine.fold_checked rfl rfl (fun _ => rfl) done
    have taken := Engine.fold_eq_ok rfl (fun _ => rfl) done
    rw [reading, rowsOf, Engine.foldlM_takeRow] at taken
    exact ⟨⟨made, ordered, Plan.plain_of_asked made ordered asked, checked, examined⟩, taken⟩
  · rintro ⟨⟨_, _, plain, checked, examined⟩, taken⟩
    have generated := Generated.select plain (select_eq_ok_iff.2 ⟨rows, order, made, ordered, rfl⟩)
    obtain ⟨filter, -, places⟩ := generated.places
    obtain ⟨asked, counted⟩ := places.statement
    have suits : checkCommand engine.store.content engine.store.connection.enforces (q.reading rows order) = .ok () :=
      checked
    obtain ⟨store, prepared⟩ := State.prepare_select suits (q.reading rows order).statement.sql
    have folded : (rowsOf engine.store.content (q.reading rows order)).foldlM (Engine.takeRow take) start = .ok last := by
      rw [reading, rowsOf, Engine.foldlM_takeRow]
      exact taken
    obtain ⟨after, ran, -⟩ := Engine.fold_ready rfl (fun _ => rfl) asked counted suits examined prepared folded
    rw [ran]

end Query

namespace Database

variable {db : Database} {records : List (Loaded g s)}

theorem selectPlain_eq_ok_iff (made : q.plan.rows = .ok rows) (ordered : q.plan.orderTerms = .ok order) :
    ((selectPlain q (q.reading rows order).statement).run db).1 = .ok records ↔
      q.Asks db.engine.store.content rows order ∧
        (q.rowsRead db.engine.store.content rows order).mapM (Loaded.readOne g s q.plan.root) = .ok records := by
  rw [selectPlain, run_onEngine, Query.fold_eq_ok_iff made ordered, mapM_eq_ok]
  refine and_congr_right fun _ => ?_
  constructor
  · intro taken
    obtain ⟨results, same, reads⟩ := foldlM_append taken
    rw [same, List.nil_append]
    exact reads.imp fun row l one => mapError_eq_ok.1 one
  · intro reads
    exact foldlM_append_ok (reads.imp fun row l one => mapError_eq_ok.2 one) []

theorem selectJoined_eq_ok_iff (made : q.plan.rows = .ok rows) (ordered : q.plan.orderTerms = .ok order) :
    ((selectJoined q (q.reading rows order).statement).run db).1 = .ok records ↔
      q.Asks db.engine.store.content rows order ∧ ∃ hydration,
        (q.rowsRead db.engine.store.content rows order).foldlM Hydration.taking
          (Hydration.empty q.plan.root q.loaders) = .ok hydration ∧
        ∃ all, hydration.finish = .ok all ∧ (match q.plan.heldPaging? with
          | some paging => paging.apply all
          | none => all) = records := by
  rw [selectJoined_taking]
  constructor
  · intro done
    obtain ⟨hydration, after, folded, rest⟩ := onEngine_bind_run_ok done
    obtain ⟨all, finished, rest⟩ := known_bind_run_ok rest
    obtain ⟨asks, taken⟩ := (Query.fold_eq_ok_iff made ordered).1 folded
    exact ⟨asks, hydration, taken, all, mapError_eq_ok.1 finished, Except.ok.inj rest⟩
  · rintro ⟨asks, hydration, taken, all, finished, rfl⟩
    have folded := (Query.fold_eq_ok_iff made ordered).2 ⟨asks, taken⟩
    rw [run_bind, run_onEngine, folded]
    simp only []
    rw [run_bind, run_known, finished]
    rfl

/-- A query gives records exactly if the content has what it asks and its rows make them. -/
theorem select_eq_ok_iff : ((select q).run db).1 = .ok records ↔
    ∃ rows order, q.Asks db.engine.store.content rows order ∧
      q.recordsOf (q.rowsRead db.engine.store.content rows order) = .ok records := by
  have stated {rows : Sql.Rows} {order : List Sql.OrderTerm} (made : q.plan.rows = .ok rows)
      (ordered : q.plan.orderTerms = .ok order) :
      ((if q.loaders.isEmpty then selectPlain q (q.reading rows order).statement
        else selectJoined q (q.reading rows order).statement).run db).1 = .ok records ↔
      q.Asks db.engine.store.content rows order ∧
        q.recordsOf (q.rowsRead db.engine.store.content rows order) = .ok records := by
    rw [Query.recordsOf]
    by_cases alone : q.loaders.isEmpty = true
    · rw [if_pos alone, if_pos alone, mapError_eq_ok]
      exact selectPlain_eq_ok_iff made ordered
    · rw [if_neg alone, if_neg alone]
      simp only [bind_eq_ok, mapError_eq_ok, pure_eq_ok]
      exact selectJoined_eq_ok_iff made ordered
  constructor
  · intro done
    obtain ⟨statement, written, rest⟩ := known_bind_run_ok done
    obtain ⟨rows, order, made, ordered, rfl⟩ := Query.selectStatement_eq_ok_iff.1 written
    exact ⟨rows, order, (stated made ordered).1 rest⟩
  · rintro ⟨rows, order, asks, read⟩
    have written := Query.selectStatement_eq_ok_iff.2 ⟨rows, order, asks.made, asks.ordered, rfl⟩
    rw [select, run_bind, run_known, written]
    exact (stated asks.made asks.ordered).2 ⟨asks, read⟩

end Database

section Serving

theorem refuse_eq_ok {fault : Option Fault} : refuse fault = .ok () ↔ fault = none := by
  cases fault <;> simp [refuse]

theorem checkColumns_eq_ok {sources : Sources} {lookups : List Lookup} :
    checkColumns sources lookups = .ok () ↔ ∀ column ∈ lookups.map Lookup.column, sources.has column = true := by
  rw [checkColumns, refuse_eq_ok, Option.map_eq_none_iff, List.find?_eq_none, List.forall_mem_map]
  refine forall₂_congr fun l _ => ?_
  rw [Bool.not_eq_true', Bool.not_eq_false]
  rfl

theorem columns_linked (links : List Sql.Link) :
    (linked links).map Lookup.column = Sql.columnsOf (links.flatMap Sql.Link.pieces) := by
  rw [linked, List.map_map]
  exact List.map_id _

theorem Scope.Finds.mem_columns {s : Scope} {c : Sql.ColumnName} (found : s.Finds c) : c ∈ s.columns := by
  obtain ⟨ref, resolved⟩ := found
  obtain ⟨e, entry, has, rfl⟩ := Scope.resolve_eq_ok.1 resolved
  exact List.mem_flatMap.2 ⟨e, Scope.entry_mem entry, List.mem_map.2 ⟨_, (e.table.hasColumn_iff _).1 has, rfl⟩⟩

structure Plan.Served (p : Plan) (c : Content) : Prop where
  wide : p.scope.columns ≠ []
  known : ∃ sources, sourcesOf c ⟨rootSource p.root, linksOf p.joins, none⟩ = .ok sources ∧
    (∀ column ∈ p.scope.columns, sources.has column = true) ∧
    ∀ column ∈ Sql.columnsOf ((linksOf p.joins).flatMap Sql.Link.pieces), sources.has column = true

theorem textFault?_eq_none {columns : List Sql.ColumnName} {window : Option Sql.Window} :
    textFault? (.select columns rows order window) = none ↔ columns ≠ [] ∧ stackable rows.filter := by
  cases columns with
  | nil => simp [textFault?]
  | cons column columns =>
    have deep : isTooDeep (.select (column :: columns) rows order window) = false ↔ stackable rows.filter := by
      rw [stackable, isTooDeep, conditionPlace?]
      cases rows.filter with
      | none => simp
      | some f => simp
    simp only [textFault?, ite_eq_right_iff, reduceCtorEq, imp_false, Bool.not_eq_true, deep, ne_eq, not_false_eq_true,
      true_and]

variable {c : Content}

theorem checkReading_eq_ok {head list : List Sql.Piece} : checkReading c head list rows order = .ok () ↔
    ∃ sources, sourcesOf c rows = .ok sources ∧ (∀ column ∈ Sql.columnsOf list, sources.has column = true) ∧
      checkFilter sources (byteLength head + byteLength list + " FROM ".utf8ByteSize + byteLength rows.fromPieces)
        rows.filter = .ok () ∧
      (∀ column ∈ Sql.columnsOf (rows.links.flatMap Sql.Link.pieces), sources.has column = true) ∧
      ∀ column ∈ Sql.columnsOf (Sql.orderPieces order), sources.has column = true := by
  rw [checkReading, bind_eq_ok]
  refine exists_congr fun sources => and_congr_right fun _ => ?_
  simp only [bind_unit_eq_ok, checkColumns_eq_ok, columns_placed, columns_linked]

namespace Query

theorem filter_columns (made : q.plan.rows = .ok rows) :
    ∀ f ∈ rows.filter, ∀ column ∈ Sql.columnsOf f.pieces, column ∈ q.plan.scope.columns := by
  simp only [Plan.rows, bind_eq_ok, pure_eq_ok] at made
  obtain ⟨filter, compiled, rfl⟩ := made
  rintro f here column named
  obtain rfl : filter = some f := here
  cases filtered : q.plan.filter with
  | none =>
    rw [filtered] at compiled
    cases compiled
  | some p =>
    simp only [filtered, Predicate.conditionOf, bind_eq_ok, pure_eq_ok] at compiled
    obtain ⟨_, compiled, same⟩ := compiled
    cases same
    exact (p.condition_columns compiled column named).mem_columns

theorem order_columns (ordered : q.plan.orderTerms = .ok order) :
    ∀ column ∈ Sql.columnsOf (Sql.orderPieces order), column ∈ q.plan.scope.columns := by
  have found : ∀ t ∈ order, t.column ∈ q.plan.scope.columns := by
    intro t listed
    obtain ⟨i, here⟩ := List.getElem?_of_mem listed
    obtain ⟨term, -, found⟩ := forall₂_getElem? (mapM_eq_ok.1 ordered).flip here
    simp only [bind_eq_ok, pure_eq_ok] at found
    obtain ⟨column, resolved, rfl⟩ := found
    exact Scope.Finds.mem_columns ⟨term.column, resolved⟩
  have pieces : Sql.columnsOf (Sql.orderPieces order) = order.map Sql.OrderTerm.column := by
    cases order with
    | nil => rfl
    | cons t order =>
      show Sql.columnsOf (Sql.Piece.separated ", " ((t :: order).map Sql.OrderTerm.pieces)) = _
      rw [columnsOf_separated, List.flatMap_map, List.map_eq_flatMap]
      rfl
  rw [pieces, List.forall_mem_map]
  exact found

theorem checked_iff (made : q.plan.rows = .ok rows) (ordered : q.plan.orderTerms = .ok order) (enforces : Bool) :
    checkCommand c enforces (q.reading rows order) = .ok () ↔ q.plan.Served c ∧ stackable rows.filter := by
  have from' : sourcesOf c rows = sourcesOf c ⟨rootSource q.plan.root, linksOf q.plan.joins, none⟩ := by
    simp only [Plan.rows, bind_eq_ok, pure_eq_ok] at made
    obtain ⟨filter, -, rfl⟩ := made
    rfl
  have links : rows.links = linksOf q.plan.joins := by
    simp only [Plan.rows, bind_eq_ok, pure_eq_ok] at made
    obtain ⟨filter, -, rfl⟩ := made
    rfl
  have filtered := filter_columns made
  have sorted := order_columns ordered
  rw [reading, checkCommand, bind_unit_eq_ok, refuse_eq_ok, textFault?_eq_none, checkReading_eq_ok, from', links,
    columnsOf_list]
  constructor
  · rintro ⟨⟨wide, shallow⟩, sources, found, listed, -, linked, -⟩
    exact ⟨⟨wide, sources, found, listed, linked⟩, shallow⟩
  · rintro ⟨⟨wide, sources, found, listed, linked⟩, shallow⟩
    refine ⟨⟨wide, shallow⟩, sources, found, listed, ?_, linked, fun column named => ?_⟩
    · exact checkFilter_known fun f here column named => listed column (filtered f here column named)
    · exact listed column (sorted column named)

/-- What a query asks of a content: a filter and order that can be written and are not too deep, names without U+0000, that
    the content serves the plan, and that the filter can be said of each row. -/
theorem asks_iff : q.Asks c rows order ↔ q.plan.rows = .ok rows ∧ q.plan.orderTerms = .ok order ∧ q.plan.Plain ∧
    q.plan.Served c ∧ stackable rows.filter ∧ ∀ b ∈ linkedRows c rows, sift b rows.filter = .ok (keeps b rows.filter) := by
  constructor
  · rintro ⟨made, ordered, plain, checked, examined⟩
    obtain ⟨served, shallow⟩ := (checked_iff made ordered true).1 checked
    exact ⟨made, ordered, plain, served, shallow, examine_eq_ok.1 examined⟩
  · rintro ⟨made, ordered, plain, served, shallow, sifted⟩
    exact ⟨made, ordered, plain, (checked_iff made ordered true).2 ⟨served, shallow⟩, examine_eq_ok.2 sifted⟩

end Query

end Serving

end RecordMapper
