import RecordMapper.Proofs.Query.Writes
import RecordMapper.Proofs.Schema.Alignment
import RecordMapper.Proofs.Statement.Quotes
import RecordMapper.Proofs.Store.Keys
import RecordMapper.Proofs.Unit.Ensuring

namespace RecordMapper

open RecordMapper.Store RecordMapper.Text

section Names

theorem findIdx?_name {names : List String} (distinct : (names.map foldCase).Nodup) {i : Nat} {name : String}
    (here : names[i]? = some name) : names.findIdx? (sameIgnoringCase name) = some i := by
  obtain ⟨bound, rfl⟩ := List.getElem?_eq_some_iff.1 here
  rw [List.findIdx?_eq_some_iff_getElem]
  refine ⟨bound, sameIgnoringCase_refl _, fun j before same => ?_⟩
  rw [sameIgnoringCase_iff] at same
  have within : j < (names.map foldCase).length := by simpa using Nat.lt_trans before bound
  have folded : (names.map foldCase)[j]? = (names.map foldCase)[i]? := by
    rw [List.getElem?_map, List.getElem?_map, List.getElem?_eq_getElem bound,
      List.getElem?_eq_getElem (Nat.lt_trans before bound), Option.map_some, Option.map_some, same]
  exact Nat.ne_of_lt before ((List.getElem?_inj within distinct).1 folded)

theorem assigned?_name {entries : List (String × Value)} (distinct : (entries.map fun e => foldCase e.1).Nodup)
    {name : String} {v : Value} (member : (name, v) ∈ entries) : assigned? entries name = some (admitted v) := by
  have found : entries.reverse.find? (fun e => sameIgnoringCase e.1 name) = some (name, v) := by
    rcases found : entries.reverse.find? (fun e => sameIgnoringCase e.1 name) with _ | other
    · have missed := List.find?_eq_none.1 found _ (List.mem_reverse.2 member)
      exact absurd (sameIgnoringCase_refl name) missed
    · have same : sameIgnoringCase other.1 name = true := by simpa using List.find?_some found
      rw [sameIgnoringCase_iff] at same
      have known := List.mem_reverse.1 (List.mem_of_find?_eq_some found)
      rw [found, List.inj_on_of_nodup_map distinct known member same]
  rw [assigned?, found, Option.map_some]

end Names

section Rows

variable {c : Content} {t : Table} {values : List Value} {i : Nat} {column : Column} {v : Value}

def Store.Content.withRow (c : Content) (t : Table) (row : StoredRow) : Content :=
  c.replace { c.stored t with rows := StoredTable.insertRow row (c.stored t).rows }

/-- A row that stores values in a table's columns and differs in the key from all that stand there. -/
structure Store.Content.Admits (c : Content) (t : Table) (values : List Value) (row : StoredRow) : Prop where
  kept : ∀ i column v, t.columns[i]? = some column → values[i]? = some v → row.valueAt i = column.dataType.kept v
  settled : row.Settled (c.stored t).columns
  fresh : ∀ old ∈ (c.stored t).rows, old.id ≠ row.id
  apart : ∀ old ∈ (c.stored t).rows, ∃ i column, t.columns[i]? = some column ∧ column.key = true ∧
    sameValue (row.valueAt i) (old.valueAt i) = false

structure Table.BindsKey (t : Table) (values : List Value) : Prop where
  keyed : t.keyColumns ≠ []
  binds : ∀ (i : Nat) (column : Column) (v : Value), t.columns[i]? = some column → column.key = true → values[i]? = some v → column.dataType.Binds v

namespace Store.Content

theorem Holds.mem_keyPositions (holds : c.Holds t) :
    i ∈ (c.stored t).keyPositions ↔ ∃ column, t.columns[i]? = some column ∧ column.key = true := by
  constructor
  · intro inKey
    have bound := holds.key_bound inKey
    refine ⟨_, List.getElem?_eq_getElem bound, ?_⟩
    rw [← Table.keyPlace_pos holds.distinct (List.getElem_mem bound)]
    obtain ⟨k, -, place⟩ := List.mem_flatMap.1 inKey
    have place := (List.mem_filter.1 place).2
    rw [holds.column (List.getElem?_eq_getElem bound)] at place
    simp only [Option.map_some, Option.getD_some, beq_iff_eq] at place
    omega
  · rintro ⟨column, here, key⟩
    have listed := List.mem_of_getElem? here
    have place := (Table.keyPlace_pos holds.distinct listed).2 key
    have stands := holds.column here
    have bound := (List.getElem?_eq_some_iff.1 stands).1
    have last := holds.placed _ (List.mem_of_getElem? stands)
    simp only at last
    refine List.mem_flatMap.2 ⟨keyPlace t.definition (column.definition (t.keyColumns.length == 1)) - 1, ?_, ?_⟩
    · rw [List.mem_range]
      omega
    · rw [List.mem_filter, List.mem_range, stands]
      simp only [Option.map_some, Option.getD_some, beq_iff_eq]
      exact ⟨bound, by omega⟩

theorem Holds.keyed (holds : c.Holds t) (keyed : t.keyColumns ≠ []) : (c.stored t).keyPositions ≠ [] := by
  obtain ⟨column, inKey⟩ := List.exists_mem_of_ne_nil _ keyed
  obtain ⟨listed, key⟩ := List.mem_filter.1 inKey
  obtain ⟨i, here⟩ := List.mem_iff_getElem?.1 listed
  exact List.ne_nil_of_mem (holds.mem_keyPositions.2 ⟨column, here, key⟩)

theorem Holds.given (holds : c.Holds t) (here : t.columns[i]? = some column) (value : values[i]? = some v) :
    (valuesByColumn (c.stored t) (some t.columnNames) values)[i]? = some (admitted v) := by
  have name : t.columnNames[i]? = some column.name := by rw [Table.columnNames, List.getElem?_map, here]; rfl
  have place := findIdx?_name holds.distinct name
  simp only [valuesByColumn, List.getElem?_map, holds.column here, Option.map_some, place, value, Option.getD_some]

theorem Holds.askedId (holds : c.Holds t) (whole : values.length = t.width) (identity : (c.stored t).idColumn? = some i)
    (here : t.columns[i]? = some column) (value : values[i]? = some v) :
    Store.askedId (c.stored t) (some t.columnNames) values = admitted v := by
  have named : (c.stored t).NamesId (t.columnNames.zip values) :=
    fun e member => holds.isRowId (List.of_mem_zip member).1
  have distinct : ((t.columnNames.zip values).map fun e => foldCase e.1).Nodup := by
    have names : (t.columnNames.zip values).map Prod.fst = t.columnNames := by
      rw [List.map_fst_zip]
      rw [whole, Table.columnNames, List.length_map, Table.width]
    have folded := holds.distinct
    rwa [← names, List.map_map] at folded
  have member : (column.name, v) ∈ t.columnNames.zip values := by
    refine List.mem_of_getElem? (i := i) (List.getElem?_zip_eq_some.2 ⟨?_, value⟩)
    rw [Table.columnNames, List.getElem?_map, here]
    rfl
  have asked := assignedId?_eq named identity (holds.column here)
  rw [assigned?_name distinct member] at asked
  exact congrArg (·.getD .null) asked

theorem Holds.key_value (holds : c.Holds t) (binds : t.BindsKey values) (whole : values.length = t.width)
    (inKey : i ∈ (c.stored t).keyPositions) : ∃ column v, t.columns[i]? = some column ∧ values[i]? = some v ∧
      column.dataType.Binds v := by
  obtain ⟨column, here, key⟩ := holds.mem_keyPositions.1 inKey
  have bound : i < values.length := whole ▸ (List.getElem?_eq_some_iff.1 here).1
  have value := List.getElem?_eq_getElem bound
  exact ⟨column, _, here, value, binds.binds i column _ here key value⟩

theorem Holds.rowId (holds : c.Holds t) (binds : t.BindsKey values) (whole : values.length = t.width)
    (identity : (c.stored t).idColumn? = some i) {id next : Int}
    (asked : (if (Store.askedId (c.stored t) (some t.columnNames) values).isNull then pure next
      else idOf (Store.askedId (c.stored t) (some t.columnNames) values)) = .ok id) :
    ∃ column v, t.columns[i]? = some column ∧ values[i]? = some v ∧ column.dataType.Binds v ∧ idOf v = .ok id := by
  have inKey : i ∈ (c.stored t).keyPositions := keyPositions_of_idColumn? identity ▸ List.mem_singleton_self i
  obtain ⟨column, v, here, value, bound⟩ := holds.key_value binds whole inKey
  have some : v.isNull = false := by
    cases v <;> first | exact absurd rfl bound.ne_null | rfl
  rw [holds.askedId whole identity here value, bound.number, some, if_neg Bool.false_ne_true] at asked
  exact ⟨column, v, here, value, bound, asked⟩

/-- One inserted row stores the values and stands apart. -/
theorem Holds.insertOne (holds : c.Holds t) (binds : t.BindsKey values) (whole : values.length = t.width)
    {after : StoredTable} (done : Store.insertOne c (c.stored t) (some t.columnNames) values = .ok after) :
    ∃ row, c.Admits t values row ∧
      after = { c.stored t with rows := StoredTable.insertRow row (c.stored t).rows } := by
  obtain ⟨id, asked, -, fresh, unique, rfl⟩ := insertOne_cases done
  have length : (valuesByColumn (c.stored t) (some t.columnNames) values).length = (c.stored t).columns.length :=
    length_valuesByColumn (by simp)
  have kept : ∀ i column v, t.columns[i]? = some column → values[i]? = some v →
      (rowOf (c.stored t) id (valuesByColumn (c.stored t) (some t.columnNames) values)).valueAt i =
        column.dataType.kept v := by
    intro i column v here value
    rw [valueAt_rowOf (holds.column here) (holds.given here value)]
    split
    · rename_i identity
      obtain ⟨own, w, found, value', bound, asked⟩ := holds.rowId binds whole identity asked
      obtain rfl := Option.some.inj (here.symm.trans found)
      obtain rfl := Option.some.inj (value.symm.trans value')
      have affinity := affinity_of_idColumn? identity (holds.column here)
      rw [← idOf_eq_ok asked, DataType.kept, bound.number]
      exact congrArg (·.stored v) affinity.symm
    · rfl
  have full : ∀ i ∈ (c.stored t).keyPositions,
      (rowOf (c.stored t) id (valuesByColumn (c.stored t) (some t.columnNames) values)).valueAt i ≠ .null := by
    intro i inKey
    obtain ⟨column, v, here, value, bound⟩ := holds.key_value binds whole inKey
    rw [kept i column v here value]
    exact bound.kept_ne_null
  have fits : ∀ i, (c.stored t).idColumn? = some i → IsId id := by
    intro i identity
    obtain ⟨column, v, -, -, -, asked⟩ := holds.rowId binds whole identity asked
    exact isId_idOf asked
  refine ⟨_, ⟨kept, settled_rowOf id (admitted_valuesByColumn _ values), fresh, fun old stored => ?_⟩, rfl⟩
  obtain ⟨i, inKey, apart⟩ := key_apart holds.regular (holds.keyed binds.keyed) fits length fresh unique stored
  have differs := apart.resolve_left (full i inKey)
  obtain ⟨column, here, key⟩ := holds.mem_keyPositions.1 inKey
  exact ⟨i, column, here, key, differs⟩

end Store.Content

theorem Store.Content.Holds.insert (holds : c.Holds t) (binds : t.BindsKey values) (whole : values.length = t.width)
    {after : Content} {n : Nat} (done : Store.insert c t.name (some t.columnNames) [values] = .ok (after, n)) :
    ∃ row, c.Admits t values row ∧ after = c.withRow t row := by
  obtain ⟨own, own', found, all, rfl, -⟩ := insert_eq_ok done
  obtain rfl := stored_of_table? found
  simp only [insertAll, bind_eq_ok] at all
  obtain ⟨middle, one, rest⟩ := all
  obtain rfl := Except.ok.inj rest
  obtain ⟨row, admits, rfl⟩ := holds.insertOne binds whole one
  exact ⟨row, admits, rfl⟩

end Rows

section Statements

variable {t : Table} {values : List Value}

structure Table.Plain (t : Table) : Prop where
  name : '\x00' ∉ t.name.toList
  columns : ∀ name ∈ t.columnNames, '\x00' ∉ name.toList

theorem Table.insert_all (whole : values.length = t.width) :
    t.insert (Selection.all.kept t) values = .ok (.insert t.name (some t.columnNames) [values]) := by
  have all : Selection.all.kept t = List.finRange t.width := List.filter_eq_self.2 fun _ _ => rfl
  have names : t.columnNames.length = values.length := by
    rw [whole, columnNames, List.length_map, width]
  rw [Table.insert, requireWidth, dif_pos whole, all]
  show Except.ok (Sql.Command.insert t.name (some ((t.assignments (List.finRange t.width) ⟨values, whole⟩).map Prod.fst))
    [(t.assignments (List.finRange t.width) ⟨values, whole⟩).map Prod.snd]) = _
  rw [assignments_finRange, List.map_fst_zip (Nat.le_of_eq names), List.map_snd_zip (Nat.le_of_eq names.symm)]

theorem Table.insert_eq_ok {positions : t.Positions} {command : Sql.Command} (found : Selection.all.positions t = .ok positions)
    (made : t.insert positions values = .ok command) :
    values.length = t.width ∧ command = .insert t.name (some t.columnNames) [values] := by
  obtain ⟨-, -, rfl⟩ := Selection.positions_eq_ok_iff.1 found
  by_cases whole : values.length = t.width
  · rw [Table.insert_all whole] at made
    exact ⟨whole, (Except.ok.inj made).symm⟩
  · rw [Table.insert, requireWidth_other whole] at made
    cases made

end Statements

namespace Database

variable {α : Type} {enforces : Bool} {post : Content → α → Content → Prop}

theorem ensures_asked {command : Sql.Command} (plain : isControl command = false) :
    Ensures enforces (execute command.statement) fun _ _ _ => command.statement.asked = .ok command := by
  intro db n after sound done
  obtain ⟨kept, -⟩ := ensures_execute plain db n after sound done
  rw [execute, run_onEngine, Prod.mk.injEq] at done
  have concluded := Engine.execute_concluded (Engine.isPlain_statement plain) db.engine
  rw [done.1] at concluded
  obtain ⟨asked, rows, asks, ended⟩ := concluded
  exact ⟨kept, by rw [asks, Engine.eq_of_asked asks]⟩

theorem ensures_known_bind {β : Type} {outcome : Except Failure β} {next : β → Action α}
    (each : ∀ b, outcome = .ok b → Ensures enforces (next b) post) : Ensures enforces (known outcome >>= next) post := by
  intro db a after sound done
  rw [run_bind, run_known] at done
  cases outcome with
  | error failure => cases done
  | ok b => exact each b rfl db a after sound done

variable {g : ShapeGraph} {s : Fin g.size} {t : Table} {r : (g.shape s).Record} {n : Nat} {db after : Database}

theorem ensures_insertEach {positions : t.Positions} (found : Selection.all.positions t = .ok positions)
    (binds : t.BindsKey ((g.shape s).write r)) :
    Ensures enforces (insertEach (.ofTable t : Query g s) positions [r]) fun c _ c' =>
      t.Plain ∧ (c.Holds t → ∃ row, c.Admits t ((g.shape s).write r) row ∧ c' = c.withRow t row) := by
  refine ensures_known_bind fun statement made => ?_
  simp only [Query.insertStatement] at made
  rcases built : t.insert positions ((g.shape s).write r) with failure | command
  · simp only [Query.ofTable, Plan.ofTable, built] at made
    cases made
  · simp only [Query.ofTable, Plan.ofTable, built] at made
    obtain rfl := Except.ok.inj made
    obtain ⟨whole, rfl⟩ := Table.insert_eq_ok found built
    let command := Sql.Command.insert t.name (some t.columnNames) [(g.shape s).write r]
    have asks : Ensures enforces (execute command.statement) fun _ _ _ => command.statement.asked = .ok command :=
      ensures_asked rfl
    have executes := asks.and (ensures_execute rfl)
    have ends (changed : Nat) : Ensures enforces (insertEach (.ofTable t : Query g s) positions [] >>= fun others =>
        pure (changed + others)) fun c _ c' => c' = c :=
      ((ensures_pure 0).bind fun others => ensures_pure (changed + others)).mono fun c n c' =>
        fun ⟨_, _, ⟨_, first⟩, _, second⟩ => second.trans first
    refine (executes.bind ends).mono fun c n c' => ?_
    rintro ⟨_, _, ⟨asked, ran⟩, rfl⟩
    refine ⟨⟨(Sql.insert_plain asked).1, (Sql.insert_plain asked).2⟩, fun holds => ?_⟩
    rcases ran with ⟨unwritten, -⟩ | ⟨-, effect, done, rfl⟩
    · cases unwritten
    · obtain ⟨content, n, inserted, rfl⟩ := ofRows_eq_ok done
      exact holds.insert binds whole inserted

/-- After one record is inserted, its table has one more row, and nothing else has changed. -/
theorem insert_one (sound : Sound enforces db) (holds : db.engine.store.content.Holds t)
    (binds : t.BindsKey ((g.shape s).write r))
    (done : (insert (.ofTable t : Query g s) [r] .all).run db = (.ok n, after)) :
    Sound enforces after ∧ t.Plain ∧ ∃ row, db.engine.store.content.Admits t ((g.shape s).write r) row ∧
        after.engine.store.content = db.engine.store.content.withRow t row := by
  unfold insert at done
  rcases found : Selection.all.positions t with fault | positions
  · rw [run_bind, run_known] at done
    simp only [Query.ofTable, Plan.ofTable, found] at done
    cases done
  · rw [run_bind, run_known] at done
    simp only [Query.ofTable, Plan.ofTable, found, Except.mapError] at done
    obtain ⟨kept, ⟨plain, adds⟩, -⟩ := atomically_eq_ok (ensures_insertEach found binds) sound done
    exact ⟨kept, plain, adds holds⟩

end Database

section First

variable {c : Content} {t : Table} {values : List Value} {enforces : Bool}

def Store.Content.Unlinked (c : Content) : Prop :=
  ∀ own ∈ c.tables, ∀ column ∈ own.columns, column.reference = none

/-- A table that has no rows yet and takes no row id from its key, and values that fill what it requires. -/
structure Store.Content.Awaits (c : Content) (t : Table) (values : List Value) : Prop where
  holds : c.Holds t
  columns : (c.stored t).columns.length = t.columns.length
  empty : (c.stored t).rows = []
  unnumbered : (c.stored t).idColumn? = none
  unlinked : c.Unlinked
  whole : values.length = t.width
  full : ∀ (i : Nat) (column : Column) (v : Value), t.columns[i]? = some column → values[i]? = some v →
    column.nullable = false → column.dataType.kept v ≠ .null

namespace Store.Content

theorem Unlinked.breaks (unlinked : c.Unlinked) (deferred : Bool) : c.breaks deferred = false := by
  rw [Content.breaks, List.any_eq_false]
  intro own listed
  rw [tableBreaks, Bool.not_eq_true, List.any_eq_false]
  intro i _
  rcases here : own.columns[i]? with _ | column
  · simp
  · simp [unlinked own listed column (List.mem_of_getElem? here)]

theorem Unlinked.referencesTo (unlinked : c.Unlinked) (table : String) : c.referencesTo table = [] := by
  rw [Content.referencesTo, List.flatMap_eq_nil_iff]
  intro own listed
  have none : own.columns.filterMap StoredColumn.reference = [] :=
    List.filterMap_eq_nil_iff.2 (unlinked own listed)
  rw [none]
  rfl

theorem Unlinked.checkReferences (unlinked : c.Unlinked) {own : StoredTable} (listed : own ∈ c.tables) (change : Change) :
    Store.checkReferences c own change = .ok () := by
  unfold Store.checkReferences
  rw [unlinked.referencesTo, forIn_eq_ok]
  · rfl
  · intro column member
    rw [unlinked own listed column member]
    rfl

theorem Unlinked.replace (unlinked : c.Unlinked) {own : StoredTable} (plain : ∀ column ∈ own.columns, column.reference = none) :
    (c.replace own).Unlinked := by
  intro other listed
  obtain ⟨old, known, rfl⟩ := List.mem_map.1 listed
  split
  · exact plain
  · exact unlinked old known

theorem Awaits.askedId (awaits : c.Awaits t values) :
    Store.askedId (c.stored t) (some t.columnNames) values = .null := by
  have none : (t.columnNames.zip values).reverse.find? (fun e => (c.stored t).isRowId e.1) = none := by
    rw [List.find?_eq_none]
    intro e member
    rw [awaits.holds.isRowId (List.of_mem_zip (List.mem_reverse.1 member)).1, awaits.unnumbered]
    simp
  rw [Store.askedId, none]
  rfl

theorem Awaits.checkRequired (awaits : c.Awaits t values) (id : Int) :
    Store.checkRequired (c.stored t) (fun _ => true)
      (rowOf (c.stored t) id (valuesByColumn (c.stored t) (some t.columnNames) values)) = .ok () := by
  let row := rowOf (c.stored t) id (valuesByColumn (c.stored t) (some t.columnNames) values)
  have none : (List.range (c.stored t).columns.length).find? (fun i => true && (c.stored t).idColumn? != some i &&
      ((c.stored t).columns[i]?.map StoredColumn.required).getD false && (row.valueAt i).isNull) = none := by
    rw [List.find?_eq_none]
    intro i inside
    have bound : i < t.columns.length := awaits.columns ▸ List.mem_range.1 inside
    have here : t.columns[i]? = some t.columns[i] := List.getElem?_eq_getElem bound
    have given : i < values.length := awaits.whole ▸ bound
    have value : values[i]? = some values[i] := List.getElem?_eq_getElem given
    have kept : row.valueAt i = t.columns[i].dataType.kept values[i] := by
      rw [valueAt_rowOf (awaits.holds.column here) (awaits.holds.given here value), awaits.unnumbered, if_neg (by simp)]
      rfl
    rw [awaits.holds.column here, kept]
    simp only [Option.map_some, Option.getD_some, Bool.and_eq_true, not_and, Bool.not_eq_true]
    rintro ⟨-, obliged⟩
    have some := awaits.full i _ _ here value (by simpa using obliged)
    cases kept : t.columns[i].dataType.kept values[i] <;> first | exact absurd kept some | rfl
  rw [Store.checkRequired, none]

theorem checkUnique_nil (own : StoredTable) (row : StoredRow) (indexes : List StoredIndex) :
    checkUnique own [] row indexes = .ok () := by
  induction indexes with
  | nil => rfl
  | cons index rest ih => exact ih

theorem Awaits.insertOne (awaits : c.Awaits t values) : ∃ row,
    Store.insertOne c (c.stored t) (some t.columnNames) values = .ok { c.stored t with rows := [row] } := by
  let row := rowOf (c.stored t) (c.stored t).nextId (valuesByColumn (c.stored t) (some t.columnNames) values)
  refine ⟨row, ?_⟩
  unfold Store.insertOne
  simp only [awaits.askedId, awaits.empty]
  show (Store.checkRequired (c.stored t) (fun _ => true) row >>= fun _ => _) = _
  rw [awaits.checkRequired]
  show (checkUnique (c.stored t) [] row (uniqueIndexes c (c.stored t)) >>= fun _ => _) = _
  rw [checkUnique_nil]
  rfl

theorem Awaits.effectOf (awaits : c.Awaits t values) : ∃ after,
    Store.effectOf c enforces (.insert t.name (some t.columnNames) [values]) = .ok ⟨after, some 1⟩ ∧ after.Unlinked := by
  obtain ⟨row, one⟩ := awaits.insertOne
  have found := awaits.holds.table?
  have own := awaits.unlinked _ (List.mem_of_find?_eq_some found)
  have unlinked : (c.replace { c.stored t with rows := [row] }).Unlinked := awaits.unlinked.replace own
  have inserted : Store.insert c t.name (some t.columnNames) [values] =
      .ok (c.replace { c.stored t with rows := [row] }, 1) := by
    simp only [Store.insert, found, insertAll, one]
    rfl
  refine ⟨_, ?_, unlinked⟩
  show Effect.ofRows enforces (Store.insert c t.name (some t.columnNames) [values]) = _
  rw [inserted]
  show (if (enforces && (c.replace { c.stored t with rows := [row] }).breaks false) = true then _ else _) = _
  rw [unlinked.breaks, Bool.and_false]
  rfl

theorem Awaits.checkCommand (awaits : c.Awaits t values) :
    Store.checkCommand c enforces (.insert t.name (some t.columnNames) [values]) = .ok () := by
  have found := awaits.holds.table?
  have listed : c.stored t ∈ c.tables := List.mem_of_find?_eq_some found
  have known : missingNames? (c.stored t) t.columnNames = none := by
    rw [missingNames?, List.find?_eq_none]
    intro name member
    obtain ⟨column, own, rfl⟩ := List.mem_map.1 member
    obtain ⟨i, here⟩ := List.mem_iff_getElem?.1 own
    rw [StoredTable.spot?, awaits.holds.columnIndex? here rfl]
    exact Bool.false_ne_true
  have checked : checkInsert c t.name (some t.columnNames) [values] = .ok (c.stored t) := by
    refine bind_eq_ok.2 ⟨c.stored t, by rw [tableOf, found], ?_⟩
    simp only [known]
    rfl
  unfold Store.checkCommand
  show (checkInsert c t.name (some t.columnNames) [values] >>= fun own =>
    if enforces then Store.checkReferences c own .insert else pure ()) = _
  rw [checked]
  cases enforces with
  | false => rfl
  | true => exact awaits.unlinked.checkReferences listed .insert

theorem Holds.idColumn?_composite (holds : c.Holds t) (composite : 2 ≤ t.keyColumns.length) :
    (c.stored t).idColumn? = none := by
  rcases identity : (c.stored t).idColumn? with _ | i
  · rfl
  · have single : ∀ j ∈ t.keyPositions, j = i := by
      intro j inKey
      have also := holds.mem_keyPositions.2 (Table.mem_keyPositions.1 inKey)
      rwa [keyPositions_of_idColumn? identity, List.mem_singleton] at also
    have sorted := t.sorted_keyPositions
    rw [← t.length_keyPositions] at composite
    match t.keyPositions, composite, single, sorted with
    | first :: second :: _, _, single, sorted =>
      have before := (List.pairwise_cons.1 sorted).1 second List.mem_cons_self
      rw [single first List.mem_cons_self, single second (by simp)] at before
      exact absurd before (Nat.lt_irrefl i)

theorem awaits_createTable (distinct : (t.columnNames.map foldCase).Nodup) (composite : 2 ≤ t.keyColumns.length)
    (whole : values.length = t.width)
    (full : ∀ (i : Nat) (column : Column) (v : Value), t.columns[i]? = some column → values[i]? = some v →
      column.nullable = false → column.dataType.kept v ≠ .null) :
    (createTable .empty t.definition).Awaits t values := by
  have found : (createTable .empty t.definition).table? t.name = some (newTable t.definition) := by
    rw [Content.table?]
    exact List.find?_cons_of_pos (sameIgnoringCase_refl t.name)
  have holds := holds_newTable found distinct
  have stored := stored_of_table? found
  refine ⟨holds, ?_, ?_, holds.idColumn?_composite composite, ?_, whole, full⟩
  · rw [stored]
    simp only [newTable, Table.definition, List.length_map]
  · rw [stored]
    rfl
  · intro own listed column member
    obtain rfl : own = newTable t.definition := List.mem_singleton.1 listed
    obtain ⟨defined, known, rfl⟩ := List.mem_map.1 member
    obtain ⟨column, -, rfl⟩ := List.mem_map.1 known
    rfl

end Store.Content

end First

section Inside

variable {g : ShapeGraph} {s : Fin g.size} {t : Table} {r : (g.shape s).Record} {db : Database}

theorem Selection.positions_all (wide : t.columns ≠ []) : Selection.all.positions t = .ok (Selection.all.kept t) := by
  refine positions_eq_ok_iff.2 ⟨fun _ none => (nomatch none), fun none => ?_, rfl⟩
  obtain ⟨column, listed⟩ := List.exists_mem_of_ne_nil _ wide
  exact kept_eq_nil_iff.1 none column listed trivial

theorem Engine.execute_first {engine : Engine} {values : List Value} (plain : t.Plain)
    (awaits : engine.store.content.Awaits t values)
    (loaded : engine.store.connection.loaded = some engine.store.content)
    (free : engine.store.lockedByOther = false) (current : engine.store.isOutdated = false) :
    ((Engine.execute (Sql.Command.insert t.name (some t.columnNames) [values]).statement).run engine).1 = .ok 1 := by
  obtain ⟨asked, counted⟩ := (Sql.Command.insert_places plain.name plain.columns values).statement
  obtain ⟨after, effect, unlinked⟩ := awaits.effectOf
  refine Engine.execute_runs rfl rfl asked counted loaded awaits.checkCommand rfl effect rfl free current ?_
  rw [State.breaksLate, unlinked.breaks, Bool.and_false]

/-- Inside a unit of work, the first record of a table goes in. -/
theorem Database.insert_first (plain : t.Plain) (wide : t.columns ≠ [])
    (awaits : db.engine.store.content.Awaits t ((g.shape s).write r)) (within : db.nest.isOpen = true)
    (loaded : db.engine.store.connection.loaded = some db.engine.store.content)
    (free : db.engine.store.lockedByOther = false) (current : db.engine.store.isOutdated = false) :
    ((insert (.ofTable t : Query g s) [r] .all).run db).1 = .ok 1 := by
  have executed := Engine.execute_first plain awaits loaded free current
  have made : (Query.ofTable t : Query g s).insertStatement (Selection.all.kept t) r =
      .ok (Sql.Command.insert t.name (some t.columnNames) [(g.shape s).write r]).statement :=
    congrArg (Except.map Sql.Command.statement) (Table.insert_all awaits.whole)
  have each : ((insertEach (.ofTable t : Query g s) (Selection.all.kept t) [r]).run (host.mapNest .entered db)).1 =
      .ok 1 := by
    show ((known ((Query.ofTable t : Query g s).insertStatement (Selection.all.kept t) r) >>= fun statement =>
      execute statement >>= fun changed => pure 0 >>= fun others => pure (changed + others)).run _).1 = _
    rw [run_bind, run_known, made]
    simp only []
    rw [run_bind, execute, run_onEngine]
    simp only [show (host.mapNest .entered db).engine = db.engine from rfl, executed]
    rfl
  have isOpen : (host.nest db).isOpen = true := within
  show ((known ((Selection.all.positions t).mapError .malformed) >>= fun positions =>
    atomically (insertEach (.ofTable t : Query g s) positions [r])).run db).1 = _
  rw [run_bind, run_known, Selection.positions_all wide]
  show (host.run (insertEach (.ofTable t : Query g s) (Selection.all.kept t) [r]).run db).1 = _
  rw [UnitHost.run, if_pos isOpen, UnitHost.runNested]
  rcases ran : (insertEach (.ofTable t : Query g s) (Selection.all.kept t) [r]).run (host.mapNest .entered db) with
    ⟨outcome, after⟩
  rw [ran] at each
  obtain rfl : outcome = .ok 1 := each
  rfl

end Inside

end RecordMapper
