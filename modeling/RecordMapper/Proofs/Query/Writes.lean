import RecordMapper.Proofs.Query.Built
import RecordMapper.Proofs.Query.Holding
import RecordMapper.Proofs.Query.Counting
import RecordMapper.Proofs.Statement.Assignments

namespace RecordMapper

open RecordMapper.Store RecordMapper.Text

section Chosen

def Store.Content.chosen (c : Content) (t : Table) (filter : Option Predicate) : List StoredRow :=
  (c.stored t).rows.filter fun row => filter.all fun f => f.truth [c.place Sql.rootLabel t row] == some true

variable {c : Content} {t : Table} {filter : Option Predicate} {condition : Option Sql.Condition}

theorem selectedBy_eq (compiled : Predicate.conditionOf ⟨t, []⟩ filter = .ok condition) (row : StoredRow) :
    selectedBy (c.stored t) condition row =
      filter.all fun f => f.truth [c.place Sql.rootLabel t row] == some true := by
  have all : [c.place Sql.rootLabel t row].map Placed.entry = Scope.entries ⟨t, []⟩ := rfl
  have kept := keeps_iff (p := ⟨t, [], filter, [], none⟩) compiled all
  rw [Bool.eq_iff_iff, show selectedBy (c.stored t) condition row = true ↔ _ from kept]
  cases filter <;> simp

theorem filter_selectedBy (compiled : Predicate.conditionOf ⟨t, []⟩ filter = .ok condition) :
    (c.stored t).rows.filter (selectedBy (c.stored t) condition) = c.chosen t filter :=
  List.filter_congr fun row _ => selectedBy_eq compiled row

theorem filter_not_selectedBy (compiled : Predicate.conditionOf ⟨t, []⟩ filter = .ok condition) :
    ((c.stored t).rows.filter fun row => !selectedBy (c.stored t) condition row) =
      (c.stored t).rows.filter (· ∉ c.chosen t filter) := by
  rw [← filter_selectedBy compiled]
  refine List.filter_congr fun row stored => ?_
  cases chosen : selectedBy (c.stored t) condition row <;> simp [stored, chosen]

theorem combinations_chosen (compiled : Predicate.conditionOf ⟨t, []⟩ filter = .ok condition) :
    combinations c ⟨rootSource t, [], condition⟩ =
      (c.chosen t filter).map fun row => [(c.place Sql.rootLabel t row).binding] := by
  rw [← filter_selectedBy compiled]
  unfold combinations linkedRows Content.stored rootSource
  rcases found : c.table? t.name with _ | own
  · rfl
  · simp only [List.foldl_nil, bindingsOf, List.map_map, List.filter_map, Option.getD_some, Content.place,
      Content.stored, found]
    rfl

theorem values_unjoined {p : Plan} (unjoined : p.joins = []) (row : StoredRow) :
    p.scope.columns.map (Bindings.value [(c.place Sql.rootLabel p.root row).binding]) = c.valuesOf p.root row := by
  have linked : List.Forall₂ (Join.Links c p.root row) p.joins [] := unjoined ▸ .nil
  have values := Combination.values_row (k := ⟨row, []⟩) linked
  have placed : (Combination.mk row []).placed c p = [c.place Sql.rootLabel p.root row] := by
    rw [Combination.placed, unjoined]
    rfl
  rw [Combination.row, placed] at values
  exact values.trans (List.append_nil _)

end Chosen

section Reading

variable {g : ShapeGraph} {s : Fin g.size} {q : Query g s} {db : Database}

def Query.unpaged (q : Query g s) : Query g s :=
  { q with plan.paging := none }

def ReadFrom (c : Content) (q : Query g s) (rows : List StoredRow) (records : List (Loaded g s)) : Prop :=
  ∃ ordered, ordered.Perm rows ∧
    List.Forall₂ (fun row l => Loaded.readOne g s q.plan.root (c.valuesOf q.plan.root row) = .ok l) ordered records

theorem Query.rows_unjoined {rows : Sql.Rows} (unjoined : q.plan.joins = []) (compiled : q.plan.rows = .ok rows) :
    ∃ condition, Predicate.conditionOf ⟨q.plan.root, []⟩ q.plan.filter = .ok condition ∧
      rows = ⟨rootSource q.plan.root, [], condition⟩ := by
  simp only [Plan.rows, Plan.scope, unjoined, bind_eq_ok, pure_eq_ok] at compiled
  obtain ⟨condition, made, rfl⟩ := compiled
  exact ⟨condition, made, rfl⟩

/-- A query without joins and paging reads one record from every chosen row. -/
theorem Database.select_unpaged (fits : q.Fits) (unjoined : q.plan.joins = []) {records : List (Loaded g s)}
    (selected : ((select q.unpaged).run db).1 = .ok records) :
    ReadFrom db.engine.store.content q (db.engine.store.content.chosen q.plan.root q.plan.filter) records := by
  have plain : q.unpaged.loaders.isEmpty = true := by
    show q.loaders.isEmpty = true
    rw [fits.loaders_isEmpty, unjoined]
    rfl
  obtain ⟨rows, order, compiled, read⟩ := select_plain_eq_ok plain selected
  obtain ⟨condition, made, rfl⟩ := Query.rows_unjoined (q := q) unjoined compiled
  have window : windowOf q.unpaged = none := by
    rw [windowOf]
    split <;> rfl
  have sorted := List.map_mergeSort (r := fun a b => inOrder order [(db.engine.store.content.place Sql.rootLabel q.plan.root a).binding]
      [(db.engine.store.content.place Sql.rootLabel q.plan.root b).binding]) (s := inOrder order)
    (f := fun row => [(db.engine.store.content.place Sql.rootLabel q.plan.root row).binding])
    (l := db.engine.store.content.chosen q.plan.root q.plan.filter) fun _ _ _ _ => rfl
  rw [mapM_eq_ok, window, Store.select, windowed, combinations_chosen made, ← sorted, List.map_map,
    List.forall₂_map_left_iff] at read
  refine ⟨_, List.mergeSort_perm _ _, read.imp fun row l one => ?_⟩
  rwa [← values_unjoined unjoined row]

end Reading

section Deleting

variable {g : ShapeGraph} {s : Fin g.size} {q : Query g s} {db : Database} {c : Content} {t : Table}

def Store.Content.without (c : Content) (t : Table) (rows : List StoredRow) : Content :=
  c.replace { c.stored t with rows := (c.stored t).rows.filter (· ∉ rows) }

theorem filterIn_eq_ok {scope : Scope} {filter : Option Predicate} {condition : Option Sql.Condition}
    (made : Table.filterIn scope filter = .ok condition) : Predicate.conditionOf scope filter = .ok condition :=
  mapError_eq_ok.1 made

theorem Query.requireUnjoined_joined {operation : String} (joined : q.plan.joins ≠ []) :
    q.requireUnjoined operation = .error (.malformed (.joinedWrite operation)) :=
  if_neg fun none => joined (List.isEmpty_iff.1 none)

namespace Database

/-- Deleting removes the chosen rows and tells their number. -/
theorem delete_chosen {n : Nat} (done : ((delete q).run db).1 = .ok n) :
    n = (db.engine.store.content.chosen q.plan.root q.plan.filter).length ∧
      ((delete q).run db).2.engine.store.content = db.engine.store.content.without q.plan.root
        (db.engine.store.content.chosen q.plan.root q.plan.filter) := by
  obtain ⟨statement, made, rest⟩ := known_bind_run_ok done
  have ran : (delete q).run db = (execute statement).run db := by
    rw [delete, run_bind, run_known, made]
  simp only [Query.deleteStatement, Table.delete, Table.deleteIn, bind_eq_ok, pure_eq_ok] at made
  obtain ⟨_, -, _, ⟨condition, filtered, rfl⟩, rfl⟩ := made
  have plain : isControl (.delete q.plan.root.name condition) = false := rfl
  rw [execute] at rest
  obtain ⟨effect, -, effected, after, counted⟩ := Engine.execute_eq_ok plain rfl (onEngine_run_ok rest)
  obtain ⟨content, m, result, rfl⟩ := ofRows_eq_ok effected
  obtain ⟨own, found, rfl, rfl⟩ := delete_eq_ok result
  have compiled := filterIn_eq_ok filtered
  obtain rfl := stored_of_table? found
  rw [ran, execute, run_onEngine]
  refine ⟨(counted _ rfl).trans (congrArg List.length (filter_selectedBy compiled)), ?_⟩
  simp only []
  rw [after, Content.without, ← filter_not_selectedBy compiled]

theorem delete_runs {command : Sql.Command} {n : Nat} (made : q.deleteStatement = .ok command.statement)
    (executed : ((Engine.execute command.statement).run db.engine).1 = .ok n) : ((delete q).run db).1 = .ok n := by
  rw [delete, run_bind, run_known, made]
  simp only []
  rw [execute, run_onEngine, executed]

theorem delete_joined (joined : q.plan.joins ≠ []) :
    (delete q).run db = (.error (.malformed (.joinedWrite "delete")), db) := by
  rw [delete, run_bind, run_known, Query.deleteStatement, Query.requireUnjoined_joined joined]
  rfl

theorem update_joined (joined : q.plan.joins ≠ []) (r : (g.shape s).Record) (selection : Selection) :
    (update q r selection).run db = (.error (.malformed (.joinedWrite "update")), db) := by
  rw [update, run_bind, run_known, Query.updateStatement, Query.requireUnjoined_joined joined]
  rfl

end Database

end Deleting

section Overwriting

variable {c : Content} {t after : StoredTable} {assignments : List (String × Value)} {old new : StoredRow}

/-- A row as assignments make it of another: each column has what is assigned to it, brought to its affinity, or else
    what it had. -/
structure Store.StoredTable.Overwrites (t : StoredTable) (assignments : List (String × Value)) (old new : StoredRow) :
    Prop where
  values : ∀ i column, t.columns[i]? = some column → new.valueAt i =
    ((assigned? assignments column.name).map column.affinity.stored).getD (old.valueAt i)
  whole : new.values.length = t.columns.length
  id : (∀ a ∈ assignments, t.isRowId a.1 = false) → new.id = old.id

/-- Whether the names assigned to mean the row id where they mean its column. -/
def Store.StoredTable.NamesId (t : StoredTable) (assignments : List (String × Value)) : Prop :=
  ∀ a ∈ assignments, t.isRowId a.1 = true ↔
    ∃ i column, t.idColumn? = some i ∧ t.columns[i]? = some column ∧ sameIgnoringCase a.1 column.name = true

theorem find?_congr_mem {α : Type} {p p' : α → Bool} {entries : List α} (same : ∀ a ∈ entries, p a = p' a) :
    entries.find? p = entries.find? p' := by
  induction entries with
  | nil => rfl
  | cons a entries ih =>
    rw [List.find?_cons, List.find?_cons, same a List.mem_cons_self,
      ih fun b later => same b (List.mem_cons_of_mem _ later)]

theorem assignedId?_eq (named : t.NamesId assignments) {i : Nat} {column : StoredColumn} (identity : t.idColumn? = some i)
    (here : t.columns[i]? = some column) : assignedId? t assignments = assigned? assignments column.name := by
  rw [assignedId?, assigned?]
  congr 1
  refine find?_congr_mem fun a member => ?_
  rw [Bool.eq_iff_iff, named a (List.mem_reverse.1 member)]
  constructor
  · rintro ⟨j, other, place, found, same⟩
    obtain rfl := Option.some.inj (identity.symm.trans place)
    obtain rfl := Option.some.inj (here.symm.trans found)
    exact same
  · exact fun same => ⟨i, column, identity, here, same⟩

theorem idOf_eq_ok {v : Value} {id : Int} (asked : idOf v = .ok id) :
    Affinity.numeric.stored v = .integer (Int64.ofInt id) := by
  unfold idOf at asked
  split at asked
  · rename_i n whole
    cases asked
    rw [whole, Int64.ofInt_toInt]
  · cases asked

theorem updatedRow_overwrites (named : t.NamesId assignments) {id : Int}
    (asked : (match assignedId? t assignments with | some v => idOf v | none => pure old.id) = .ok id)
    (settled : old.Settled t.columns)
    (shown : ∀ i, t.idColumn? = some i → old.valueAt i = .integer (Int64.ofInt old.id)) :
    t.Overwrites assignments old (updatedRow t assignments id old) := by
  constructor
  · intro i column here
    have given : ((t.columns.map fun column => assigned? assignments column.name).mapIdx fun i v =>
        v.getD (old.valueAt i))[i]? = some ((assigned? assignments column.name).getD (old.valueAt i)) := by
      rw [List.getElem?_mapIdx, List.getElem?_map, here]
      rfl
    rw [updatedRow, valueAt_rowOf here given]
    split
    · rename_i identity
      rw [assignedId?_eq named identity here] at asked
      rw [affinity_of_idColumn? identity here]
      generalize assigned? assignments column.name = given at asked ⊢
      cases given with
      | none =>
        obtain rfl := pure_eq_ok.1 asked
        exact (shown i identity).symm
      | some v => exact (idOf_eq_ok asked).symm
    · rcases assigned? assignments column.name with _ | v
      · have kept := settled.values i column here
        rw [Affinity.admitted_of_stored kept] at kept
        exact kept
      · rfl
  · exact length_rowOf (by rw [List.length_mapIdx, List.length_map])
  · intro elsewhere
    have unassigned : assignedId? t assignments = none := by
      rw [assignedId?, Option.map_eq_none_iff, List.find?_eq_none]
      intro a member
      rw [elsewhere a (List.mem_reverse.1 member)]
      decide
    rw [unassigned] at asked
    exact (pure_eq_ok.1 asked).symm

theorem filter_other {rows kept chosen : List StoredRow} (perm : rows.Perm (kept ++ old :: chosen))
    (distinct : (rows.map StoredRow.id).Nodup) : (rows.filter (·.id != old.id)).Perm (kept ++ chosen) := by
  have ids := (perm.map StoredRow.id).nodup_iff.1 distinct
  rw [List.map_append, List.map_cons, List.nodup_append, List.nodup_cons] at ids
  obtain ⟨-, ⟨later, -⟩, apart⟩ := ids
  refine (perm.filter _).trans ?_
  rw [List.filter_append, List.filter_cons_of_neg (by simp), List.filter_eq_self.2, List.filter_eq_self.2]
  · intro row member
    have other : row.id ≠ old.id := fun same => later (same ▸ List.mem_map_of_mem member)
    simpa using other
  · intro row member
    simpa using apart _ (List.mem_map_of_mem member) _ List.mem_cons_self

theorem updateAll_overwrites {rows kept chosen : List StoredRow} (perm : rows.Perm (kept ++ chosen))
    (distinct : (rows.map StoredRow.id).Nodup)
    (overwrites : ∀ old ∈ chosen, ∀ id,
      (match assignedId? t assignments with | some v => idOf v | none => pure old.id) = .ok id →
        t.Overwrites assignments old (updatedRow t assignments id old))
    (done : updateAll c assignments { t with rows := rows } chosen = .ok after) :
    ∃ changed left, after = { t with rows := left } ∧ left.Perm (kept ++ changed) ∧
      List.Forall₂ (t.Overwrites assignments) chosen changed := by
  induction chosen generalizing rows kept with
  | nil =>
    obtain rfl := Except.ok.inj done
    exact ⟨[], _, rfl, perm, .nil⟩
  | cons old chosen ih =>
    simp only [updateAll, bind_eq_ok] at done
    obtain ⟨middle, one, rest⟩ := done
    obtain ⟨id, asked, -, fresh, -, rfl⟩ := updateOne_cases one
    have first := overwrites old List.mem_cons_self id asked
    have others := filter_other perm distinct
    have inserted := insertRow_perm (updatedRow t assignments id old) (rows.filter (·.id != old.id))
    have moved : (StoredTable.insertRow (updatedRow t assignments id old) (rows.filter (·.id != old.id))).Perm
        ((kept ++ [updatedRow t assignments id old]) ++ chosen) := by
      rw [List.append_assoc, List.singleton_append]
      exact (inserted.trans (others.cons _)).trans List.perm_middle.symm
    have apart : ((StoredTable.insertRow (updatedRow t assignments id old) (rows.filter (·.id != old.id))).map
        StoredRow.id).Nodup := by
      rw [(inserted.map StoredRow.id).nodup_iff, List.map_cons, List.nodup_cons]
      refine ⟨fun member => ?_, distinct.sublist (List.filter_sublist.map _)⟩
      obtain ⟨row, other, same⟩ := List.mem_map.1 member
      exact fresh row other same
    obtain ⟨changed, left, rfl, final, all⟩ :=
      ih moved apart (fun other later => overwrites other (List.mem_cons_of_mem _ later)) rest
    rw [List.append_assoc, List.singleton_append] at final
    exact ⟨_ :: changed, left, rfl, final, .cons first all⟩

end Overwriting

section Updating

variable {g : ShapeGraph} {s : Fin g.size} {q : Query g s} {db : Database} {c : Content} {t : Table}

/-- A content in which rows of a table are overwritten, and the other rows are as they were. -/
def Store.Content.Overwritten (c : Content) (t : Table) (assignments : List (String × Value)) (rows : List StoredRow)
    (after : Content) : Prop :=
  ∃ changed left, List.Forall₂ ((c.stored t).Overwrites assignments) rows changed ∧
    left.Perm ((c.stored t).rows.filter (· ∉ rows) ++ changed) ∧ after = c.replace { c.stored t with rows := left }

def Table.written (t : Table) (selection : Selection) (row : List Value) : List (String × Value) :=
  (t.columnNames.zip row).filter fun e => selection.covers e.1

theorem assignments_finRange (row : t.Row) : t.assignments (List.finRange t.width) row = t.columnNames.zip row.1 := by
  have width : (t.columnNames.zip row.1).length = t.width := by
    rw [List.length_zip, Table.columnNames, List.length_map, row.2, Table.width, Nat.min_self]
  refine List.ext_getElem (by simp [Table.assignments, width]) fun i inside _ => ?_
  simp [Table.assignments, Table.columnAt, Table.columnNames, Table.Row.value]
  rfl

theorem assignments_positions {selection : Selection} {positions : t.Positions} {row : t.Row}
    (found : selection.positions t = .ok positions) : t.assignments positions row = t.written selection row.1 := by
  obtain ⟨-, -, rfl⟩ := Selection.positions_eq_ok_iff.1 found
  rw [Table.written, ← assignments_finRange, Table.assignments, Table.assignments, List.filter_map]
  rfl

theorem mem_written {selection : Selection} {row : List Value} {e : String × Value}
    (member : e ∈ t.written selection row) : e.1 ∈ t.columnNames :=
  (List.of_mem_zip (List.mem_filter.1 member).1).1

theorem perm_filter_not_mem {α : Type} [DecidableEq α] (keep : α → Bool) (rows : List α) :
    rows.Perm (rows.filter (· ∉ rows.filter keep) ++ rows.filter keep) := by
  have others : rows.filter (· ∉ rows.filter keep) = rows.filter fun row => !keep row := by
    refine List.filter_congr fun row member => ?_
    cases kept : keep row <;> simp [member, kept]
  rw [others]
  exact ((List.filter_append_perm keep rows).symm.trans List.perm_append_comm)

/-- Updating overwrites the chosen rows in the columns that the selection covers, and tells their number. -/
theorem Database.update_chosen (holds : db.engine.store.content.Holds q.plan.root) {r : (g.shape s).Record}
    {selection : Selection} {n : Nat} (done : ((update q r selection).run db).1 = .ok n) :
    n = (db.engine.store.content.chosen q.plan.root q.plan.filter).length ∧
      db.engine.store.content.Overwritten q.plan.root (q.plan.root.written selection ((g.shape s).write r))
        (db.engine.store.content.chosen q.plan.root q.plan.filter)
        ((update q r selection).run db).2.engine.store.content := by
  obtain ⟨statement, made, rest⟩ := known_bind_run_ok done
  have ran : (update q r selection).run db = (execute statement).run db := by
    rw [update, run_bind, run_known, made]
  simp only [Query.updateStatement, Table.update, Table.updateIn, bind_eq_ok, pure_eq_ok, mapError_eq_ok] at made
  obtain ⟨_, -, positions, found, _, ⟨row, fits, condition, filtered, rfl⟩, rfl⟩ := made
  rw [assignments_positions found, ← requireWidth_eq_ok fits] at ran rest
  have plain : isControl (.update q.plan.root.name (q.plan.root.written selection ((g.shape s).write r)) condition) =
      false := rfl
  rw [execute] at rest
  obtain ⟨effect, -, effected, after, counted⟩ := Engine.execute_eq_ok plain rfl (onEngine_run_ok rest)
  obtain ⟨content, m, result, rfl⟩ := ofRows_eq_ok effected
  obtain ⟨own, own', present, all, rfl, rfl⟩ := update_eq_ok result
  have compiled := filterIn_eq_ok filtered
  obtain rfl := stored_of_table? present
  rw [ran, execute, run_onEngine]
  refine ⟨(counted _ rfl).trans (congrArg List.length (filter_selectedBy compiled)), ?_⟩
  simp only []
  rw [after]
  rw [filter_selectedBy compiled] at all
  have chosen : ∀ row ∈ db.engine.store.content.chosen q.plan.root q.plan.filter,
      row ∈ (db.engine.store.content.stored q.plan.root).rows := fun row member => (List.mem_filter.1 member).1
  have named : (db.engine.store.content.stored q.plan.root).NamesId
      (q.plan.root.written selection ((g.shape s).write r)) := fun e member => holds.isRowId (mem_written member)
  have perm : (db.engine.store.content.stored q.plan.root).rows.Perm
      ((db.engine.store.content.stored q.plan.root).rows.filter
        (· ∉ db.engine.store.content.chosen q.plan.root q.plan.filter) ++
          db.engine.store.content.chosen q.plan.root q.plan.filter) := perm_filter_not_mem _ _
  obtain ⟨changed, left, rfl, rows, overwrites⟩ := updateAll_overwrites perm holds.regular.distinct
    (fun old member id asked => updatedRow_overwrites named asked (holds.settled old (chosen old member))
      fun i identity => holds.regular.shown i identity old (chosen old member)) all
  exact ⟨changed, left, overwrites, rows, rfl⟩

end Updating

/-- Without joins, deleting removes and updating overwrites exactly the rows that the query reads when its paging is
    left out. With joins both are refused and change nothing. -/
theorem Database.writes_cover_unpaged_read {g : ShapeGraph} {s : Fin g.size} (q : Query g s) (built : q.Built)
    (db : Database) (holds : db.engine.store.content.Holds q.plan.root) (r : (g.shape s).Record)
    (selection : Selection) :
    (q.plan.joins ≠ [] →
      (delete q).run db = (.error (.malformed (.joinedWrite "delete")), db) ∧
        (update q r selection).run db = (.error (.malformed (.joinedWrite "update")), db)) ∧
    (q.plan.joins = [] → ∃ rows, rows.Sublist (db.engine.store.content.stored q.plan.root).rows ∧
      (∀ records, ((select q.unpaged).run db).1 = .ok records → ReadFrom db.engine.store.content q rows records) ∧
      (∀ n, ((delete q).run db).1 = .ok n → n = rows.length ∧
        ((delete q).run db).2.engine.store.content = db.engine.store.content.without q.plan.root rows) ∧
      ∀ n, ((update q r selection).run db).1 = .ok n → n = rows.length ∧
        db.engine.store.content.Overwritten q.plan.root (q.plan.root.written selection ((g.shape s).write r)) rows
          ((update q r selection).run db).2.engine.store.content) := by
  refine ⟨fun joined => ⟨delete_joined joined, update_joined joined r selection⟩, fun unjoined => ?_⟩
  refine ⟨db.engine.store.content.chosen q.plan.root q.plan.filter, List.filter_sublist, ?_, ?_, ?_⟩
  · exact fun records selected => select_unpaged built.fits unjoined selected
  · exact fun n deleted => delete_chosen deleted
  · exact fun n updated => update_chosen holds updated

section Shelf

def artistPage : Query shelf artists :=
  (Query.ofTable artistTable).limit 1 0

theorem artistPage_built : artistPage.Built := by
  have described : (shelf.shape artists).descriptor = .ok ⟨artistTable, [albums]⟩ := rfl
  exact .limit 1 0 (.table described)

def artistRows : Sql.Rows :=
  ⟨⟨"artist", "t0"⟩, [], none⟩

def selectArtists : Sql.Command :=
  .select [⟨"t0", "id"⟩] artistRows [] none

def selectPage : Sql.Command :=
  .select [⟨"t0", "id"⟩] artistRows [] (some (Paging.window ⟨some 1, 0⟩))

def deleteArtists : Sql.Command :=
  .delete "artist" none

theorem selectArtists_text : selectArtists.text = "SELECT t0.\"id\" AS \"t0.id\" FROM \"artist\" AS t0" := by
  decide +kernel

theorem selectPage_text :
    selectPage.text = "SELECT t0.\"id\" AS \"t0.id\" FROM \"artist\" AS t0 LIMIT ? OFFSET ?" := by
  decide +kernel

theorem deleteArtists_text : deleteArtists.text = "DELETE FROM \"artist\" AS t0" := by
  decide +kernel

theorem selectArtists_readable : shelfDatabase.engine.Readable selectArtists := by
  have ready := Engine.ready_of_text selectArtists_text (by decide +kernel) (by decide +kernel)
  exact ⟨rfl, fun _ => rfl, ready.1, ready.2, rfl, rfl, rfl⟩

theorem selectPage_readable : shelfDatabase.engine.Readable selectPage := by
  have ready := Engine.ready_of_text selectPage_text (by decide +kernel) (by decide +kernel)
  exact ⟨rfl, fun _ => rfl, ready.1, ready.2, rfl, rfl, rfl⟩

theorem selectArtists_rows : rowsOf shelfContent selectArtists = given [[.integer 1], [.integer 2]] := by
  simp only [rowsOf, selectArtists, Store.select, mergeSort_unordered]
  rfl

theorem selectPage_rows : rowsOf shelfContent selectPage = given [[.integer 1]] := by
  simp only [rowsOf, selectPage, Store.select, mergeSort_unordered]
  rfl

theorem delete_artistPage : ((Database.delete artistPage).run shelfDatabase).1 = .ok 2 := by
  have ready := Engine.ready_of_text deleteArtists_text (by decide +kernel) (by decide +kernel)
  have executed : ((Engine.execute deleteArtists.statement).run shelfDatabase.engine).1 = .ok 2 :=
    Engine.execute_runs rfl rfl ready.1 ready.2 rfl rfl rfl rfl rfl rfl rfl rfl
  exact Database.delete_runs rfl executed

theorem shelf_holds : shelfContent.Holds artistTable where
  present := rfl
  columns := ⟨[], rfl, by simp⟩
  distinct := by decide
  regular := by
    constructor
    · decide
    · intro row stored
      rcases List.mem_pair.1 stored with rfl | rfl
      · exact ⟨by decide, by decide⟩
      · exact ⟨by decide, by decide⟩
    · decide
    · intro i identity row stored
      have first : i = 0 := by
        have place : (shelfContent.stored artistTable).idColumn? = some 0 := by decide
        exact Option.some.inj (identity.symm.trans place)
      subst first
      rcases List.mem_pair.1 stored with rfl | rfl
      · rfl
      · rfl
  settled := by
    intro row stored
    refine ⟨?_, shelf_conforms.settled row stored⟩
    rcases List.mem_pair.1 stored with rfl | rfl
    · decide
    · decide

theorem writes_cover_unpaged_read_page : artistPage.Built ∧ shelfContent.Holds artistPage.plan.root ∧
    ∃ records rows, ((Database.select artistPage.unpaged).run shelfDatabase).1 = .ok records ∧
      ReadFrom shelfContent artistPage rows records ∧ rows.length = 2 ∧
      ((Database.delete artistPage).run shelfDatabase).2.engine.store.content =
        shelfContent.without artistPage.plan.root rows := by
  have selected : ((Database.select artistPage.unpaged).run shelfDatabase).1 = .ok _ :=
    Database.select_plain_runs rfl rfl selectArtists_readable selectArtists_rows (.cons rfl (.cons rfl .nil))
  obtain ⟨rows, -, reads, deletes, -⟩ :=
    (Database.writes_cover_unpaged_read artistPage artistPage_built shelfDatabase shelf_holds ((1 : Int64), ()) .all).2
      rfl
  obtain ⟨two, gone⟩ := deletes 2 delete_artistPage
  exact ⟨artistPage_built, shelf_holds, _, rows, selected, reads _ selected, two.symm, gone⟩

/-- The page has one artist, but deleting by it takes both. -/
theorem delete_page_uncovered : artistPage.Built ∧ artistPage.plan.joins = [] ∧
    ∃ records, ((Database.select artistPage).run shelfDatabase).1 = .ok records ∧ records.length = 1 ∧
      ((Database.delete artistPage).run shelfDatabase).1 = .ok 2 := by
  have selected : ((Database.select artistPage).run shelfDatabase).1 = .ok _ :=
    Database.select_plain_runs rfl rfl selectPage_readable selectPage_rows (.cons rfl .nil)
  exact ⟨artistPage_built, rfl, _, selected, rfl, delete_artistPage⟩

end Shelf

end RecordMapper
