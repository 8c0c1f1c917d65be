import RecordMapper.Proofs.Store.Effects

namespace RecordMapper.Store

open RecordMapper.Text

theorem insertRow_perm (row : StoredRow) (rows : List StoredRow) :
    (StoredTable.insertRow row rows).Perm (row :: rows) := by
  induction rows with
  | nil => exact .refl _
  | cons first rest ih =>
    unfold StoredTable.insertRow
    split
    · exact (ih.cons first).trans (.swap row first rest)
    · exact .refl _

section Shown

variable {t : StoredTable} {i : Nat} {column : StoredColumn} {id : Int} {given : List Value} {v : Value}

theorem idColumn?_bound (identity : t.idColumn? = some i) : i < t.columns.length := by
  unfold StoredTable.idColumn? at identity
  split at identity
  · split at identity
    · rename_i declared
      cases identity
      rcases here : t.columns[i]? with _ | column
      · rw [here] at declared
        cases declared
      · exact (List.getElem?_eq_some_iff.1 here).1
    · cases identity
  · cases identity

theorem keyPositions_of_idColumn? (identity : t.idColumn? = some i) : t.keyPositions = [i] := by
  unfold StoredTable.idColumn? at identity
  split at identity
  · rename_i one
    split at identity
    · rw [one, Option.some.inj identity]
    · cases identity
  · cases identity

theorem length_rowOf (whole : given.length = t.columns.length) :
    (rowOf t id given).values.length = t.columns.length := by
  simp only [rowOf, List.length_mapIdx, List.length_zip]
  omega

theorem valueAt_rowOf (here : t.columns[i]? = some column) (value : given[i]? = some v) :
    (rowOf t id given).valueAt i =
      if t.idColumn? = some i then .integer (Int64.ofInt id) else column.affinity.stored v := by
  have pair : (given.zip t.columns)[i]? = some (v, column) := List.getElem?_zip_eq_some.2 ⟨value, here⟩
  simp only [StoredRow.valueAt, rowOf, List.getElem?_mapIdx, pair, Option.map_some, Option.getD_some, beq_iff_eq]

theorem shown_rowOf (whole : given.length = t.columns.length) (identity : t.idColumn? = some i) :
    (rowOf t id given).valueAt i = .integer (Int64.ofInt id) := by
  have bound := idColumn?_bound identity
  rw [valueAt_rowOf (List.getElem?_eq_getElem bound) (List.getElem?_eq_getElem (whole ▸ bound)), if_pos identity]

end Shown

def IsId (id : Int) : Prop :=
  -9223372036854775808 ≤ id ∧ id < 9223372036854775808

theorem IsId.toInt {id : Int} (fits : IsId id) : (Int64.ofInt id).toInt = id :=
  Int64.toInt_ofInt_of_le fits.1 fits.2

theorem isId_toInt (n : Int64) : IsId n.toInt :=
  ⟨n.le_toInt, n.toInt_lt⟩

/-- Rows have ids of their own, a value for every column, and show the id in the column that is the row id. -/
structure StoredTable.Regular (t : StoredTable) : Prop where
  distinct : (t.rows.map StoredRow.id).Nodup
  ids : ∀ row ∈ t.rows, IsId row.id
  whole : ∀ row ∈ t.rows, row.values.length = t.columns.length
  shown : ∀ i, t.idColumn? = some i → ∀ row ∈ t.rows, row.valueAt i = .integer (Int64.ofInt row.id)

section Ids

variable {t : StoredTable}

theorem freeId_bounds (t : StoredTable) : 1 ≤ t.freeId ∧ t.freeId ≤ t.rows.length + 1 := by
  have grows : ∀ (rows : List StoredRow) (free : Int),
      free ≤ rows.foldl (fun free r => if r.id = free then free + 1 else free) free ∧
        rows.foldl (fun free r => if r.id = free then free + 1 else free) free ≤ rows.length + free := by
    intro rows
    induction rows with
    | nil => exact fun free => ⟨Int.le_refl _, by simp⟩
    | cons row rows ih =>
      intro free
      have later := ih (if row.id = free then free + 1 else free)
      have next : free ≤ (if row.id = free then free + 1 else free) ∧
          (if row.id = free then free + 1 else free) ≤ free + 1 := by
        split <;> omega
      rw [List.foldl_cons, List.length_cons]
      omega
  exact grows t.rows 1

theorem isId_nextId (ids : ∀ row ∈ t.rows, IsId row.id) (few : t.rows.length + 1 < 9223372036854775808) :
    IsId t.nextId := by
  unfold StoredTable.nextId
  split
  · rename_i row last
    have known := ids row (List.mem_of_getLast? last)
    split
    · rename_i below
      have top : StoredTable.lastId = 9223372036854775807 := by decide
      unfold IsId at known ⊢
      omega
    · have bounds := freeId_bounds t
      unfold IsId
      omega
  · exact ⟨by decide, by decide⟩

theorem isId_idOf {v : Value} {id : Int} (asked : idOf v = .ok id) : IsId id := by
  unfold idOf at asked
  split at asked
  · cases asked
    exact isId_toInt _
  · cases asked

theorem checkId_eq_ok {others : List StoredRow} {id : Int} (checked : checkId t others id = .ok ()) :
    ∀ row ∈ others, row.id ≠ id := by
  unfold checkId at checked
  split at checked
  · cases checked
  · rename_i fresh
    exact fun row member same => fresh (List.any_eq_true.2 ⟨row, member, by simpa using same⟩)

end Ids

section Rows

variable {c : Content} {t after : StoredTable}

theorem length_valuesByColumn {columns : Option (List String)} {given : List Value}
    (whole : columns = none → given.length = t.columns.length) :
    (valuesByColumn t columns given).length = t.columns.length := by
  cases columns with
  | none => rw [valuesByColumn, List.length_map, whole rfl]
  | some names => rw [valuesByColumn, List.length_map]

theorem insertOne_cases {columns : Option (List String)} {given : List Value}
    (done : insertOne c t columns given = .ok after) :
    ∃ id, (if (askedId t columns given).isNull then pure t.nextId else idOf (askedId t columns given)) = .ok id ∧
      checkRequired t (fun _ => true) (rowOf t id (valuesByColumn t columns given)) = .ok () ∧
      (∀ row ∈ t.rows, row.id ≠ id) ∧
      checkUnique t t.rows (rowOf t id (valuesByColumn t columns given)) (uniqueIndexes c t) = .ok () ∧
      after = { t with rows := StoredTable.insertRow (rowOf t id (valuesByColumn t columns given)) t.rows } := by
  simp only [insertOne] at done
  split at done
  all_goals
    rename_i null
    simp only [bind_eq_ok, pure_eq_ok] at done
    obtain ⟨id, asked, _, required, _, fresh, _, unique, rfl⟩ := done
    refine ⟨id, ?_, required, checkId_eq_ok fresh, unique, rfl⟩
    simp only [null, if_true, pure_eq_ok, asked, Bool.false_eq_true, if_false]

theorem length_insertAll {columns : Option (List String)} {rows : List (List Value)}
    (done : insertAll c columns t rows = .ok after) : after.rows.length = t.rows.length + rows.length := by
  induction rows generalizing t with
  | nil =>
    obtain rfl := Except.ok.inj done
    rfl
  | cons given rows ih =>
    simp only [Store.insertAll, bind_eq_ok] at done
    obtain ⟨middle, one, rest⟩ := done
    obtain ⟨id, -, -, -, -, rfl⟩ := insertOne_cases one
    rw [ih rest, (insertRow_perm _ _).length_eq, List.length_cons, List.length_cons]
    omega

theorem updateOne_cases {assignments : List (String × Value)} {old : StoredRow}
    (done : updateOne c assignments t old = .ok after) :
    ∃ id, (match assignedId? t assignments with | some v => idOf v | none => pure old.id) = .ok id ∧
      checkRequired t (fun i => ((t.columns.map fun column => assigned? assignments column.name)[i]?).join.isSome)
        (updatedRow t assignments id old) = .ok () ∧
      (∀ row ∈ t.rows.filter (·.id != old.id), row.id ≠ id) ∧
      checkUnique t (t.rows.filter (·.id != old.id)) (updatedRow t assignments id old) (uniqueIndexes c t) = .ok () ∧
      after = { t with
        rows := StoredTable.insertRow (updatedRow t assignments id old) (t.rows.filter (·.id != old.id)) } := by
  simp only [updateOne] at done
  generalize assignedId? t assignments = named at done ⊢
  cases named
  all_goals
    obtain ⟨id, asked, done⟩ := bind_eq_ok.1 done
    simp only [bind_eq_ok, pure_eq_ok] at done
    obtain ⟨_, required, _, fresh, _, unique, rfl⟩ := done
    exact ⟨id, asked, required, checkId_eq_ok fresh, unique, rfl⟩

namespace StoredTable.Regular

theorem withRow (regular : t.Regular) {id : Int} {given : List Value} {others : List StoredRow}
    (fits : IsId id) (fresh : ∀ row ∈ others, row.id ≠ id) (kept : others.Sublist t.rows)
    (whole : given.length = t.columns.length) :
    Regular { t with rows := StoredTable.insertRow (rowOf t id given) others } := by
  have perm := insertRow_perm (rowOf t id given) others
  have rows : ∀ row ∈ StoredTable.insertRow (rowOf t id given) others, row = rowOf t id given ∨ row ∈ t.rows :=
    fun row member => (mem_insertRow member).imp_right fun other => kept.mem other
  constructor
  · rw [(perm.map StoredRow.id).nodup_iff, List.map_cons, List.nodup_cons]
    refine ⟨fun member => ?_, regular.distinct.sublist (kept.map _)⟩
    obtain ⟨row, other, same⟩ := List.mem_map.1 member
    exact fresh row other same
  · intro row member
    rcases rows row member with rfl | old
    · exact fits
    · exact regular.ids row old
  · intro row member
    rcases rows row member with rfl | old
    · exact length_rowOf whole
    · exact regular.whole row old
  · intro i identity row member
    rcases rows row member with rfl | old
    · exact shown_rowOf whole identity
    · exact regular.shown i identity row old

theorem filter (regular : t.Regular) (keep : StoredRow → Bool) : Regular { t with rows := t.rows.filter keep } where
  distinct := regular.distinct.sublist (List.filter_sublist.map _)
  ids row member := regular.ids row (List.mem_filter.1 member).1
  whole row member := regular.whole row (List.mem_filter.1 member).1
  shown i identity row member := regular.shown i identity row (List.mem_filter.1 member).1

theorem insertOne (regular : t.Regular) {columns : Option (List String)} {given : List Value}
    (few : t.rows.length + 1 < 9223372036854775808) (whole : columns = none → given.length = t.columns.length)
    (done : Store.insertOne c t columns given = .ok after) : after.Regular := by
  obtain ⟨id, asked, -, fresh, -, rfl⟩ := insertOne_cases done
  refine regular.withRow ?_ fresh (.refl _) (length_valuesByColumn whole)
  split at asked
  · obtain rfl := pure_eq_ok.1 asked
    exact isId_nextId regular.ids few
  · exact isId_idOf asked

theorem updateOne (regular : t.Regular) {assignments : List (String × Value)} {old : StoredRow} (fits : IsId old.id)
    (done : Store.updateOne c assignments t old = .ok after) : after.Regular := by
  obtain ⟨id, asked, -, fresh, -, rfl⟩ := updateOne_cases done
  refine regular.withRow ?_ fresh List.filter_sublist (by rw [List.length_mapIdx, List.length_map])
  split at asked
  · exact isId_idOf asked
  · obtain rfl := pure_eq_ok.1 asked
    exact fits

theorem insertAll (regular : t.Regular) {columns : Option (List String)} {rows : List (List Value)}
    (few : t.rows.length + rows.length < 9223372036854775808)
    (whole : columns = none → ∀ given ∈ rows, given.length = t.columns.length)
    (done : Store.insertAll c columns t rows = .ok after) : after.Regular := by
  induction rows generalizing t with
  | nil =>
    obtain rfl := Except.ok.inj done
    exact regular
  | cons given rows ih =>
    simp only [Store.insertAll, bind_eq_ok] at done
    obtain ⟨middle, one, rest⟩ := done
    rw [List.length_cons] at few
    have first := regular.insertOne (by omega) (fun none => whole none given List.mem_cons_self) one
    obtain ⟨id, -, -, -, -, rfl⟩ := insertOne_cases one
    refine ih first ?_ (fun none other later => whole none other (List.mem_cons_of_mem _ later)) rest
    rw [(insertRow_perm _ _).length_eq, List.length_cons]
    omega

theorem updateAll (regular : t.Regular) {assignments : List (String × Value)} {chosen : List StoredRow}
    (fits : ∀ row ∈ chosen, IsId row.id) (done : Store.updateAll c assignments t chosen = .ok after) :
    after.Regular := by
  induction chosen generalizing t with
  | nil =>
    obtain rfl := Except.ok.inj done
    exact regular
  | cons old chosen ih =>
    simp only [Store.updateAll, bind_eq_ok] at done
    obtain ⟨middle, one, rest⟩ := done
    have first := regular.updateOne (fits old List.mem_cons_self) one
    exact ih first (fun row later => fits row (List.mem_cons_of_mem _ later)) rest

end StoredTable.Regular

end Rows

section Widening

variable {t : StoredTable}

def StoredTable.Placed (t : StoredTable) : Prop :=
  ∀ column ∈ t.columns, column.keyPosition ≤ t.columns.length

theorem keyPositions_widened (placed : t.Placed) {column : StoredColumn} (plain : column.keyPosition = 0) :
    (t.widened column).keyPositions = t.keyPositions := by
  have inKey : ∀ k, (List.range (t.columns.length + 1)).filter (fun i =>
        (((t.columns ++ [column])[i]?).map fun c => c.keyPosition == k + 1).getD false) =
      (List.range t.columns.length).filter fun i => (t.columns[i]?.map fun c => c.keyPosition == k + 1).getD false := by
    intro k
    rw [List.range_succ, List.filter_append]
    have last : (List.filter (fun i => (((t.columns ++ [column])[i]?).map fun c => c.keyPosition == k + 1).getD false)
        [t.columns.length]) = [] := by
      simp [plain]
    rw [last, List.append_nil]
    refine List.filter_congr fun i bound => ?_
    rw [List.getElem?_append_left (List.mem_range.1 bound)]
  have beyond : (List.range t.columns.length).filter (fun i =>
      (t.columns[i]?.map fun c => c.keyPosition == t.columns.length + 1).getD false) = [] := by
    rw [List.filter_eq_nil_iff]
    intro i bound
    rw [List.getElem?_eq_getElem (List.mem_range.1 bound)]
    have place := placed _ (List.getElem_mem (List.mem_range.1 bound))
    simp only [Option.map_some, Option.getD_some, beq_iff_eq]
    omega
  simp only [StoredTable.keyPositions, StoredTable.widened, List.length_append, List.length_singleton, inKey]
  rw [List.range_succ, List.flatMap_append, List.flatMap_singleton, beyond, List.append_nil]

theorem mem_keyPositions {i : Nat} (member : i ∈ t.keyPositions) : i < t.columns.length := by
  obtain ⟨k, -, place⟩ := List.mem_flatMap.1 member
  exact List.mem_range.1 (List.mem_filter.1 place).1

theorem idColumn?_longer {after : StoredTable} {more : List StoredColumn} (keys : after.keyPositions = t.keyPositions)
    (columns : after.columns = t.columns ++ more) : after.idColumn? = t.idColumn? := by
  simp only [StoredTable.idColumn?, keys]
  split
  · rename_i i one
    have bound : i < t.columns.length := mem_keyPositions (one ▸ List.mem_singleton_self i)
    rw [columns, List.getElem?_append_left bound]
  · rfl

theorem idColumn?_widened (placed : t.Placed) {column : StoredColumn} (plain : column.keyPosition = 0) :
    (t.widened column).idColumn? = t.idColumn? :=
  idColumn?_longer (keyPositions_widened placed plain) rfl

theorem StoredTable.Regular.widened (regular : t.Regular) (placed : t.Placed) {column : StoredColumn}
    (plain : column.keyPosition = 0) : (t.widened column).Regular := by
  constructor
  · rw [StoredTable.widened, List.map_map]
    exact regular.distinct
  · intro row member
    obtain ⟨old, known, rfl⟩ := List.mem_map.1 member
    exact regular.ids old known
  · intro row member
    obtain ⟨old, known, rfl⟩ := List.mem_map.1 member
    simp only [StoredTable.widened, List.length_append, List.length_singleton, regular.whole old known]
  · intro i identity row member
    obtain ⟨old, known, rfl⟩ := List.mem_map.1 member
    rw [idColumn?_widened placed plain] at identity
    have bound := idColumn?_bound identity
    have value := regular.shown i identity old known
    rw [StoredRow.valueAt] at value ⊢
    rwa [List.getElem?_append_left (regular.whole old known ▸ bound)]

theorem StoredTable.Next.keyPositions {c : Content} {command : Sql.Command} {after : StoredTable} (placed : t.Placed)
    (next : t.Next c command after) : after.keyPositions = t.keyPositions := by
  cases next with
  | same | deleted => rfl
  | inserted done =>
    obtain ⟨left, rfl, -⟩ := insertAll_eq_ok done
    rfl
  | updated done =>
    obtain ⟨left, rfl, -⟩ := updateAll_eq_ok done
    rfl
  | widened => exact keyPositions_widened placed rfl

theorem StoredTable.Next.idColumn? {c : Content} {command : Sql.Command} {after : StoredTable} (placed : t.Placed)
    (next : t.Next c command after) : after.idColumn? = t.idColumn? := by
  obtain ⟨more, columns, -⟩ := next.columns
  exact idColumn?_longer (next.keyPositions placed) columns

/-- What the engine asks of a command beyond what a content checks: rows that are given without column names are as wide
    as their table, and a column that is added may be null. -/
structure Content.Accepts (c : Content) (command : Sql.Command) : Prop where
  full : ∀ table rows t, Inserts table none rows command → c.table? table = some t →
    ∀ given ∈ rows, given.length = t.columns.length
  optional : ∀ table column, command = .addColumn table column → column.required = false

/-- A table stays regular whatever a command makes of it, while it has fewer rows than there are ids. -/
theorem StoredTable.Regular.next {c : Content} {command : Sql.Command} {after : StoredTable} (regular : t.Regular)
    (placed : t.Placed) (accepts : c.Accepts command) (next : t.Next c command after)
    (few : after.rows.length < 9223372036854775808) : after.Regular := by
  cases next with
  | same => exact regular
  | inserted done here asked =>
    rw [length_insertAll done] at few
    refine regular.insertAll few ?_ done
    rintro rfl
    exact accepts.full _ _ _ asked here
  | updated done => exact regular.updateAll (fun row chosen => regular.ids row (List.mem_filter.1 chosen).1) done
  | deleted => exact regular.filter _
  | widened => exact regular.widened placed rfl

end Widening

end RecordMapper.Store
