import RecordMapper.Proofs.Query.Columns
import RecordMapper.Proofs.Store.Regular

namespace RecordMapper

open RecordMapper.Store RecordMapper.Text

/-- A content holds the table of a descriptor, with the columns it is created with before any others and rows as the
    engine keeps them. -/
structure Store.Content.Holds (c : Content) (t : Table) : Prop where
  present : (c.table? t.name).isSome
  columns : ∃ more, (c.stored t).columns = (newTable t.definition).columns ++ more ∧
    ∀ column ∈ more, column.keyPosition = 0
  distinct : (t.columnNames.map foldCase).Nodup
  regular : (c.stored t).Regular
  settled : ∀ row ∈ (c.stored t).rows, row.Settled (c.stored t).columns

theorem stored_of_table? {c : Content} {t : Table} {own : StoredTable} (found : c.table? t.name = some own) :
    c.stored t = own := by
  rw [Content.stored, found, Option.getD_some]

theorem definition_names (t : Table) : t.definition.columns.map Sql.ColumnDefinition.name = t.columnNames := by
  simp only [Table.definition, List.map_map]
  rfl

theorem keyPlace_le (t : Table) (column : Sql.ColumnDefinition) (listed : column ∈ t.definition.columns) :
    keyPlace t.definition column ≤ t.columns.length := by
  have some : 0 < t.definition.columns.length := List.length_pos_of_mem listed
  have width : t.definition.columns.length = t.columns.length := List.length_map _
  have key : t.definition.key.length ≤ t.columns.length := by
    simp only [Table.definition]
    split
    · rw [Table.keyNames, List.length_map]
      exact List.length_filter_le _ _
    · exact Nat.zero_le _
  unfold keyPlace
  split
  · omega
  · split
    · rename_i i place
      have bound := (List.findIdx?_eq_some_iff_findIdx_eq.1 place).1
      omega
    · omega

theorem placed_newTable (t : Table) : (newTable t.definition).Placed := by
  intro column own
  simp only [newTable] at own ⊢
  obtain ⟨defined, known, rfl⟩ := List.mem_map.1 own
  have place := keyPlace_le t defined known
  rwa [List.length_map, Table.definition, List.length_map]

namespace Store.Content

variable {c : Content} {t : Table}

theorem Holds.table? (holds : c.Holds t) : c.table? t.name = some (c.stored t) := by
  obtain ⟨own, found⟩ := Option.isSome_iff_exists.1 holds.present
  rw [found, stored_of_table? found]

theorem Holds.placed (holds : c.Holds t) : (c.stored t).Placed := by
  obtain ⟨more, columns, plain⟩ := holds.columns
  intro column listed
  rw [columns, List.mem_append] at listed
  rw [columns, List.length_append]
  rcases listed with own | added
  · exact Nat.le_trans (placed_newTable t column own) (Nat.le_add_right _ _)
  · rw [plain column added]
    exact Nat.zero_le _

theorem Holds.column (holds : c.Holds t) {i : Nat} {column : Column} (here : t.columns[i]? = some column) :
    (c.stored t).columns[i]? = some ⟨column.name, keptType column.dataType.declared, !column.nullable,
      keyPlace t.definition (column.definition (t.keyColumns.length == 1)), none⟩ := by
  obtain ⟨more, columns, -⟩ := holds.columns
  have own : (newTable t.definition).columns[i]? = some ⟨column.name, keptType column.dataType.declared,
      !column.nullable, keyPlace t.definition (column.definition (t.keyColumns.length == 1)), none⟩ := by
    simp only [newTable, Table.definition, List.getElem?_map, here, Option.map_some]
    rfl
  rw [columns, List.getElem?_append_left (List.getElem?_eq_some_iff.1 own).1, own]

theorem Holds.columnIndex? (holds : c.Holds t) {i : Nat} {column : Column} {name : String}
    (here : t.columns[i]? = some column) (same : foldCase column.name = foldCase name) :
    (c.stored t).columnIndex? name = some i := by
  have stands := holds.column here
  have bound := (List.getElem?_eq_some_iff.1 stands).1
  rw [StoredTable.columnIndex?, List.findIdx?_eq_some_iff_getElem]
  refine ⟨bound, ?_, ?_⟩
  · rw [sameIgnoringCase_iff, (List.getElem?_eq_some_iff.1 stands).2]
    exact same
  · intro j before
    have early : j < t.columns.length := Nat.lt_trans before (List.getElem?_eq_some_iff.1 here).1
    have other := holds.column (List.getElem?_eq_getElem early)
    rw [sameIgnoringCase_iff, (List.getElem?_eq_some_iff.1 other).2]
    intro also
    have distinct := holds.distinct
    rw [Table.columnNames, List.map_map] at distinct
    have one := List.inj_on_of_nodup_map distinct (List.getElem_mem early) (List.mem_of_getElem? here)
      (also.trans same.symm)
    have nodup := List.Nodup.of_map _ distinct
    rw [← (List.getElem?_eq_some_iff.1 here).2] at one
    exact Nat.ne_of_lt before ((List.Nodup.getElem_inj_iff nodup).1 one)

theorem Holds.key_bound (holds : c.Holds t) {i : Nat} (inKey : i ∈ (c.stored t).keyPositions) :
    i < t.columns.length := by
  obtain ⟨more, columns, plain⟩ := holds.columns
  have width : (newTable t.definition).columns.length = t.columns.length := by
    simp only [newTable, Table.definition, List.length_map]
  obtain ⟨k, -, place⟩ := List.mem_flatMap.1 inKey
  have place := (List.mem_filter.1 place).2
  rcases Nat.lt_or_ge i t.columns.length with early | late
  · exact early
  · rw [columns, List.getElem?_append_right (width ▸ late)] at place
    rcases added : more[i - (newTable t.definition).columns.length]? with _ | column
    · simp [added] at place
    · simp [added, plain column (List.mem_of_getElem? added)] at place

theorem Holds.isRowId (holds : c.Holds t) {name : String} (listed : name ∈ t.columnNames) :
    (c.stored t).isRowId name = true ↔
      ∃ i column, (c.stored t).idColumn? = some i ∧ (c.stored t).columns[i]? = some column ∧
        sameIgnoringCase name column.name = true := by
  obtain ⟨own, known, rfl⟩ := List.mem_map.1 listed
  obtain ⟨j, here⟩ := List.mem_iff_getElem?.1 known
  have index := holds.columnIndex? here rfl
  have spot : (c.stored t).spot? own.name = some (.column j) := by
    rw [StoredTable.spot?, index]
  rw [StoredTable.isRowId, spot]
  simp only [beq_iff_eq]
  constructor
  · exact fun identity => ⟨j, _, identity, holds.column here, sameIgnoringCase_refl _⟩
  · rintro ⟨i, column, identity, found, same⟩
    have bound := holds.key_bound (keyPositions_of_idColumn? identity ▸ List.mem_singleton_self i)
    have stands := holds.column (List.getElem?_eq_getElem bound)
    obtain rfl := Option.some.inj (stands.symm.trans found)
    have again := holds.columnIndex? (List.getElem?_eq_getElem bound) ((sameIgnoringCase_iff _ _).1 same).symm
    rw [identity, Option.some.inj (again.symm.trans index)]

theorem Holds.conforms (holds : c.Holds t) : c.Conforms t := by
  obtain ⟨more, columns, -⟩ := holds.columns
  constructor
  · intro column listed
    obtain ⟨kept, known, declared⟩ := column?_newTable holds.distinct listed
    rw [StoredTable.column?] at known
    exact ⟨kept, by rw [StoredTable.column?, columns, List.find?_append, known, Option.some_or], declared⟩
  · exact fun row member => (holds.settled row member).values

theorem holds_newTable (found : c.table? t.name = some (newTable t.definition))
    (distinct : (t.columnNames.map foldCase).Nodup) : c.Holds t := by
  have stored := stored_of_table? found
  have empty : (newTable t.definition).rows = [] := rfl
  constructor
  · rw [found]
    rfl
  · rw [stored]
    exact ⟨[], (List.append_nil _).symm, by simp⟩
  · exact distinct
  · rw [stored]
    constructor <;> simp [empty]
  · rw [stored, empty]
    simp

theorem holds_createTable {mark : Sql.Mark} (checked : checkCreate c t.definition mark = .ok ()) :
    (createTable c t.definition).Holds t := by
  have unrepeated := (checkCreate_eq_ok checked).2
  rw [definition_names] at unrepeated
  exact holds_newTable (table?_createTable checked) (nodup_of_repeated? unrepeated).1

/-- A table that is held stays so under every command that does not drop it, while it has fewer rows than there are
    ids. -/
theorem Holds.after {enforces : Bool} {command : Sql.Command} {effect : Effect} (holds : c.Holds t)
    (stays : ∀ dropped, command = .dropTable dropped → sameIgnoringCase t.name dropped = false)
    (accepts : c.Accepts command) (few : (effect.content.stored t).rows.length < 9223372036854775808)
    (done : effectOf c enforces command = .ok effect) : effect.content.Holds t := by
  obtain ⟨own, found⟩ := Option.isSome_iff_exists.1 holds.present
  obtain ⟨own', found', next⟩ := effectOf_next found stays done
  have stored := stored_of_table? found
  have stored' := stored_of_table? found'
  have placed := holds.placed
  have regular := holds.regular
  have settled := holds.settled
  rw [stored] at placed regular settled
  rw [stored'] at few
  obtain ⟨more, columns, plain⟩ := holds.columns
  obtain ⟨added, longer, keyless⟩ := next.columns
  constructor
  · rw [found']
    rfl
  · refine ⟨more ++ added, ?_, ?_⟩
    · rw [stored', longer, ← stored, columns, List.append_assoc]
    · exact fun column member => (List.mem_append.1 member).elim (plain column) (keyless column)
  · exact holds.distinct
  · rw [stored']
    exact regular.next placed accepts next few
  · rw [stored']
    exact next.settled settled

end Store.Content

end RecordMapper
