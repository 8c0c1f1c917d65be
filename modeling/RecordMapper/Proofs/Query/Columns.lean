import RecordMapper.Proofs.Query.Combination
import RecordMapper.Proofs.Record.Decoding
import RecordMapper.Proofs.Schema.Description
import RecordMapper.Proofs.Store.Effects
import RecordMapper.Proofs.Store.Sameness

namespace RecordMapper

open RecordMapper.Store RecordMapper.Text

/-- A stored table has the columns that a descriptor's table is created with, whatever its key, and rows as the engine
    stores them. -/
structure Store.Content.Conforms (c : Content) (t : Table) : Prop where
  columns : ∀ column ∈ t.columns, ∃ kept, (c.stored t).column? column.name = some kept ∧
    kept.declared = keptType column.dataType.declared
  settled : (c.stored t).Settled

section Creation

theorem nodup_of_repeated? {seen names : List String} (distinct : checkCreate.repeated? seen names = none) :
    (names.map foldCase).Nodup ∧ ∀ name ∈ names, ∀ before ∈ seen, foldCase name ≠ foldCase before := by
  induction names generalizing seen with
  | nil => exact ⟨List.nodup_nil, by simp⟩
  | cons name names ih =>
    rw [checkCreate.repeated?] at distinct
    split at distinct
    · cases distinct
    · rename_i new
      obtain ⟨others, apart⟩ := ih distinct
      have fresh : ∀ before ∈ seen, foldCase name ≠ foldCase before := by
        intro before member same
        exact new (List.any_eq_true.2 ⟨before, member, (sameIgnoringCase_iff _ _).2 same⟩)
      refine ⟨?_, ?_⟩
      · rw [List.map_cons, List.nodup_cons]
        refine ⟨?_, others⟩
        intro member
        obtain ⟨other, later, same⟩ := List.mem_map.1 member
        exact apart other later name List.mem_cons_self same
      · intro other member before known
        rcases List.mem_cons.1 member with rfl | later
        · exact fresh before known
        · exact apart other later before (List.mem_cons_of_mem _ known)

theorem column?_newTable {t : Table} (distinct : (t.columnNames.map foldCase).Nodup) {column : Column}
    (listed : column ∈ t.columns) :
    ∃ kept, (newTable t.definition).column? column.name = some kept ∧
      kept.declared = keptType column.dataType.declared := by
  have columns : ∀ kept ∈ (newTable t.definition).columns, ∃ own ∈ t.columns,
      kept.name = own.name ∧ kept.declared = keptType own.dataType.declared := by
    intro kept member
    simp only [newTable, Table.definition, List.map_map] at member
    obtain ⟨own, known, rfl⟩ := List.mem_map.1 member
    exact ⟨own, known, rfl, rfl⟩
  rcases found : (newTable t.definition).column? column.name with _ | kept
  · have here : ∃ kept ∈ (newTable t.definition).columns, kept.name = column.name := by
      simp only [newTable, Table.definition, List.map_map]
      exact ⟨_, List.mem_map_of_mem listed, rfl⟩
    obtain ⟨kept, member, same⟩ := here
    have missed := List.find?_eq_none.1 found kept member
    rw [same, sameIgnoringCase_refl] at missed
    exact absurd rfl missed
  · obtain ⟨own, known, name, declared⟩ := columns kept (List.mem_of_find?_eq_some found)
    have folded : foldCase own.name = foldCase column.name := by
      rw [← name]
      have same := List.find?_some found
      exact (sameIgnoringCase_iff _ _).1 same
    rw [Table.columnNames, List.map_map] at distinct
    have one : own = column := List.inj_on_of_nodup_map distinct known listed folded
    exact ⟨kept, rfl, by rw [declared, one]⟩

theorem table?_createTable {c : Content} {t : Table} {mark : Sql.Mark}
    (checked : checkCreate c t.definition mark = .ok ()) :
    (createTable c t.definition).table? t.name = some (newTable t.definition) := by
  have none : c.tables.find? (fun other => sameIgnoringCase other.name t.name) = none := (checkCreate_eq_ok checked).1
  rw [Content.table?, createTable, List.find?_append, none, Option.none_or, List.find?_cons_of_pos]
  exact sameIgnoringCase_refl t.name

/-- A content in which the table of a descriptor has been created, and that commands have changed since without
    dropping the table. -/
inductive Store.Content.Keeps (t : Table) : Content → Prop where
  | created {c : Content} {mark : Sql.Mark} (settled : c.Settled)
      (checked : checkCreate c t.definition mark = .ok ()) : Keeps t (createTable c t.definition)
  | changed {c : Content} {enforces : Bool} {command : Sql.Command} {effect : Effect} (keeps : c.Keeps t)
      (stays : ∀ dropped, command = .dropTable dropped → sameIgnoringCase t.name dropped = false)
      (done : effectOf c enforces command = .ok effect) : Keeps t effect.content

variable {c : Content} {t : Table}

theorem Store.Content.Keeps.settled (keeps : c.Keeps t) : c.Settled := by
  induction keeps with
  | created settled =>
    rename_i c mark _
    have done : effectOf c true (.createTable t.definition mark) = .ok ⟨createTable c t.definition, none⟩ := rfl
    exact effectOf_settled settled done
  | changed _ _ done ih => exact effectOf_settled ih done

theorem Store.Content.Keeps.columns (keeps : c.Keeps t) : ∃ own, c.table? t.name = some own ∧
    ∀ column ∈ t.columns, ∃ kept, own.column? column.name = some kept ∧
      kept.declared = keptType column.dataType.declared := by
  induction keeps with
  | created _ checked =>
    have names : t.definition.columns.map Sql.ColumnDefinition.name = t.columnNames := by
      simp only [Table.definition, List.map_map]
      rfl
    have unrepeated := (checkCreate_eq_ok checked).2
    rw [names] at unrepeated
    exact ⟨_, table?_createTable checked, fun column => column?_newTable (nodup_of_repeated? unrepeated).1⟩
  | changed _ stays done ih =>
    obtain ⟨own, found, listed⟩ := ih
    obtain ⟨own', more, found', longer⟩ := effectOf_columns found stays done
    refine ⟨own', found', fun column member => ?_⟩
    obtain ⟨kept, known, declared⟩ := listed column member
    rw [StoredTable.column?] at known
    exact ⟨kept, by rw [StoredTable.column?, longer, List.find?_append, known, Option.some_or], declared⟩

theorem Store.Content.Keeps.conforms (keeps : c.Keeps t) : c.Conforms t := by
  obtain ⟨own, found, listed⟩ := keeps.columns
  have stored : c.stored t = own := by rw [Content.stored, found, Option.getD_some]
  constructor
  · rw [stored]
    exact listed
  · rw [stored]
    intro row member
    exact (keeps.settled own (Content.table?_mem found).1 row member).values

end Creation

section Cells

variable {c : Content} {t : Table} {row : StoredRow} {column : Column} {v : Value}

theorem Store.Content.Conforms.stored_value (conforms : c.Conforms t) (stored : row ∈ (c.stored t).rows)
    (listed : column ∈ t.columns) :
    (Affinity.ofDeclared (keptType column.dataType.declared)).stored (admitted (c.cell t row column.name).value) =
      (c.cell t row column.name).value := by
  obtain ⟨kept, found, declared⟩ := conforms.columns column listed
  rw [StoredTable.column?, List.find?_eq_bind_findIdx?_getElem?, Option.bind_eq_some_iff] at found
  obtain ⟨i, index, here⟩ := found
  have value : (c.cell t row column.name).value = row.valueAt i := by
    have spot : (c.stored t).spot? column.name = some (.column i) := by
      rw [StoredTable.spot?, StoredTable.columnIndex?, index]
    rw [Content.cell, Placed.cell, Content.place, spot]
    rfl
  have settled := conforms.settled row stored i kept here
  rw [value, ← declared]
  exact settled

theorem class_of_takes {d : DataType} (settled : (Affinity.ofDeclared (keptType d.declared)).stored (admitted v) = v)
    (takes : d.Takes v) : v.storageClass = d.storageClass := by
  rcases takes with same | ⟨rfl, whole⟩
  · exact same
  · have real : Affinity.ofDeclared (keptType DataType.float.declared) = .real := by decide
    cases v with
    | integer n =>
      rw [real] at settled
      cases settled
    | null | real | text | blob => cases whole

end Cells

section Reading

variable {n : Nat} {c : Content} {s : Shape n} {t : Table} {row : StoredRow}

theorem class_of_read {key : List String} {d : Descriptor n} (conforms : c.Conforms d.table)
    (described : s.descriptorKeyedBy key = .ok d) (reads : s.ReadsColumns) (stored : row ∈ (c.stored d.table).rows)
    {record : s.Record} (read : d.table.read s.read (c.valuesOf d.table row) = .ok record) {column : Column}
    (listed : column ∈ d.table.columns) :
    (c.cell d.table row column.name).value = .null ∨
      (c.cell d.table row column.name).value.storageClass = column.dataType.storageClass := by
  obtain ⟨-, columns, -⟩ := Descriptor.resolve_eq_ok described
  have width : (c.valuesOf d.table row).length = (s.fields.filterMap Field.column?).length := by
    rw [Content.valuesOf, Table.columnNames, columns, List.length_map, List.length_map, List.length_map]
  have decodes := reads _ _ record width read
  have settled := conforms.stored_value stored listed
  rw [Content.valuesOf, Table.columnNames, columns, List.map_map, List.map_map, List.forall₂_map_right_iff,
    List.forall₂_same] at decodes
  rw [columns] at listed
  obtain ⟨field, declared, rfl⟩ := List.mem_map.1 listed
  obtain ⟨a, decoded⟩ := decodes field declared
  rcases field.2.takes decoded with null | takes
  · exact .inl null
  · exact .inr (class_of_takes settled takes)

end Reading

end RecordMapper
