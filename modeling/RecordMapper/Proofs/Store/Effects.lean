import Mathlib.Data.List.Nodup
import RecordMapper.Proofs.Outcome
import RecordMapper.Proofs.Store.Settling
import RecordMapper.Store.State

namespace RecordMapper.Store

open RecordMapper.Text

namespace Content

def Distinct (c : Content) : Prop :=
  (c.tables.map fun t => foldCase t.name).Nodup

theorem table?_mem {c : Content} {name : String} {t : StoredTable} (found : c.table? name = some t) :
    t ∈ c.tables ∧ sameIgnoringCase t.name name = true :=
  ⟨List.mem_of_find?_eq_some found, by simpa using List.find?_some found⟩

theorem names_replace (c : Content) (t : StoredTable) :
    ((c.replace t).tables.map fun t => foldCase t.name) = c.tables.map fun t => foldCase t.name := by
  simp only [replace, List.map_map]
  refine List.map_congr_left fun old _ => ?_
  by_cases same : sameIgnoringCase old.name t.name = true
  · simp [same, (sameIgnoringCase_iff _ _).1 same]
  · simp [same]

theorem Distinct.replace {c : Content} (distinct : c.Distinct) (t : StoredTable) : (c.replace t).Distinct := by
  rw [Distinct, names_replace]
  exact distinct

theorem Distinct.replace_self {c : Content} (distinct : c.Distinct) {t : StoredTable} (member : t ∈ c.tables) :
    c.replace t = c := by
  have same : ∀ old ∈ c.tables, foldCase old.name = foldCase t.name → old = t :=
    fun old other names => List.inj_on_of_nodup_map distinct other member names
  have tables : (c.tables.map fun old => if sameIgnoringCase old.name t.name then t else old) = c.tables := by
    refine (List.map_congr_left fun old other => ?_).trans (List.map_id _)
    by_cases names : sameIgnoringCase old.name t.name = true
    · rw [if_pos names, id, same old other ((sameIgnoringCase_iff _ _).1 names)]
    · rw [if_neg names, id]
  rw [Content.replace, tables]

theorem Distinct.add {c : Content} (distinct : c.Distinct) {t : StoredTable} (fresh : c.table? t.name = none) :
    Distinct { c with tables := c.tables ++ [t] } := by
  simp only [table?, List.find?_eq_none, sameIgnoringCase_iff] at fresh
  simp only [Distinct, List.map_append, List.map_cons, List.map_nil, List.nodup_append]
  refine ⟨distinct, List.nodup_singleton _, ?_⟩
  simpa using fresh

theorem Distinct.filter {c : Content} (distinct : c.Distinct) (keep : StoredTable → Bool) (indexes : List StoredIndex) :
    Distinct ⟨c.tables.filter keep, indexes⟩ :=
  List.Nodup.sublist (List.filter_sublist.map _) distinct

theorem Settled.replace {c : Content} (settled : c.Settled) {t : StoredTable}
    (rows : ∀ row ∈ t.rows, row.Settled t.columns) : (c.replace t).Settled := by
  intro other member
  obtain ⟨old, kept, rfl⟩ := List.mem_map.1 member
  split
  · exact rows
  · exact settled old kept

theorem table?_replace (c : Content) (t : StoredTable) (name : String) :
    (c.replace t).table? name =
      (c.table? name).map fun old => if sameIgnoringCase old.name t.name then t else old := by
  have named : ∀ old : StoredTable,
      sameIgnoringCase (if sameIgnoringCase old.name t.name then t else old).name name =
        sameIgnoringCase old.name name := by
    intro old
    by_cases same : sameIgnoringCase old.name t.name = true
    · rw [if_pos same, sameIgnoringCase, sameIgnoringCase, (sameIgnoringCase_iff _ _).1 same]
    · rw [if_neg same]
  rw [table?, replace, List.find?_map, table?]
  simp only [Function.comp_def, named]

theorem table?_congr (c : Content) {name other : String} (same : foldCase name = foldCase other) :
    c.table? name = c.table? other := by
  simp only [table?, sameIgnoringCase, same]

theorem table?_replace_cases {c : Content} {t own n : StoredTable} {name table : String}
    (found : c.table? name = some t) (listed : c.table? table = some own) (named : n.name = own.name) :
    (c.replace n).table? name = some t ∨ own = t ∧ (c.replace n).table? name = some n := by
  rw [table?_replace, found, Option.map_some]
  split
  · rename_i same
    have names : foldCase name = foldCase table := by
      rw [← (sameIgnoringCase_iff _ _).1 (table?_mem found).2, (sameIgnoringCase_iff _ _).1 same, named]
      exact (sameIgnoringCase_iff _ _).1 (table?_mem listed).2
    rw [table?_congr c names, listed] at found
    exact .inr ⟨Option.some.inj found, rfl⟩
  · exact .inl rfl

end Content

section Writing

variable {c : Content} {t after : StoredTable}

theorem insertOne_eq_ok {columns : Option (List String)} {given : List Value}
    (done : insertOne c t columns given = .ok after) :
    ∃ id, after = { t with rows := StoredTable.insertRow (rowOf t id (valuesByColumn t columns given)) t.rows } := by
  simp only [insertOne] at done
  split at done
  all_goals
    simp only [bind_eq_ok, pure_eq_ok] at done
    obtain ⟨id, -, -, -, -, -, -, -, rfl⟩ := done
    exact ⟨id, rfl⟩

theorem insertAll_eq_ok {columns : Option (List String)} {rows : List (List Value)}
    (done : insertAll c columns t rows = .ok after) :
    ∃ left, after = { t with rows := left } ∧ (rows = [] → left = t.rows) ∧
      ((∀ row ∈ t.rows, row.Settled t.columns) → ∀ row ∈ left, row.Settled t.columns) := by
  induction rows generalizing t with
  | nil =>
    obtain rfl := Except.ok.inj done
    exact ⟨_, rfl, fun _ => rfl, id⟩
  | cons given rows ih =>
    simp only [insertAll, bind_eq_ok] at done
    obtain ⟨middle, one, rest⟩ := done
    obtain ⟨id, rfl⟩ := insertOne_eq_ok one
    obtain ⟨left, rfl, -, settled⟩ := ih rest
    refine ⟨left, rfl, fun none => absurd none (List.cons_ne_nil _ _), fun before => settled ?_⟩
    intro row member
    rcases mem_insertRow member with rfl | member
    · exact settled_rowOf id (admitted_valuesByColumn columns given)
    · exact before row member

theorem updateOne_eq_ok {assignments : List (String × Value)} {old : StoredRow}
    (done : updateOne c assignments t old = .ok after) :
    ∃ id, after = { t with
      rows := StoredTable.insertRow (updatedRow t assignments id old) (t.rows.filter (·.id != old.id)) } := by
  simp only [updateOne] at done
  split at done
  all_goals
    simp only [bind_eq_ok, pure_eq_ok] at done
    obtain ⟨id, -, -, -, -, -, -, -, rfl⟩ := done
    exact ⟨id, rfl⟩

theorem updateAll_eq_ok {assignments : List (String × Value)} {chosen : List StoredRow}
    (done : updateAll c assignments t chosen = .ok after) :
    ∃ left, after = { t with rows := left } ∧ (chosen = [] → left = t.rows) ∧
      ((∀ row ∈ t.rows ++ chosen, row.Settled t.columns) → ∀ row ∈ left, row.Settled t.columns) := by
  induction chosen generalizing t with
  | nil =>
    obtain rfl := Except.ok.inj done
    exact ⟨_, rfl, fun _ => rfl, fun before row member => before row (List.mem_append_left _ member)⟩
  | cons old chosen ih =>
    simp only [updateAll, bind_eq_ok] at done
    obtain ⟨middle, one, rest⟩ := done
    obtain ⟨id, rfl⟩ := updateOne_eq_ok one
    obtain ⟨left, rfl, -, settled⟩ := ih rest
    refine ⟨left, rfl, fun none => absurd none (List.cons_ne_nil _ _), fun before => settled ?_⟩
    -- The rows still to be changed are those of the table before the first change, hence the longer list.
    intro row member
    rcases List.mem_append.1 member with member | later
    · rcases mem_insertRow member with rfl | member
      · exact settled_updatedRow id (before old (List.mem_append_right _ List.mem_cons_self))
      · exact before row (List.mem_append_left _ (List.mem_filter.1 member).1)
    · exact before row (List.mem_append_right _ (List.mem_cons_of_mem _ later))

theorem ofRows_eq_ok {enforces : Bool} {result : Except FaultCause (Content × Nat)} {effect : Effect}
    (done : Effect.ofRows enforces result = .ok effect) :
    ∃ content n, result = .ok (content, n) ∧ effect = ⟨content, some n⟩ := by
  simp only [Effect.ofRows, bind_eq_ok] at done
  obtain ⟨⟨content, n⟩, same, rest⟩ := done
  split at rest
  · cases rest
  · exact ⟨content, n, same, (pure_eq_ok.1 rest).symm⟩

theorem insert_eq_ok {table : String} {columns : Option (List String)} {rows : List (List Value)} {after : Content}
    {n : Nat} (done : insert c table columns rows = .ok (after, n)) :
    ∃ t t', c.table? table = some t ∧ insertAll c columns t rows = .ok t' ∧ after = c.replace t' ∧ n = rows.length := by
  unfold insert at done
  split at done
  · cases done
  · rename_i t found
    simp only [bind_eq_ok, pure_eq_ok, Prod.mk.injEq] at done
    obtain ⟨t', all, rfl, rfl⟩ := done
    exact ⟨t, t', found, all, rfl, rfl⟩

theorem update_eq_ok {table : String} {assignments : List (String × Value)} {filter : Option Sql.Condition}
    {after : Content} {n : Nat} (done : update c table assignments filter = .ok (after, n)) :
    ∃ t t', c.table? table = some t ∧ updateAll c assignments t (t.rows.filter (selectedBy t filter)) = .ok t' ∧
      after = c.replace t' ∧ n = (t.rows.filter (selectedBy t filter)).length := by
  unfold update at done
  split at done
  · cases done
  · rename_i t found
    simp only [bind_eq_ok, pure_eq_ok, Prod.mk.injEq] at done
    obtain ⟨t', all, rfl, rfl⟩ := done
    exact ⟨t, t', found, all, rfl, rfl⟩

theorem delete_eq_ok {table : String} {filter : Option Sql.Condition} {after : Content} {n : Nat}
    (done : delete c table filter = .ok (after, n)) :
    ∃ t, c.table? table = some t ∧
      after = c.replace { t with rows := t.rows.filter fun row => !selectedBy t filter row } ∧
      n = (t.rows.filter (selectedBy t filter)).length := by
  unfold delete at done
  split at done
  · cases done
  · rename_i t found
    simp only [List.partition_eq_filter_filter, Except.ok.injEq, Prod.mk.injEq] at done
    exact ⟨t, found, done.1.symm, done.2.symm⟩

end Writing

theorem checkCreate_eq_ok {c : Content} {t : Sql.TableDefinition} {mark : Sql.Mark}
    (checked : checkCreate c t mark = .ok ()) :
    c.table? t.name = none ∧ checkCreate.repeated? [] (t.columns.map Sql.ColumnDefinition.name) = none := by
  by_cases reserved : isReserved t.name = true
  · simp [checkCreate, reserved] at checked
  · by_cases present : (c.table? t.name).isSome = true
    · simp [checkCreate, reserved, present] at checked
    · by_cases indexed : (c.index? t.name).isSome = true
      · simp [checkCreate, reserved, present, indexed] at checked
      · rcases found : checkCreate.repeated? [] (t.columns.map Sql.ColumnDefinition.name) with _ | name
        · exact ⟨by simpa using present, rfl⟩
        · simp [checkCreate, reserved, present, indexed, found] at checked

theorem dropEffect_content {c : Content} {enforces : Bool} {name : String} {effect : Effect}
    (done : dropEffect c enforces name = .ok effect) : effect.content = c ∨ effect.content = dropTable c name := by
  unfold dropEffect at done
  split at done
  · cases done
    exact .inl rfl
  · split at done
    · split at done
      · cases done
      · cases done
        exact .inr rfl
    · cases done
      exact .inr rfl

theorem createIndex_eq_ok {c c' : Content} {i : Sql.IndexDefinition} (done : createIndex c i = .ok c') :
    ∃ t, c.table? i.table = some t ∧
      c' = { c with indexes := ⟨i.name, t.name, i.columns.map (indexTerm t), i.unique⟩ :: c.indexes } := by
  unfold createIndex at done
  split at done
  · cases done
  · rename_i t found
    dsimp only at done
    split at done
    · cases done
    · exact ⟨t, found, (Except.ok.inj done).symm⟩

theorem effectOf_createIndex {c : Content} {enforces : Bool} {i : Sql.IndexDefinition} {effect : Effect}
    (done : effectOf c enforces (.createIndex i) = .ok effect) : effect.content.tables = c.tables := by
  obtain ⟨c', made, rfl⟩ := map_eq_ok.1 done
  obtain ⟨t, -, rfl⟩ := createIndex_eq_ok made
  rfl

theorem table?_dropTable (c : Content) {name dropped : String} (other : sameIgnoringCase name dropped = false) :
    (dropTable c dropped).table? name = c.table? name := by
  have kept : ∀ own : StoredTable, sameIgnoringCase own.name name = true →
      (!sameIgnoringCase own.name dropped) = true := by
    intro own same
    rw [sameIgnoringCase, (sameIgnoringCase_iff _ _).1 same, ← sameIgnoringCase, other]
    rfl
  rw [Content.table?, Content.table?, dropTable, List.find?_filter]
  congr 1
  funext own
  by_cases same : sameIgnoringCase own.name name = true
  · simp [same, kept own same]
  · simp [same]

section Steps

variable {c : Content} {t t' : StoredTable} {command : Sql.Command} {enforces : Bool} {effect : Effect}

def StoredTable.widened (t : StoredTable) (column : StoredColumn) : StoredTable :=
  { t with
    columns := t.columns ++ [column]
    rows := t.rows.map fun row => { row with values := row.values ++ [.null] } }

inductive Inserts (table : String) (columns : Option (List String)) (rows : List (List Value)) : Sql.Command → Prop
  | plain : Inserts table columns rows (.insert table columns rows)
  | orRollback : Inserts table columns rows (.insertOrRollback table columns rows)

/-- What a command makes of a table. -/
inductive StoredTable.Next (c : Content) (t : StoredTable) : Sql.Command → StoredTable → Prop where
  | same {command : Sql.Command} : Next c t command t
  | inserted {table : String} {columns : Option (List String)} {rows : List (List Value)} {after : StoredTable}
      {command : Sql.Command} (done : insertAll c columns t rows = .ok after) (here : c.table? table = some t)
      (asked : Inserts table columns rows command) : Next c t command after
  | updated {table : String} {assignments : List (String × Value)} {filter : Option Sql.Condition}
      {after : StoredTable} (done : updateAll c assignments t (t.rows.filter (selectedBy t filter)) = .ok after) :
      Next c t (.update table assignments filter) after
  | deleted {table : String} {filter : Option Sql.Condition} :
      Next c t (.delete table filter) { t with rows := t.rows.filter fun row => !selectedBy t filter row }
  | widened {table : String} {column : Sql.ColumnDefinition} :
      Next c t (.addColumn table column)
        (t.widened ⟨column.name, keptType column.declared, column.required, 0, column.reference⟩)

theorem StoredTable.Next.columns (next : t.Next c command t') :
    ∃ more, t'.columns = t.columns ++ more ∧ ∀ column ∈ more, column.keyPosition = 0 := by
  cases next with
  | same => exact ⟨[], (List.append_nil _).symm, by simp⟩
  | inserted done =>
    obtain ⟨left, rfl, -⟩ := insertAll_eq_ok done
    exact ⟨[], (List.append_nil _).symm, by simp⟩
  | updated done =>
    obtain ⟨left, rfl, -⟩ := updateAll_eq_ok done
    exact ⟨[], (List.append_nil _).symm, by simp⟩
  | deleted => exact ⟨[], (List.append_nil _).symm, by simp⟩
  | widened => exact ⟨_, rfl, by simp⟩

theorem StoredTable.Next.settled (next : t.Next c command t')
    (before : ∀ row ∈ t.rows, row.Settled t.columns) : ∀ row ∈ t'.rows, row.Settled t'.columns := by
  cases next with
  | same => exact before
  | inserted done =>
    obtain ⟨left, rfl, -, settled⟩ := insertAll_eq_ok done
    exact settled before
  | updated done =>
    obtain ⟨left, rfl, -, settled⟩ := updateAll_eq_ok done
    refine settled fun row member => ?_
    exact (List.mem_append.1 member).elim (before row) fun chosen => before row (List.mem_filter.1 chosen).1
  | deleted => exact fun row member => before row (List.mem_filter.1 member).1
  | widened =>
    intro row member
    obtain ⟨old, kept, rfl⟩ := List.mem_map.1 member
    exact (before old kept).addColumn _

theorem StoredTable.Next.name (next : t.Next c command t') : t'.name = t.name := by
  cases next with
  | same | deleted | widened => rfl
  | inserted done =>
    obtain ⟨left, rfl, -⟩ := insertAll_eq_ok done
    rfl
  | updated done =>
    obtain ⟨left, rfl, -⟩ := updateAll_eq_ok done
    rfl

/-- What a command makes of the tables of a content: at most one of them is changed, made or dropped. -/
inductive Content.Changes (c : Content) (command : Sql.Command) : Content → Prop where
  | kept {after : Content} (tables : after.tables = c.tables) : Changes c command after
  | changed {t t' : StoredTable} {name : String} (found : c.table? name = some t) (next : t.Next c command t') :
    Changes c command (c.replace t')
  | created {table : Sql.TableDefinition} {mark : Sql.Mark} (asked : command = .createTable table mark) :
    Changes c command (createTable c table)
  | dropped {name : String} (asked : command = .dropTable name) : Changes c command (dropTable c name)

theorem Inserts.effectOf {table : String} {columns : Option (List String)} {rows : List (List Value)}
    (inserts : Inserts table columns rows command) :
    effectOf c enforces command = Effect.ofRows enforces (insert c table columns rows) := by
  cases inserts <;> rfl

theorem Inserts.eq_ok {table : String} {columns : Option (List String)} {rows : List (List Value)}
    (inserts : Inserts table columns rows command) (done : Store.effectOf c enforces command = .ok effect) :
    ∃ t after, c.table? table = some t ∧ insertAll c columns t rows = .ok after ∧ effect.content = c.replace after ∧
      effect.counted = some rows.length := by
  rw [inserts.effectOf] at done
  obtain ⟨content, n, result, rfl⟩ := ofRows_eq_ok done
  obtain ⟨t, after, found, all, rfl, rfl⟩ := insert_eq_ok result
  exact ⟨t, after, found, all, rfl, rfl⟩

theorem Inserts.changes {table : String} {columns : Option (List String)} {rows : List (List Value)}
    (inserts : Inserts table columns rows command) (done : Store.effectOf c enforces command = .ok effect) :
    c.Changes command effect.content := by
  obtain ⟨t, after, found, all, content, -⟩ := inserts.eq_ok done
  rw [content]
  exact .changed found (.inserted all found inserts)

theorem effectOf_changes (done : effectOf c enforces command = .ok effect) : c.Changes command effect.content := by
  cases command with
  | insert table columns rows => exact Inserts.plain.changes done
  | insertOrRollback table columns rows => exact Inserts.orRollback.changes done
  | update table assignments filter =>
    obtain ⟨content, n, result, rfl⟩ := ofRows_eq_ok done
    obtain ⟨t, after, found, all, rfl, -⟩ := update_eq_ok result
    exact .changed found (.updated all)
  | delete table filter =>
    obtain ⟨content, n, result, rfl⟩ := ofRows_eq_ok done
    obtain ⟨t, found, rfl, -⟩ := delete_eq_ok result
    exact .changed found .deleted
  | createTable table mark =>
    cases done
    exact .created rfl
  | dropTable name =>
    rcases dropEffect_content done with same | same <;> rw [same]
    · exact .kept rfl
    · exact .dropped rfl
  | addColumn table column =>
    cases done
    show c.Changes _ (addColumn c table column)
    unfold addColumn
    split
    · exact .kept rfl
    · rename_i own found
      exact .changed found .widened
  | createIndex index => exact .kept (effectOf_createIndex done)
  | _ =>
    cases done
    exact .kept rfl

/-- A command keeps table names distinct if the content can run it. -/
theorem effectOf_distinct (distinct : c.Distinct) (checked : checkCommand c enforces command = .ok ())
    (done : effectOf c enforces command = .ok effect) : effect.content.Distinct := by
  have changes := effectOf_changes done
  generalize effect.content = after at changes ⊢
  cases changes with
  | kept tables =>
    rw [Content.Distinct, tables]
    exact distinct
  | changed => exact distinct.replace _
  | created asked =>
    subst asked
    simp only [checkCommand, bind_eq_ok] at checked
    obtain ⟨-, -, checked⟩ := checked
    exact distinct.add (checkCreate_eq_ok checked).1
  | dropped => exact distinct.filter _ _

theorem Inserts.unchanged {table : String} {columns : Option (List String)} {rows : List (List Value)}
    (inserts : Inserts table columns rows command) (distinct : c.Distinct)
    (done : Store.effectOf c enforces command = .ok effect) (none : effect.counted = some 0) : effect.content = c := by
  obtain ⟨t, after, found, all, content, counted⟩ := inserts.eq_ok done
  obtain ⟨left, rfl, same, -⟩ := insertAll_eq_ok all
  obtain rfl := same (by simpa [counted] using none)
  rw [content]
  exact distinct.replace_self (Content.table?_mem found).1

theorem effectOf_unchanged (distinct : c.Distinct) (plain : redefines command = false)
    (done : effectOf c enforces command = .ok effect) (none : effect.counted = some 0) : effect.content = c := by
  cases command with
  | insert table columns rows => exact Inserts.plain.unchanged distinct done none
  | insertOrRollback table columns rows => exact Inserts.orRollback.unchanged distinct done none
  | update table assignments filter =>
    obtain ⟨content, n, result, rfl⟩ := ofRows_eq_ok done
    obtain ⟨t, after, found, all, rfl, rfl⟩ := update_eq_ok result
    obtain ⟨left, rfl, same, -⟩ := updateAll_eq_ok all
    obtain rfl := same (by simpa using none)
    exact distinct.replace_self (Content.table?_mem found).1
  | delete table filter =>
    obtain ⟨content, n, result, rfl⟩ := ofRows_eq_ok done
    obtain ⟨t, found, rfl, rfl⟩ := delete_eq_ok result
    have unselected : ∀ row ∈ t.rows, selectedBy t filter row = false := by simpa using none
    have whole : t.rows.filter (fun row => !selectedBy t filter row) = t.rows :=
      List.filter_eq_self.2 fun row member => by simp [unselected row member]
    simp only [whole]
    exact distinct.replace_self (Content.table?_mem found).1
  | createTable | dropTable | addColumn | createIndex => cases plain
  | _ =>
    cases done
    rfl

/-- A command leaves every value as its column's affinity stores it. -/
theorem effectOf_settled (settled : c.Settled) (done : effectOf c enforces command = .ok effect) :
    effect.content.Settled := by
  have changes := effectOf_changes done
  generalize effect.content = after at changes ⊢
  cases changes with
  | kept tables =>
    rw [Content.Settled, tables]
    exact settled
  | changed found next => exact settled.replace (next.settled (settled _ (Content.table?_mem found).1))
  | created =>
    intro t member
    rcases List.mem_append.1 member with old | new
    · exact settled t old
    · rw [List.mem_singleton.1 new]
      exact fun row absent => absurd absent List.not_mem_nil
  | dropped => exact fun t member => settled t (List.mem_filter.1 member).1

/-- A table that is not dropped stands after a command, as the command makes it. -/
theorem effectOf_next {name : String} (found : c.table? name = some t)
    (stays : ∀ dropped, command = .dropTable dropped → sameIgnoringCase name dropped = false)
    (done : effectOf c enforces command = .ok effect) :
    ∃ t', effect.content.table? name = some t' ∧ t.Next c command t' := by
  have changes := effectOf_changes done
  generalize effect.content = after at changes ⊢
  cases changes with
  | kept tables =>
    rw [Content.table?, tables]
    exact ⟨t, found, .same⟩
  | changed listed next =>
    rcases Content.table?_replace_cases found listed next.name with kept | ⟨rfl, new⟩
    · exact ⟨t, kept, .same⟩
    · exact ⟨_, new, next⟩
  | created =>
    refine ⟨t, ?_, .same⟩
    rw [Content.table?] at found
    rw [Content.table?, createTable, List.find?_append, found, Option.some_or]
  | dropped asked => exact ⟨t, (table?_dropTable c (stays _ asked)).trans found, .same⟩

theorem effectOf_columns {name : String} (found : c.table? name = some t)
    (stays : ∀ dropped, command = .dropTable dropped → sameIgnoringCase name dropped = false)
    (done : effectOf c enforces command = .ok effect) :
    ∃ t' more, effect.content.table? name = some t' ∧ t'.columns = t.columns ++ more := by
  obtain ⟨t', found', next⟩ := effectOf_next found stays done
  obtain ⟨more, longer, -⟩ := next.columns
  exact ⟨t', more, found', longer⟩

end Steps

end RecordMapper.Store
