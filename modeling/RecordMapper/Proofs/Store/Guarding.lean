import RecordMapper.Proofs.Query.Holding

namespace RecordMapper.Store

open RecordMapper.Text

theorem numberOf?_ne_null {s : String} {v : Value} (read : numberOf? s = some v) : v ≠ .null := by
  cases numberOf?_isNumber read <;> exact Value.noConfusion

theorem settled_ne_null (x : Number.Binary64) : settled x ≠ .null := by
  rcases settled_cases x with ⟨n, same⟩ | same <;> rw [same] <;> exact Value.noConfusion

theorem realOf_ne_null {v : Value} (some : v ≠ .null) : realOf v ≠ .null := by
  cases v with
  | real x =>
    simp only [realOf]
    split <;> exact Value.noConfusion
  | integer n => exact Value.noConfusion
  | null | text | blob => exact some

theorem stored_ne_null (a : Affinity) {v : Value} (some : v ≠ .null) : a.stored v ≠ .null := by
  cases a with
  | text => cases v <;> first | exact some | exact Value.noConfusion
  | blob => cases v <;> exact some
  | numeric =>
    cases v with
    | text s =>
      simp only [Affinity.stored]
      split
      · exact settled_ne_null _
      · rename_i read
        exact numberOf?_ne_null read
      · exact some
    | real x => exact settled_ne_null x
    | null | integer | blob => exact some
  | real =>
    cases v with
    | text s =>
      rcases read : numberOf? s with _ | v
      · simp [Affinity.stored, read]
      · simp only [Affinity.stored, read, Option.elim_some]
        exact realOf_ne_null (numberOf?_ne_null read)
    | null | integer | real | blob => exact realOf_ne_null some

/-- Whether the engine keeps a place from being null: its column is required or is the row id. -/
def StoredTable.Guards (t : StoredTable) (i : Nat) : Prop :=
  (∃ column, t.columns[i]? = some column ∧ column.required = true) ∨ t.idColumn? = some i

def StoredTable.Fills (t : StoredTable) (row : StoredRow) : Prop :=
  ∀ i, t.Guards i → row.valueAt i ≠ .null

structure StoredTable.Guarded (t : StoredTable) : Prop where
  placed : t.Placed
  filled : ∀ row ∈ t.rows, t.Fills row

section Rows

variable {c : Content} {t after : StoredTable} {id : Int}

theorem checkRequired_eq_ok {written : Nat → Bool} {row : StoredRow} (checked : checkRequired t written row = .ok ())
    {i : Nat} {column : StoredColumn} (here : t.columns[i]? = some column) (required : column.required = true)
    (other : t.idColumn? ≠ some i) (set : written i = true) : row.valueAt i ≠ .null := by
  unfold checkRequired at checked
  split at checked
  · cases checked
  · rename_i none
    have passed := List.find?_eq_none.1 none i (List.mem_range.2 (List.getElem?_eq_some_iff.1 here).1)
    simpa [set, here, required, other] using passed

theorem fills_rowOf {values : List Value} (whole : values.length = t.columns.length)
    (filled : ∀ i column, t.columns[i]? = some column → column.required = true → t.idColumn? ≠ some i →
      (rowOf t id values).valueAt i ≠ .null) : t.Fills (rowOf t id values) := by
  intro i guarded
  by_cases identity : t.idColumn? = some i
  · rw [shown_rowOf whole identity]
    exact Value.noConfusion
  · obtain ⟨column, here, required⟩ := guarded.resolve_right identity
    exact filled i column here required identity

theorem StoredTable.Guarded.withRow {rows : List StoredRow} {row : StoredRow} (guarded : t.Guarded) (new : t.Fills row)
    (kept : ∀ row ∈ rows, row ∈ t.rows) : Guarded { t with rows := StoredTable.insertRow row rows } := by
  refine ⟨guarded.placed, fun other member => ?_⟩
  rcases mem_insertRow member with rfl | old
  · exact new
  · exact guarded.filled other (kept other old)

theorem StoredTable.Guarded.insertAll {columns : Option (List String)} {rows : List (List Value)} (guarded : t.Guarded)
    (whole : columns = none → ∀ given ∈ rows, given.length = t.columns.length)
    (done : Store.insertAll c columns t rows = .ok after) : after.Guarded := by
  induction rows generalizing t with
  | nil =>
    obtain rfl := Except.ok.inj done
    exact guarded
  | cons given rows ih =>
    simp only [Store.insertAll, bind_eq_ok] at done
    obtain ⟨middle, one, rest⟩ := done
    obtain ⟨id, -, required, -, -, rfl⟩ := insertOne_cases one
    have filled : t.Fills (rowOf t id (valuesByColumn t columns given)) := by
      refine fills_rowOf (length_valuesByColumn fun none => whole none given List.mem_cons_self) ?_
      exact fun i column here needed other => checkRequired_eq_ok required here needed other rfl
    exact ih (guarded.withRow filled fun _ kept => kept)
      (fun none other later => whole none other (List.mem_cons_of_mem _ later)) rest

theorem fills_updatedRow {assignments : List (String × Value)} {old : StoredRow} (before : t.Fills old)
    (required : checkRequired t
      (fun i => ((t.columns.map fun column => assigned? assignments column.name)[i]?).join.isSome)
      (updatedRow t assignments id old) = .ok ()) : t.Fills (updatedRow t assignments id old) := by
  refine fills_rowOf (by rw [List.length_mapIdx, List.length_map]) fun i column here needed other => ?_
  have given : (t.columns.map fun column => assigned? assignments column.name)[i]? =
      some (assigned? assignments column.name) := by
    rw [List.getElem?_map, here, Option.map_some]
  rcases assigned : assigned? assignments column.name with _ | v
  · rw [valueAt_rowOf (v := old.valueAt i) here, if_neg other]
    · exact stored_ne_null _ (before i (.inl ⟨column, here, needed⟩))
    · rw [List.getElem?_mapIdx, given, assigned]
      rfl
  · refine checkRequired_eq_ok required here needed other ?_
    rw [given, assigned]
    rfl

theorem StoredTable.Guarded.updateAll {assignments : List (String × Value)} {chosen : List StoredRow}
    (guarded : t.Guarded) (filled : ∀ row ∈ chosen, t.Fills row)
    (done : Store.updateAll c assignments t chosen = .ok after) : after.Guarded := by
  induction chosen generalizing t with
  | nil =>
    obtain rfl := Except.ok.inj done
    exact guarded
  | cons old chosen ih =>
    simp only [Store.updateAll, bind_eq_ok] at done
    obtain ⟨middle, one, rest⟩ := done
    obtain ⟨id, -, required, -, -, rfl⟩ := updateOne_cases one
    have changed := fills_updatedRow (filled old List.mem_cons_self) required
    exact ih (guarded.withRow changed fun row kept => (List.mem_filter.1 kept).1)
      (fun row later => filled row (List.mem_cons_of_mem _ later)) rest

theorem valueAt_widened (row : StoredRow) (i : Nat) :
    StoredRow.valueAt { row with values := row.values ++ [.null] } i = row.valueAt i := by
  rw [StoredRow.valueAt, StoredRow.valueAt]
  rcases Nat.lt_or_ge i row.values.length with early | late
  · rw [List.getElem?_append_left early]
  · rw [List.getElem?_append_right late, List.getElem?_eq_none late]
    cases i - row.values.length <;> rfl

theorem guards_widened {column : StoredColumn} (placed : t.Placed) (optional : column.required = false)
    (apart : column.keyPosition = 0) {i : Nat} (guards : (t.widened column).Guards i) : t.Guards i := by
  rcases guards with ⟨own, here, required⟩ | identity
  · refine .inl ⟨own, ?_, required⟩
    rw [StoredTable.widened, List.getElem?_append] at here
    split at here
    · exact here
    · obtain rfl : own = column := by simpa using List.mem_of_getElem? here
      exact absurd (required.symm.trans optional) (by decide)
  · rw [idColumn?_widened placed apart] at identity
    exact .inr identity

theorem StoredTable.Guarded.widened {column : StoredColumn} (guarded : t.Guarded) (optional : column.required = false)
    (apart : column.keyPosition = 0) : (t.widened column).Guarded := by
  constructor
  · intro other member
    rw [StoredTable.widened, List.length_append]
    rcases List.mem_append.1 member with old | new
    · exact Nat.le_trans (guarded.placed other old) (Nat.le_add_right _ _)
    · rw [List.mem_singleton.1 new, apart]
      exact Nat.zero_le _
  · intro row member i guards
    obtain ⟨old, known, rfl⟩ := List.mem_map.1 member
    rw [valueAt_widened]
    exact guarded.filled old known i (guards_widened guarded.placed optional apart guards)

/-- A table stays guarded whatever a command makes of it. -/
theorem StoredTable.Guarded.next {command : Sql.Command} (guarded : t.Guarded) (accepts : c.Accepts command)
    (next : t.Next c command after) : after.Guarded := by
  cases next with
  | same => exact guarded
  | inserted done here asked =>
    refine guarded.insertAll ?_ done
    rintro rfl
    exact accepts.full _ _ _ asked here
  | updated done => exact guarded.updateAll (fun row chosen => guarded.filled row (List.mem_filter.1 chosen).1) done
  | deleted => exact ⟨guarded.placed, fun row kept => guarded.filled row (List.mem_filter.1 kept).1⟩
  | widened => exact guarded.widened (accepts.optional _ _ rfl) rfl

theorem StoredTable.Next.guards {command : Sql.Command} {i : Nat} (next : t.Next c command after) (placed : t.Placed)
    (guards : t.Guards i) : after.Guards i := by
  obtain ⟨more, columns, -⟩ := next.columns
  rcases guards with ⟨column, here, required⟩ | own
  · refine .inl ⟨column, ?_, required⟩
    rw [columns, List.getElem?_append_left (List.getElem?_eq_some_iff.1 here).1, here]
  · exact .inr ((next.idColumn? placed).trans own)

theorem StoredTable.Next.columnIndex? {command : Sql.Command} {name : String} {i : Nat} (next : t.Next c command after)
    (found : t.columnIndex? name = some i) : after.columnIndex? name = some i := by
  obtain ⟨more, columns, -⟩ := next.columns
  rw [StoredTable.columnIndex?] at found ⊢
  rw [columns, List.findIdx?_append, found, Option.some_or]

end Rows

/-- The commands that the mapper itself makes: it creates tables from descriptors, adds columns that may be null, and
    names the columns that it inserts into. -/
def IsMapped : Sql.Command → Prop
  | .createTable definition _ => ∃ t : Table, definition = t.definition
  | .addColumn _ column => column.required = false
  | .insert _ columns _ | .insertOrRollback _ columns _ => columns.isSome = true
  | _ => True

theorem IsMapped.accepts {command : Sql.Command} (mapped : IsMapped command) (c : Content) : c.Accepts command := by
  constructor
  · rintro table rows t ⟨⟩ <;> cases mapped
  · rintro table column rfl
    exact mapped

namespace Content

def Guarded (c : Content) : Prop :=
  ∀ t ∈ c.tables, t.Guarded

variable {c : Content} {enforces : Bool} {command : Sql.Command} {effect : Effect}

theorem guarded_empty : empty.Guarded :=
  fun _ none => absurd none List.not_mem_nil

theorem Guarded.replace (guarded : c.Guarded) {t : StoredTable} (own : t.Guarded) : (c.replace t).Guarded := by
  intro other member
  obtain ⟨old, known, rfl⟩ := List.mem_map.1 member
  split
  · exact own
  · exact guarded old known

/-- Whatever command of the mapper's a content runs, the places stay guarded. -/
theorem Guarded.after (guarded : c.Guarded) (mapped : IsMapped command)
    (done : effectOf c enforces command = .ok effect) : effect.content.Guarded := by
  have changes := effectOf_changes done
  generalize effect.content = after at changes ⊢
  cases changes with
  | kept tables =>
    rw [Guarded, tables]
    exact guarded
  | changed found next => exact guarded.replace ((guarded _ (table?_mem found).1).next (mapped.accepts c) next)
  | created asked =>
    subst asked
    obtain ⟨t, rfl⟩ := mapped
    intro own member
    rcases List.mem_append.1 member with old | new
    · exact guarded own old
    · rw [List.mem_singleton.1 new]
      exact ⟨placed_newTable t, fun row none => absurd none List.not_mem_nil⟩
  | dropped => exact fun t member => guarded t (List.mem_filter.1 member).1

def Secures (c : Content) (table column : String) : Prop :=
  ∃ t i, c.table? table = some t ∧ t.columnIndex? column = some i ∧ t.Guards i

def Fills (c : Content) (table column : String) : Prop :=
  ∃ t i, c.table? table = some t ∧ t.columnIndex? column = some i ∧ ∀ row ∈ t.rows, row.valueAt i ≠ .null

variable {table column : String}

theorem Guarded.fills (guarded : c.Guarded) (secures : c.Secures table column) : c.Fills table column := by
  obtain ⟨t, i, found, index, guards⟩ := secures
  exact ⟨t, i, found, index, fun row member => (guarded t (table?_mem found).1).filled row member i guards⟩

def Spares (table : String) (command : Sql.Command) : Prop :=
  ∀ dropped, command = .dropTable dropped → sameIgnoringCase table dropped = false

theorem Secures.after (secures : c.Secures table column) (guarded : c.Guarded) (spares : Spares table command)
    (done : effectOf c enforces command = .ok effect) : effect.content.Secures table column := by
  obtain ⟨t, i, found, index, guards⟩ := secures
  obtain ⟨t', found', next⟩ := effectOf_next found spares done
  exact ⟨t', i, found', next.columnIndex? index, next.guards (guarded t (table?_mem found).1).placed guards⟩

end Content

end RecordMapper.Store
