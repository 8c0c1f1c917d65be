import RecordMapper.Proofs.Query.Conditions
import RecordMapper.Proofs.Query.Selecting
import RecordMapper.Proofs.Schema.Idempotence

namespace RecordMapper

open RecordMapper.Store RecordMapper.Text

section Tests

variable {t : Table} {values : List Value} {p : Predicate} {column : Column} {v : Value}

def Column.equals (column : Column) (v : Value) : Predicate :=
  .compare (.column ⟨none, column.name⟩) .eq (.value v)

def Table.keyTests (t : Table) (values : List Value) : List Predicate :=
  ((t.columns.zip values).filter fun e => e.1.key).map fun e => e.1.equals e.2

/-- A conjunction of the tests of the key, in any order and nested in any way. -/
def Table.SelectsKey (t : Table) (values : List Value) (p : Predicate) : Prop :=
  ∀ e, e ∈ p.conjuncts ↔ e ∈ t.keyTests values

theorem Table.mem_keyTests {e : Predicate} : e ∈ t.keyTests values ↔ ∃ (i : Nat) (column : Column) (v : Value),
    t.columns[i]? = some column ∧ values[i]? = some v ∧ column.key = true ∧ e = column.equals v := by
  simp only [keyTests, List.mem_map, List.mem_filter, Prod.exists]
  constructor
  · rintro ⟨column, v, ⟨member, key⟩, rfl⟩
    obtain ⟨i, here⟩ := List.mem_iff_getElem?.1 member
    obtain ⟨first, second⟩ := List.getElem?_zip_eq_some.1 here
    exact ⟨i, column, v, first, second, key, rfl⟩
  · rintro ⟨i, column, v, first, second, key, rfl⟩
    exact ⟨column, v, ⟨List.mem_of_getElem? (List.getElem?_zip_eq_some.2 ⟨first, second⟩), key⟩, rfl⟩

theorem Column.condition_equals (listed : column ∈ t.columns) (some : v ≠ .null) :
    (column.equals v).condition ⟨t, []⟩ = .ok (.value ⟨Sql.rootLabel, column.name⟩ .eq v) := by
  have resolved : Scope.resolve ⟨t, []⟩ ⟨none, column.name⟩ = .ok ⟨Sql.rootLabel, column.name⟩ :=
    Scope.resolve_eq_ok.2 ⟨_, rfl, (t.hasColumn_iff _).2 (List.mem_map_of_mem listed), rfl⟩
  simp only [equals, Predicate.condition, Predicate.compareOperands, Predicate.compareWithValue, resolved]
  cases v <;> first | exact absurd rfl some | rfl

theorem Table.SelectsKey.condition (selects : t.SelectsKey values p) (binds : t.BindsKey values) :
    ∃ condition, p.condition ⟨t, []⟩ = .ok condition := by
  refine Predicate.exists_condition fun e joined => ?_
  obtain ⟨i, column, v, here, value, key, rfl⟩ := mem_keyTests.1 ((selects e).1 joined)
  exact ⟨_, Column.condition_equals (List.mem_of_getElem? here) (binds.binds i column v here key value).ne_null⟩

theorem Table.SelectsKey.patterns (selects : t.SelectsKey values p) : p.patterns = [] := by
  refine Predicate.patterns_conjuncts fun e joined => ?_
  obtain ⟨i, column, v, -, -, -, rfl⟩ := mem_keyTests.1 ((selects e).1 joined)
  rfl

theorem Table.selectsKey_all (joined : Predicate.all (t.keyTests values) = some p) : t.SelectsKey values p := by
  intro e
  rw [Predicate.conjuncts_all joined]
  have single : ∀ e ∈ t.keyTests values, e.conjuncts = [e] := by
    intro e listed
    obtain ⟨i, column, v, -, -, -, rfl⟩ := mem_keyTests.1 listed
    rfl
  rw [List.flatMap_congr single, List.flatMap_singleton']

theorem Table.length_keyTests (whole : values.length = t.width) :
    (t.keyTests values).length = t.keyColumns.length := by
  have keyed : ((t.columns.zip values).filter fun e => e.1.key).map Prod.fst =
      ((t.columns.zip values).map Prod.fst).filter Column.key := List.filter_map.symm
  rw [keyTests, List.length_map, keyColumns, ← List.length_map Prod.fst, keyed,
    List.map_fst_zip (Nat.le_of_eq whole.symm)]

theorem Query.stackable_ofTable {g : ShapeGraph} {s : Fin g.size} {condition : Sql.Condition}
    (compiled : p.condition ⟨t, []⟩ = .ok condition) :
    ((Query.ofTable t : Query g s).filter p).Stackable ↔ stackable (some condition) := by
  have made : Predicate.conditionOf ((Query.ofTable t : Query g s).filter p).plan.scope
      ((Query.ofTable t : Query g s).filter p).plan.filter = .ok (some condition) :=
    conditionOf_restrict.2 ⟨none, condition, rfl, compiled, rfl⟩
  constructor
  · intro fits
    exact fits _ made
  · intro shallow other again
    exact Except.ok.inj (made.symm.trans again) ▸ shallow

/-- Joined one after the other, the tests of a key can be stacked exactly if it has no more than 89 columns. -/
theorem Table.stackable_all_iff (binds : t.BindsKey values) (whole : values.length = t.width)
    (joined : Predicate.all (t.keyTests values) = some p) {condition : Sql.Condition}
    (compiled : p.condition ⟨t, []⟩ = .ok condition) : stackable (some condition) ↔ t.keyColumns.length ≤ 89 := by
  have flat : ∀ e ∈ t.keyTests values, ∀ c, e.condition ⟨t, []⟩ = .ok c → c.depth ≤ 4 := by
    intro e listed c made
    obtain ⟨i, column, v, here, value, key, rfl⟩ := mem_keyTests.1 listed
    have bound := binds.binds i column v here key value
    rw [Column.condition_equals (List.mem_of_getElem? here) bound.ne_null] at made
    cases made
    exact Nat.le_refl 4
  have tests := t.length_keyTests whole
  have limit : stackLimit = 99 := rfl
  constructor
  · intro shallow
    have room := shallow condition rfl
    by_contra many
    have deep := Predicate.length_le_depth Predicate.deepens_and joined (by omega) compiled
    omega
  · intro few f here
    obtain rfl : condition = f := Option.some.inj here
    have deep := Predicate.depth_combined Predicate.deepens_and joined flat compiled
    omega

end Tests

section Rows

variable {c : Content} {t : Table} {values : List Value} {p : Predicate} {i : Nat} {column : Column} {v : Value}
  {row new : StoredRow}

theorem value_at (whole : values.length = t.width) (here : t.columns[i]? = some column) : ∃ v, values[i]? = some v := by
  have bound : i < values.length := by
    rw [whole]
    exact (List.getElem?_eq_some_iff.1 here).1
  exact ⟨_, List.getElem?_eq_getElem bound⟩

theorem cellTruth_equals {affinity : Affinity} {w : Value} (stays : affinity.compared w = w)
    (bound : affinity.compared v = v) (number : admitted v = v) (some : v ≠ .null) :
    cellTruth ⟨w, affinity⟩ .eq v = compareTruth .eq w v := by
  have truth : cellTruth ⟨w, affinity⟩ .eq v = compareCell .eq ⟨w, affinity⟩ v := by
    cases v <;> first | exact absurd rfl some | rfl
  rw [truth, compareCell, number, bound, stays]

theorem cell_of_spot? {own : StoredTable} {rows : List StoredRow} {label name : String}
    (stored : c.stored t = { own with rows }) (spot : own.spot? name = some (.column i)) :
    (c.place label t row).cell name = ⟨row.valueAt i, own.affinityAt i⟩ := by
  have same : StoredTable.spot? { own with rows } name = some (.column i) := spot
  rw [Content.place, stored, Placed.cell]
  simp only [same]
  rfl

namespace Store.Content

theorem Holds.table?_withRow (holds : c.Holds t) (row : StoredRow) : (c.withRow t row).table? t.name =
    some { c.stored t with rows := StoredTable.insertRow row (c.stored t).rows } := by
  rw [withRow, table?_replace, holds.table?, Option.map_some, if_pos (sameIgnoringCase_refl _)]

theorem Holds.known_withRow (holds : c.Holds t) (row : StoredRow) : ∀ name ∈ t.columnNames,
    (StoredTable.spot? { c.stored t with rows := StoredTable.insertRow row (c.stored t).rows } name).isSome = true := by
  intro name listed
  obtain ⟨column, member, rfl⟩ := List.mem_map.1 listed
  obtain ⟨i, here⟩ := List.mem_iff_getElem?.1 member
  have index : StoredTable.columnIndex? { c.stored t with rows := StoredTable.insertRow row (c.stored t).rows }
      column.name = some i := holds.columnIndex? here rfl
  rw [StoredTable.spot?, index]
  rfl

theorem Holds.stored_withRow (holds : c.Holds t) (row : StoredRow) : (c.withRow t row).stored t =
    { c.stored t with rows := StoredTable.insertRow row (c.stored t).rows } :=
  stored_of_table? (holds.table?_withRow row)

theorem Holds.cell_withRow (holds : c.Holds t) (here : t.columns[i]? = some column) (label : String) :
    ((c.withRow t new).place label t row).cell column.name =
      ⟨row.valueAt i, Affinity.ofDeclared (keptType column.dataType.declared)⟩ := by
  have spot : (c.stored t).spot? column.name = some (.column i) := by
    rw [StoredTable.spot?, holds.columnIndex? here rfl]
  have affinity : (c.stored t).affinityAt i = Affinity.ofDeclared (keptType column.dataType.declared) := by
    rw [StoredTable.affinityAt, holds.column here, Option.map_some, Option.getD_some, StoredColumn.affinity]
  rw [← affinity]
  exact cell_of_spot? (holds.stored_withRow new) spot

theorem Holds.stored_value (holds : c.Holds t) (here : t.columns[i]? = some column)
    (settled : row.Settled (c.stored t).columns) :
    (Affinity.ofDeclared (keptType column.dataType.declared)).stored (admitted (row.valueAt i)) = row.valueAt i := by
  have value := settled.values i _ (holds.column here)
  rwa [StoredColumn.affinity] at value

theorem Holds.truth_equals (holds : c.Holds t) (here : t.columns[i]? = some column) (settled : row.Settled (c.stored t).columns)
    (binds : column.dataType.Binds v) :
    (column.equals v).truth [(c.withRow t new).place Sql.rootLabel t row] = some true ↔
      row.valueAt i ≠ .null ∧ sameValue (row.valueAt i) v = true := by
  have kept := holds.stored_value here settled
  have asked : (column.equals v).truth [(c.withRow t new).place Sql.rootLabel t row] =
      cellTruth (((c.withRow t new).place Sql.rootLabel t row).cell column.name) .eq v := rfl
  rw [asked, holds.cell_withRow here,
    cellTruth_equals (Affinity.compared_of_stored kept) binds.compared binds.number binds.ne_null, compareTruth_eq_iff]
  exact and_congr_right fun _ => and_iff_right binds.ne_null

theorem Holds.chosen_withRow (holds : c.Holds t) (admits : c.Admits t values new) (binds : t.BindsKey values)
    (whole : values.length = t.width) (selects : t.SelectsKey values p) :
    (c.withRow t new).chosen t (some p) = [new] := by
  have holdsOf (row : StoredRow) : (p.truth [(c.withRow t new).place Sql.rootLabel t row] == some true) = true ↔
      ∀ e ∈ t.keyTests values, e.truth [(c.withRow t new).place Sql.rootLabel t row] = some true := by
    rw [beq_iff_eq, p.truth_conjuncts]
    exact forall_congr' fun e => imp_congr_left (selects e)
  have own : (p.truth [(c.withRow t new).place Sql.rootLabel t new] == some true) = true := by
    rw [holdsOf]
    intro e listed
    obtain ⟨i, column, v, here, value, key, rfl⟩ := Table.mem_keyTests.1 listed
    have bound := binds.binds i column v here key value
    rw [holds.truth_equals here admits.settled bound, admits.kept i column v here value]
    exact ⟨bound.kept_ne_null, bound.same_kept⟩
  have others : ∀ old ∈ (c.stored t).rows,
      ¬(p.truth [(c.withRow t new).place Sql.rootLabel t old] == some true) = true := by
    intro old stored all
    obtain ⟨i, column, here, key, differs⟩ := admits.apart old stored
    obtain ⟨v, value⟩ := value_at whole here
    have bound := binds.binds i column _ here key value
    have settled := holds.settled old stored
    have equal := (holdsOf old).1 all _ (Table.mem_keyTests.2 ⟨i, column, _, here, value, key, rfl⟩)
    rw [holds.truth_equals here settled bound] at equal
    have same := bound.same_of_bound (holds.stored_value here settled) equal.2
    rw [← admits.kept i column v here value, differs] at same
    exact Bool.false_ne_true same
  have rows := (insertRow_perm new (c.stored t).rows).filter
    fun row => p.truth [(c.withRow t new).place Sql.rootLabel t row] == some true
  rw [List.filter_cons_of_pos (a := new) own, List.filter_eq_nil_iff.2 others, List.perm_singleton] at rows
  rw [chosen, holds.stored_withRow]
  exact rows

theorem Holds.valuesOf_withRow (holds : c.Holds t) (admits : c.Admits t values new) (whole : values.length = t.width) :
    (c.withRow t new).valuesOf t new = List.zipWith (fun column v => column.dataType.kept v) t.columns values := by
  refine List.ext_getElem? fun i => ?_
  rw [valuesOf, Table.columnNames, List.map_map, List.getElem?_map, List.getElem?_zipWith]
  rcases here : t.columns[i]? with _ | column
  · rfl
  · obtain ⟨v, value⟩ := value_at whole here
    have cell : ((c.withRow t new).place "" t new).cell column.name = ⟨new.valueAt i, _⟩ :=
      holds.cell_withRow here ""
    rw [value, Option.map_some]
    simp only []
    rw [← admits.kept i column v here value]
    exact congrArg (fun cell : Cell => some cell.value) cell

end Store.Content

end Rows

section Shapes

variable {n : Nat} {s : Shape n} {key : List String} {d : Descriptor n} {r : s.Record}

namespace Shape

/-- A shape whose records are written and read field by field, as its field list says. -/
def Derived (s : Shape n) : Prop :=
  ∃ name table key fields, s = .ofFields name table key fields

/-- Records that a table can give back: all but those with a real number that is none, a moment with a leap second other
    than at the end of a minute, or one of universal time in a year of other than four digits. -/
def Keeps (s : Shape n) (r : s.Record) : Prop :=
  RecordMapper.Record.Keeps (s.members.map Prod.snd) r

/-- Equality in every field that is a column, where a zero equals the other zero. -/
def Agrees (s : Shape n) (r r' : s.Record) : Prop :=
  RecordMapper.Record.Agrees (s.members.map Prod.snd) r r'

theorem Derived.width (derived : s.Derived) (described : s.descriptorKeyedBy key = .ok d) :
    (s.write r).length = d.table.width := by
  obtain ⟨name, table, own, fields, rfl⟩ := derived
  obtain ⟨-, columns, -⟩ := Descriptor.resolve_eq_ok described
  rw [Table.width, columns, List.length_map]
  exact (RecordMapper.Record.length_values _ r).trans (List.length_map _)

theorem Derived.bindsKey (derived : s.Derived) (described : s.descriptorKeyedBy key = .ok d)
    (keyed : d.table.keyColumns ≠ []) (required : ∀ column ∈ d.table.keyColumns, column.nullable = false)
    (keeps : s.Keeps r) : d.table.BindsKey (s.write r) := by
  refine ⟨keyed, fun i column v here inKey value => ?_⟩
  have obliged := required column (List.mem_filter.2 ⟨List.mem_of_getElem? here, inKey⟩)
  obtain ⟨name, table, own, fields, rfl⟩ := derived
  obtain ⟨-, columns, -⟩ := Descriptor.resolve_eq_ok described
  rw [columns, List.getElem?_map, Option.map_eq_some_iff] at here
  obtain ⟨member, place, rfl⟩ := here
  have binds := List.forall₂_map_left_iff.1 (RecordMapper.Record.binds keeps)
  obtain ⟨w, written, bound⟩ := forall₂_getElem? binds place
  obtain rfl := Option.some.inj (value.symm.trans written)
  exact bound ((member.2.nullable_codec).symm.trans obliged)

/-- What the columns store of a record is read as a record that agrees with it. -/
theorem Derived.read_kept (derived : s.Derived) (described : s.descriptorKeyedBy key = .ok d) (keeps : s.Keeps r) :
    ∃ r', d.table.read s.read (List.zipWith (fun column v => column.dataType.kept v) d.table.columns (s.write r)) =
      .ok r' ∧ s.Agrees r r' := by
  obtain ⟨name, table, own, fields, rfl⟩ := derived
  obtain ⟨-, columns, -⟩ := Descriptor.resolve_eq_ok described
  have width : d.table.width = ((fields.filterMap Field.column?).map Prod.snd).length := by
    rw [Table.width, columns, List.length_map, List.length_map]
    rfl
  have stored : List.zipWith (fun column v => column.dataType.kept v) d.table.columns
      ((ofFields name table own fields).write r) = RecordMapper.Record.kept _ r := by
    rw [columns, List.zipWith_map_left]
    unfold RecordMapper.Record.kept
    rw [List.zipWith_map_left]
    rfl
  obtain ⟨r', read, agrees⟩ := Table.read_kept keeps width
  exact ⟨r', stored ▸ read, agrees⟩

end Shape

end Shapes

section Retrieval

variable {enforces : Bool}

/-- A record that is inserted comes back when it is selected by its key: one row is added that the key's tests alone
    choose, what is read from it agrees with the record and has no relations loaded, and all else is as it was. The
    query fails if the engine cannot stack the conjunction of the tests, as it can those of up to 89 columns in a row. -/
theorem Database.insert_select_by_key (g : ShapeGraph) (s : Fin g.size) (derived : (g.shape s).Derived)
    (key : List String) (d : Descriptor g.size) (described : (g.shape s).descriptorKeyedBy key = .ok d)
    (keyed : d.table.keyColumns ≠ []) (required : ∀ column ∈ d.table.keyColumns, column.nullable = false)
    (db after : Database) (sound : Sound enforces db) (holds : db.engine.store.content.Holds d.table)
    (r : (g.shape s).Record) (keeps : (g.shape s).Keeps r) (n : Nat)
    (done : (insert (.ofTable d.table : Query g s) [r] .all).run db = (.ok n, after)) :
    ∃ row l, (∀ old ∈ (db.engine.store.content.stored d.table).rows, old.id ≠ row.id) ∧
      after.engine.store.content = db.engine.store.content.withRow d.table row ∧
      l.relations = [] ∧ (g.shape s).Agrees r l.record ∧
      (∀ p, d.table.SelectsKey ((g.shape s).write r) p →
        (((Query.ofTable d.table : Query g s).filter p).Stackable →
          ∃ last, (select ((Query.ofTable d.table : Query g s).filter p)).run after = (.ok [l], last) ∧
            last.engine.store.content = after.engine.store.content) ∧
        (¬((Query.ofTable d.table : Query g s).filter p).Stackable →
          ∀ records, ((select ((Query.ofTable d.table : Query g s).filter p)).run after).1 ≠ .ok records)) ∧
      ∀ p, Predicate.all (d.table.keyTests ((g.shape s).write r)) = some p →
        d.table.SelectsKey ((g.shape s).write r) p ∧
          (((Query.ofTable d.table : Query g s).filter p).Stackable ↔ d.table.keyColumns.length ≤ 89) := by
  have whole := derived.width (r := r) described
  have binds := derived.bindsKey described keyed required keeps
  obtain ⟨-, plain, row, admits, added⟩ := insert_one sound holds binds done
  obtain ⟨r', read, agrees⟩ := derived.read_kept described keeps
  refine ⟨row, .unrelated r', admits.fresh, added, rfl, agrees,
    fun p selects => ⟨fun fits => ?_, fun deep records chosen => deep (stackable_of_select chosen)⟩,
    fun p joined => ?_⟩
  · obtain ⟨condition, compiled⟩ := selects.condition binds
    have shallow := (Query.stackable_ofTable compiled).1 fits
    have wide : d.table.columns ≠ [] := by
      obtain ⟨column, inKey⟩ := List.exists_mem_of_ne_nil _ keyed
      exact List.ne_nil_of_mem (List.mem_filter.1 inKey).1
    have short : Matchable condition := Predicate.matchable_of_none compiled selects.patterns
    refine select_chosen plain wide (added ▸ holds.table?_withRow row) (holds.known_withRow row) compiled shallow short ?_
    rw [added, holds.chosen_withRow admits binds whole selects]
    refine .cons ?_ .nil
    rw [Loaded.readOne, holds.valuesOf_withRow admits whole, read]
    rfl
  · have selects := Table.selectsKey_all joined
    obtain ⟨condition, compiled⟩ := selects.condition binds
    exact ⟨selects, (Query.stackable_ofTable compiled).trans (Table.stackable_all_iff binds whole joined compiled)⟩

end Retrieval

section Logbook

def logbook : ShapeGraph where
  size := 1
  shape _ := .ofFields "Reading" "reading" ["sensor", "number"]
    [⟨"sensor", .column ⟨.string, false⟩⟩, ⟨"number", .column ⟨.int32, false⟩⟩, ⟨"value", .column ⟨.float64, true⟩⟩]

def readings : Fin logbook.size := ⟨0, by decide⟩

def readingTable : Table :=
  ⟨"reading", [⟨"sensor", .text, false, true⟩, ⟨"number", .integer, false, true⟩, ⟨"value", .float, true, false⟩],
    by decide⟩

def logbookDatabase : Database :=
  .opened ⟨⟨⟨createTable .empty readingTable.definition, 0, none⟩,
    .make 0 true (createTable .empty readingTable.definition)⟩, .collecting⟩

def zeroReading : (logbook.shape readings).Record :=
  ("roof", (7 : Int32), some (Number.Binary64.mk 0x8000000000000000), ())

theorem logbook_sound : Database.Sound true logbookDatabase := by
  have distinct : ((createTable .empty readingTable.definition).tables.map fun t => foldCase t.name).Nodup := by decide
  exact ⟨rfl, distinct, fun _ _ none => (nomatch none), fun _ => rfl⟩

theorem logbook_holds : logbookDatabase.engine.store.content.Holds readingTable :=
  have checked : checkCreate .empty readingTable.definition ⟨"reading", 0⟩ = .ok () := rfl
  Content.holds_createTable checked

theorem zeroReading_keeps : (logbook.shape readings).Keeps zeroReading := by
  refine ⟨trivial, trivial, fun value here => ?_, trivial⟩
  cases here
  show (Number.Binary64.mk 0x8000000000000000).read ≠ .notANumber
  decide

theorem insert_zeroReading : ∃ n after,
    (Database.insert (.ofTable readingTable : Query logbook readings) [zeroReading] .all).run logbookDatabase =
      (.ok n, after) := by
  have succeeds : ((Database.insert (.ofTable readingTable : Query logbook readings) [zeroReading] .all).run
      logbookDatabase).1.isOk = true := by
    decide +kernel
  rcases ran : (Database.insert (.ofTable readingTable : Query logbook readings) [zeroReading] .all).run logbookDatabase
    with ⟨failure | n, after⟩
  · rw [ran] at succeeds
    cases succeeds
  · exact ⟨n, after, rfl⟩

theorem insert_select_by_key_reading :
    (logbook.shape readings).Derived ∧ readingTable.keyColumns ≠ [] ∧
    (∀ column ∈ readingTable.keyColumns, column.nullable = false) ∧ Database.Sound true logbookDatabase ∧
    logbookDatabase.engine.store.content.Holds readingTable ∧ (logbook.shape readings).Keeps zeroReading ∧
    ∃ n after p l last,
      (Database.insert (.ofTable readingTable : Query logbook readings) [zeroReading] .all).run logbookDatabase =
        (.ok n, after) ∧
      Predicate.all (readingTable.keyTests ((logbook.shape readings).write zeroReading)) = some p ∧
      (Database.select ((Query.ofTable readingTable : Query logbook readings).filter p)).run after = (.ok [l], last) ∧
      (logbook.shape readings).Agrees zeroReading l.record := by
  have derived : (logbook.shape readings).Derived := ⟨_, _, _, _, rfl⟩
  have described : (logbook.shape readings).descriptorKeyedBy ["sensor", "number"] = .ok ⟨readingTable, []⟩ := rfl
  have keyed : readingTable.keyColumns ≠ [] := by decide
  have required : ∀ column ∈ readingTable.keyColumns, column.nullable = false := by decide
  obtain ⟨n, after, done⟩ := insert_zeroReading
  obtain ⟨row, l, -, -, -, agrees, chosen, conjunction⟩ := Database.insert_select_by_key logbook readings derived _ _ described keyed
    required logbookDatabase after logbook_sound logbook_holds zeroReading zeroReading_keeps n done
  obtain ⟨p, joined⟩ : ∃ p, Predicate.all (readingTable.keyTests ((logbook.shape readings).write zeroReading)) = some p :=
    ⟨_, rfl⟩
  have binds := derived.bindsKey described keyed required zeroReading_keeps
  obtain ⟨last, selected, -⟩ := (chosen p (conjunction p joined).1).1 ((conjunction p joined).2.2 (by decide))
  exact ⟨derived, keyed, required, logbook_sound, logbook_holds, zeroReading_keeps, n, after, p, l, last, done, joined,
    selected, agrees⟩

end Logbook

section Grid

def letters (n : Nat) : String :=
  .ofList (List.replicate n 'c')

theorem letters_injective : Function.Injective letters := by
  intro m n same
  have lists : List.replicate m 'c' = List.replicate n 'c' := String.ofList_injective same
  simpa using congrArg List.length lists

theorem foldCase_letters (n : Nat) : foldCase (letters n) = letters n := by
  rw [foldCase, letters, String.toList_ofList, List.map_replicate]
  rfl

def gridNames : List String :=
  (List.range 96).map fun n => letters (n + 1)

theorem gridNames_nodup : gridNames.Nodup :=
  List.nodup_range.map fun _ _ same => Nat.succ.inj (letters_injective same)

def gridFields : List (Field 1) :=
  gridNames.map fun name => ⟨name, .column ⟨.int64, false⟩⟩

def grid : ShapeGraph where
  size := 1
  shape _ := .ofFields "Cell" "cell" gridNames gridFields

def cells : Fin grid.size := ⟨0, by decide⟩

def gridTable : Table :=
  ⟨"cell", gridNames.map fun name => ⟨name, .integer, false, true⟩, by
    rw [List.map_map]
    exact (List.map_id gridNames).symm ▸ gridNames_nodup⟩

def ones : (n : Nat) → Record (List.replicate n ⟨.int64, false⟩)
  | 0 => ()
  | n + 1 => ((1 : Int64), ones n)

def corner : (grid.shape cells).Record := ones 96

def gridDatabase : Database :=
  ⟨⟨⟨⟨createTable .empty gridTable.definition, 0, none⟩,
    { Connection.make 0 true (createTable .empty gridTable.definition) with explicit := true }⟩, .collecting⟩,
    .opened .initial⟩

theorem gridFields_columns : gridFields.filterMap Field.column? = gridNames.map fun name => (name, ⟨.int64, false⟩) := by
  rw [gridFields, List.filterMap_map]
  exact congrFun List.filterMap_eq_map' gridNames

theorem grid_described : (grid.shape cells).descriptor = .ok ⟨gridTable, []⟩ := by
  have names : gridFields.map Field.name = gridNames := by
    rw [gridFields, List.map_map]
    exact List.map_id gridNames
  have listed : Field.columnNames gridFields = gridNames := by
    rw [Field.columnNames, gridFields_columns, List.map_map]
    exact List.map_id gridNames
  rcases Descriptor.resolve_cases "cell" gridFields gridNames with ⟨_, _, -, refuses⟩ | ⟨-, d, resolved⟩
  · rcases Descriptor.undescribed_of_refuses refuses with repeated | ⟨f, member, type, embedded⟩ | ⟨name, asked, absent⟩
    · exact absurd (names ▸ gridNames_nodup) repeated
    · obtain ⟨name, -, rfl⟩ := List.mem_map.1 member
      cases embedded
    · exact absurd (listed ▸ asked) absent
  · obtain ⟨⟨name, columns, distinct⟩, relations⟩ := d
    obtain ⟨rfl, stands, rfl⟩ := Descriptor.resolve_eq_ok resolved
    have unrelated : gridFields.filterMap Field.relation? = [] :=
      List.filterMap_eq_nil_iff.2 (List.forall_mem_map.2 fun _ _ => rfl)
    have keyed : ∀ name ∈ gridNames, Descriptor.column (Descriptor.keyNames (gridFields.filterMap Field.column?) gridNames)
        (name, ⟨.int64, false⟩) = ⟨name, .integer, false, true⟩ := by
      intro name member
      have key : gridNames.contains name = true := List.contains_iff_mem.2 member
      exact congrArg (Column.mk name .integer false) key
    simp only [gridFields_columns, List.map_map] at stands
    rw [gridFields_columns] at keyed
    obtain rfl := stands.trans (List.map_congr_left keyed)
    rw [unrelated] at resolved
    exact resolved

theorem grid_distinct : (gridTable.columnNames.map foldCase).Nodup := by
  have folded : gridTable.columnNames.map foldCase = gridNames := by
    simp only [Table.columnNames, gridTable, gridNames, List.map_map, Function.comp_def, foldCase_letters]
  exact folded ▸ gridNames_nodup

theorem ones_keeps (n : Nat) : Record.Keeps (List.replicate n ⟨.int64, false⟩) (ones n) := by
  induction n with
  | zero => trivial
  | succ n ih => exact ⟨trivial, ih⟩

theorem corner_keeps : (grid.shape cells).Keeps corner :=
  ones_keeps 96

theorem grid_keyColumns : gridTable.keyColumns = gridTable.columns :=
  List.filter_eq_self.2 (List.forall_mem_map.2 fun _ _ => rfl)

theorem length_gridColumns : gridTable.columns.length = 96 := by
  rw [gridTable, List.length_map, gridNames, List.length_map, List.length_range]

theorem gridColumns_ne_nil : gridTable.columns ≠ [] :=
  List.ne_nil_of_length_pos (length_gridColumns ▸ by decide)

theorem grid_required : ∀ column ∈ gridTable.keyColumns, column.nullable = false := by
  rw [grid_keyColumns]
  exact List.forall_mem_map.2 fun _ _ => rfl

theorem grid_plain : gridTable.Plain := by
  refine ⟨by decide, fun name listed => ?_⟩
  obtain ⟨_, known, rfl⟩ := List.mem_map.1 listed
  obtain ⟨_, named, rfl⟩ := List.mem_map.1 known
  obtain ⟨n, -, rfl⟩ := List.mem_map.1 named
  rw [letters, String.toList_ofList]
  exact fun zero => absurd (List.eq_of_mem_replicate zero) (by decide)

theorem grid_derived : (grid.shape cells).Derived :=
  ⟨_, _, _, _, rfl⟩

theorem grid_awaits : (createTable .empty gridTable.definition).Awaits gridTable ((grid.shape cells).write corner) := by
  have keys : gridTable.keyColumns ≠ [] := grid_keyColumns ▸ gridColumns_ne_nil
  have binds := grid_derived.bindsKey grid_described keys grid_required corner_keeps
  have composite : 2 ≤ gridTable.keyColumns.length := by
    rw [grid_keyColumns, length_gridColumns]
    decide
  refine Content.awaits_createTable grid_distinct composite (grid_derived.width grid_described)
    fun i column v here value _ => ?_
  have inKey : column.key = true := by
    obtain ⟨name, -, rfl⟩ := List.mem_map.1 (List.mem_of_getElem? here)
    rfl
  exact (binds.binds i column v here inKey value).kept_ne_null

theorem grid_sound : Database.Sound true gridDatabase := by
  refine ⟨rfl, ?_, fun _ _ none => (nomatch none), fun apart => (nomatch apart)⟩
  exact List.nodup_singleton _

theorem length_gridTests : (gridTable.keyTests ((grid.shape cells).write corner)).length = 96 := by
  rw [Table.length_keyTests (grid_derived.width grid_described), grid_keyColumns, length_gridColumns]

/-- A cell goes in, and the engine does not stack the 96 tests of its key. -/
theorem Database.select_wide_key_refused : (grid.shape cells).Derived ∧
    (grid.shape cells).descriptor = .ok ⟨gridTable, []⟩ ∧ gridTable.keyColumns ≠ [] ∧
    (∀ column ∈ gridTable.keyColumns, column.nullable = false) ∧ Sound true gridDatabase ∧
    gridDatabase.engine.store.content.Holds gridTable ∧ (grid.shape cells).Keeps corner ∧
    ∃ after p, (insert (.ofTable gridTable : Query grid cells) [corner] .all).run gridDatabase = (.ok 1, after) ∧
      Predicate.all (gridTable.keyTests ((grid.shape cells).write corner)) = some p ∧
      gridTable.SelectsKey ((grid.shape cells).write corner) p ∧
      ∀ records, ((select ((Query.ofTable gridTable : Query grid cells).filter p)).run after).1 ≠ .ok records := by
  refine ⟨grid_derived, grid_described, grid_keyColumns ▸ gridColumns_ne_nil, grid_required, grid_sound,
    grid_awaits.holds, corner_keeps, ?_⟩
  have tests := length_gridTests
  have done : ((insert (.ofTable gridTable : Query grid cells) [corner] .all).run gridDatabase).1 = .ok 1 :=
    insert_first grid_plain gridColumns_ne_nil grid_awaits rfl rfl rfl rfl
  rcases joined : Predicate.all (gridTable.keyTests ((grid.shape cells).write corner)) with _ | p
  · rcases listed : gridTable.keyTests ((grid.shape cells).write corner) with _ | ⟨first, rest⟩
    · rw [listed] at tests
      cases tests
    · rw [listed] at joined
      cases joined
  · rcases ran : (insert (.ofTable gridTable : Query grid cells) [corner] .all).run gridDatabase with ⟨outcome, after⟩
    rw [ran] at done
    obtain rfl : outcome = .ok 1 := done
    exact ⟨after, p, rfl, rfl, Table.selectsKey_all joined,
      fun _ => select_comparisons_refused Predicate.deepens_and _ joined (by omega)⟩

end Grid

end RecordMapper
