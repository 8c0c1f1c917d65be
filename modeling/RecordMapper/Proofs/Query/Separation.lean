import RecordMapper.Proofs.Query.Retrieval
import RecordMapper.Proofs.Store.Uniqueness

namespace RecordMapper

open RecordMapper.Store

section Keys

/-- Columns of a key in which rows may be null: nullable ones, unless one column of whole numbers is the whole key. That
    one is the row id. -/
def Table.OpenKey (t : Table) (column : Column) : Prop :=
  column ∈ t.keyColumns ∧ column.nullable = true ∧ (t.keyColumns.length = 1 → column.dataType.declared ≠ "INTEGER")

theorem Table.eq_of_single {t : Table} {column other : Column} (single : t.keyColumns.length = 1)
    (listed : column ∈ t.columns) (key : column.key = true) (also : other ∈ t.columns) (otherKey : other.key = true) :
    column = other := by
  obtain ⟨only, keys⟩ := List.length_eq_one_iff.1 single
  have mine : column ∈ t.keyColumns := List.mem_filter.2 ⟨listed, key⟩
  have its : other ∈ t.keyColumns := List.mem_filter.2 ⟨also, otherKey⟩
  rw [keys, List.mem_singleton] at mine its
  rw [mine, its]

theorem Store.nodup_keyPositions (t : StoredTable) : t.keyPositions.Nodup := by
  rw [StoredTable.keyPositions, List.nodup_flatMap]
  refine ⟨fun k _ => List.nodup_range.filter _, ?_⟩
  refine List.nodup_range.imp fun {k l} other i first second => ?_
  have place := (List.mem_filter.1 first).2
  have place' := (List.mem_filter.1 second).2
  rcases here : t.columns[i]? with _ | column
  · rw [here] at place
    cases place
  · rw [here] at place place'
    simp only [Option.map_some, Option.getD_some, beq_iff_eq] at place place'
    omega

variable {c : Content} {t : Table} {a b row : StoredRow} {i : Nat} {column : Column}

namespace Store.Content

def Complete (c : Content) (t : Table) (row : StoredRow) : Prop :=
  ∀ column, t.OpenKey column → (c.cell t row column.name).value ≠ .null

/-- Two rows of a table that are taken for one are one, unless both are null in a column of the key. -/
def Separates (c : Content) (t : Table) : Prop :=
  ∀ a ∈ (c.stored t).rows, ∀ b ∈ (c.stored t).rows,
    Value.sameRow (t.identity (c.valuesOf t a)) (t.identity (c.valuesOf t b)) = true →
      a = b ∨ ∃ column, t.OpenKey column ∧ (c.cell t a column.name).value = .null ∧ (c.cell t b column.name).value = .null

/-- The contents that the engine admits for a descriptor's table: in which it has just been created, and what commands
    that do not drop it make of these, while it has fewer rows than there are ids. -/
inductive Hosts (t : Table) : Content → Prop where
  | created {c : Content} {mark : Sql.Mark} (checked : checkCreate c t.definition mark = .ok ()) :
    Hosts t (createTable c t.definition)
  | changed {c : Content} {enforces : Bool} {command : Sql.Command} {effect : Effect} (hosts : c.Hosts t)
    (spares : Spares t.name command) (accepts : c.Accepts command)
    (few : (effect.content.stored t).rows.length < 9223372036854775808)
    (done : effectOf c enforces command = .ok effect) : Hosts t effect.content

theorem Holds.next {enforces : Bool} {command : Sql.Command} {effect : Effect} (holds : c.Holds t)
    (spares : Spares t.name command) (done : effectOf c enforces command = .ok effect) :
    (c.stored t).Next c command (effect.content.stored t) := by
  obtain ⟨after, found, next⟩ := effectOf_next holds.table? spares done
  rwa [stored_of_table? found]

theorem Holds.value (holds : c.Holds t) (here : t.columns[i]? = some column) :
    (c.cell t row column.name).value = row.valueAt i := by
  have spot : (c.stored t).spot? column.name = some (.column i) := by
    rw [StoredTable.spot?, holds.columnIndex? here rfl]
  have stored : c.stored t = { c.stored t with rows := (c.stored t).rows } := rfl
  exact congrArg Cell.value (cell_of_spot? stored spot)

theorem Holds.normal_of_sameRow (holds : c.Holds t) (keyed : t.keyColumns ≠ []) (here : t.columns[i]? = some column)
    (key : column.key = true) (same : Value.sameRow (t.identity (c.valuesOf t a)) (t.identity (c.valuesOf t b)) = true) :
    (a.valueAt i).normal = (b.valueAt i).normal := by
  have keys := (sameRow_identity _ _ _).1 same
  rw [Table.identityKey_valuesOf keyed, Table.identityKey_valuesOf keyed, keyOf, keyOf, List.map_map, List.map_map] at keys
  have listed : column.name ∈ t.keyNames := List.mem_map_of_mem (List.mem_filter.2 ⟨List.mem_of_getElem? here, key⟩)
  have alike := List.map_inj_left.1 keys column.name listed
  simp only [Function.comp_apply, holds.value here] at alike
  exact alike

theorem Holds.idColumn? (holds : c.Holds t) (here : t.columns[i]? = some column) (key : column.key = true)
    (single : t.keyColumns.length = 1) (whole : column.dataType.declared = "INTEGER") :
    (c.stored t).idColumn? = some i := by
  have alone : ∀ j, j ∈ (c.stored t).keyPositions ↔ j ∈ [i] := by
    intro j
    rw [List.mem_singleton, holds.mem_keyPositions]
    constructor
    · rintro ⟨other, there, otherKey⟩
      have one := Table.eq_of_single single (List.mem_of_getElem? there) otherKey (List.mem_of_getElem? here) key
      rw [one, ← here] at there
      exact ((List.getElem?_inj (List.getElem?_eq_some_iff.1 here).1 t.distinct.of_map).1 there.symm).symm
    · rintro rfl
      exact ⟨column, here, key⟩
  have keys : (c.stored t).keyPositions = [i] :=
    List.perm_singleton.1 ((List.perm_ext_iff_of_nodup (nodup_keyPositions _) (List.nodup_singleton i)).2 alone)
  have declared : Text.sameIgnoringCase (keptType "INTEGER") "INTEGER" = true := by decide
  simp only [StoredTable.idColumn?, keys]
  rw [holds.column here, whole, Option.map_some, Option.getD_some, if_pos declared]

namespace Hosts

theorem holds (hosts : c.Hosts t) : c.Holds t := by
  induction hosts with
  | created checked => exact holds_createTable checked
  | changed _ spares accepts few done ih => exact ih.after spares accepts few done

theorem guarded (hosts : c.Hosts t) : (c.stored t).Guarded := by
  induction hosts with
  | created checked =>
    rw [stored_of_table? (table?_createTable checked)]
    exact ⟨placed_newTable t, fun row none => absurd none List.not_mem_nil⟩
  | changed hosts spares accepts few done ih => exact ih.next accepts (hosts.holds.next spares done)

theorem apart (hosts : c.Hosts t) (keyed : t.keyColumns ≠ []) : (c.stored t).Apart := by
  induction hosts with
  | created checked =>
    rw [stored_of_table? (table?_createTable checked)]
    exact .nil
  | changed hosts spares accepts few done ih =>
    have holds := hosts.holds
    have after := (hosts.changed spares accepts few done).holds
    exact ih.next (holds.keyed keyed) holds.placed after.regular (holds.next spares done)

theorem open_of_null (hosts : c.Hosts t) (stored : row ∈ (c.stored t).rows) (here : t.columns[i]? = some column)
    (key : column.key = true) (null : row.valueAt i = .null) : t.OpenKey column := by
  have unguarded : ¬(c.stored t).Guards i := fun guards => hosts.guarded.filled row stored i guards null
  refine ⟨List.mem_filter.2 ⟨List.mem_of_getElem? here, key⟩, ?_, ?_⟩
  · by_contra required
    apply unguarded
    exact .inl ⟨_, hosts.holds.column here, by simpa using required⟩
  · intro single whole
    apply unguarded
    exact .inr (hosts.holds.idColumn? here key single whole)

/-- In a table with a key, rows that are taken for one are one or null in the same column of the key. -/
theorem separates (hosts : c.Hosts t) (keyed : t.keyColumns ≠ []) : c.Separates t := by
  intro a first b second same
  by_cases one : a = b
  · exact .inl one
  · right
    obtain ⟨i, inKey, differ⟩ := (hosts.apart keyed).tellsApart first second one
    obtain ⟨column, here, key⟩ := hosts.holds.mem_keyPositions.1 inKey
    have normal := hosts.holds.normal_of_sameRow keyed here key same
    have null : a.valueAt i = .null := by
      apply differ.resolve_right
      rw [sameValue_of_normal normal]
      exact Bool.noConfusion
    have also : b.valueAt i = .null := by
      rwa [← normal_eq_null, ← normal, normal_eq_null]
    refine ⟨column, hosts.open_of_null first here key null, ?_, ?_⟩
    · rw [hosts.holds.value here, null]
    · rw [hosts.holds.value here, also]

end Hosts

theorem Separates.eq_of_complete (separates : c.Separates t) (first : a ∈ (c.stored t).rows)
    (second : b ∈ (c.stored t).rows) (complete : c.Complete t b)
    (same : t.identityKey (c.valuesOf t a) = t.identityKey (c.valuesOf t b)) : a = b := by
  rcases separates a first b second ((sameRow_identity _ _ _).2 same) with one | ⟨column, opened, -, null⟩
  · exact one
  · exact absurd null (complete column opened)

theorem Separates.mem_of_complete {kind : StoredRow → Prop} {rows : List StoredRow} (separates : c.Separates t)
    (represents : c.Represents t kind rows) (stored : ∀ row, kind row → row ∈ (c.stored t).rows) (good : kind row)
    (complete : c.Complete t row) : row ∈ rows := by
  obtain ⟨other, kept, same⟩ := represents.whole row good
  have one := separates.eq_of_complete (stored other (represents.sound other kept)) (stored row good) complete same
  rwa [← one]

end Store.Content

end Keys

section Records

variable {g : ShapeGraph} {s : Fin g.size} {q : Query g s} {c : Content} {row : StoredRow} {l : Loaded g s}

def Plan.IsRoot (p : Plan) (c : Content) (row : StoredRow) : Prop :=
  ∃ k : Combination, k.Satisfies c p ∧ k.root = row

def Plan.page {α : Type} (p : Plan) (items : List α) : List α :=
  match p.heldPaging? with
  | some paging => paging.apply items
  | none => items

theorem Plan.forall₂_page {α β : Type} {R : α → β → Prop} {items : List α} {others : List β} (p : Plan)
    (all : List.Forall₂ R items others) : List.Forall₂ R (p.page items) (p.page others) := by
  unfold Plan.page
  split
  · rename_i paging _
    have rest := List.forall₂_drop paging.skip.toNat all
    unfold Paging.apply
    split
    · rename_i limit _
      exact List.forall₂_take limit.toNat rest
    · exact rest
  · exact all

/-- A record is that of a root row. If the row is complete, each joined relation has children of this row only, each
    once, and all of them that are complete. -/
structure Loaded.KeepsTo (c : Content) (q : Query g s) (row : StoredRow) (l : Loaded g s) : Prop where
  record : q.plan.root.read (g.shape s).read (c.valuesOf q.plan.root row) = .ok l.record
  relations : c.Complete q.plan.root row → ∀ position join, q.plan.joins[position]? = some join →
    ∃ children rows, l.relations[position]? = some (join.relation, children) ∧ rows.Nodup ∧
      (∀ child ∈ rows, q.plan.IsChild c row position child) ∧
      (∀ child, q.plan.IsChild c row position child → c.Complete join.child child → child ∈ rows) ∧
      children.Holds c join.child rows

theorem Loaded.Gathers.keepsTo (gathers : l.Gathers c q row)
    (separates : ∀ t, t = q.plan.root ∨ t ∈ q.plan.joins.map Join.child → c.Separates t)
    (stored : row ∈ (c.stored q.plan.root).rows) : l.KeepsTo c q row := by
  refine ⟨gathers.record, ?_⟩
  intro complete position join here
  have apart := separates join.child (.inr (List.mem_map_of_mem (List.mem_of_getElem? here)))
  obtain ⟨children, rows, found, -, represents, holds⟩ := gathers.relations position join here
  have own : ∀ child, q.plan.IsKin c row position child → q.plan.IsChild c row position child := by
    rintro child ⟨k, satisfies, same, found⟩
    exact ⟨k, satisfies, (separates _ (.inl rfl)).eq_of_complete satisfies.root stored complete same, found⟩
  have kin : ∀ child, q.plan.IsChild c row position child → q.plan.IsKin c row position child := by
    rintro child ⟨k, satisfies, root, found⟩
    exact ⟨k, satisfies, by rw [root], found⟩
  refine ⟨children, rows, found, represents.nodup, ?_, ?_, holds⟩
  · intro child kept
    exact own child (represents.sound child kept)
  · intro child isChild whole
    exact apart.mem_of_complete represents (fun child isKin => (own child isKin).stored here) (kin child isChild) whole

/-- In tables that were created from descriptors with keys, two rows are taken for one record only if both are null in a
    column of the key that may be null. A joined query has a record of its own for each complete root row that takes
    part, with the children of this row and no others; no complete child is left out. -/
theorem Database.select_separates (db : Database) :
    (∀ t, db.engine.store.content.Hosts t → t.keyColumns ≠ [] → db.engine.store.content.Separates t) ∧
    ∀ {g : ShapeGraph} {s : Fin g.size} (q : Query g s), q.Built → q.plan.joins ≠ [] →
      (∀ t, t = q.plan.root ∨ t ∈ q.plan.joins.map Join.child →
        db.engine.store.content.Hosts t ∧ t.keyColumns ≠ []) →
      ∀ records, ((Database.select q).run db).1 = .ok records →
        ∃ rows : List StoredRow, rows.Nodup ∧ (∀ row ∈ rows, q.plan.IsRoot db.engine.store.content row) ∧
          (∀ row, q.plan.IsRoot db.engine.store.content row →
            db.engine.store.content.Complete q.plan.root row → row ∈ rows) ∧
          List.Forall₂ (fun row l => l.KeepsTo db.engine.store.content q row) (q.plan.page rows) records := by
  constructor
  · intro t hosts keyed
    exact hosts.separates keyed
  · intro g s q built joined hosts records selected
    have separates : ∀ t, t = q.plan.root ∨ t ∈ q.plan.joins.map Join.child → db.engine.store.content.Separates t :=
      fun t listed => (hosts t listed).1.separates (hosts t listed).2
    have stored : ∀ row, q.plan.IsRoot db.engine.store.content row →
        row ∈ (db.engine.store.content.stored q.plan.root).rows := by
      rintro row ⟨k, satisfies, rfl⟩
      exact satisfies.root
    obtain ⟨rows, all, represents, gathers, rfl⟩ := select_gathers q built joined db records selected
    refine ⟨rows, represents.nodup, represents.sound, ?_, ?_⟩
    · intro row root complete
      exact (separates _ (.inl rfl)).mem_of_complete represents stored root complete
    · refine q.plan.forall₂_page ?_
      have known := (List.forall₂_and_left _ _).2 ⟨represents.sound, gathers⟩
      exact known.imp fun row l both => both.2.keepsTo separates (stored row both.1)

end Records

section Ledger

def ledger : ShapeGraph where
  size := 2
  shape
    | 0 => .ofFields "Account" "account" [] [⟨"id", .column ⟨.int64, false⟩⟩, ⟨"note", .column ⟨.string, true⟩⟩,
        ⟨"entries", .toMany (Fin.last 1)⟩]
    | 1 => .ofFields "Entry" "entry" [] [⟨"id", .column ⟨.int64, false⟩⟩, ⟨"account", .column ⟨.int64, false⟩⟩]

def accounts : Fin ledger.size := ⟨0, by decide⟩

def accountTable : Table := ⟨"account", [⟨"id", .integer, false, false⟩, ⟨"note", .text, true, true⟩], by decide⟩

def entryTable : Table := ⟨"entry", [⟨"id", .integer, false, true⟩, ⟨"account", .integer, false, false⟩], by decide⟩

def entries : Relation ledger.size := ⟨"entries", ⟨1, by decide⟩⟩

def accountsWithEntries : Query ledger accounts :=
  ⟨⟨accountTable, [⟨"entries", entryTable, .direct "id" "account"⟩], none, [], none⟩,
    [⟨"entries", entries.child, entryTable, 0⟩]⟩

def ledgerWith (accounts entries : List StoredRow) : Content :=
  ⟨[⟨"account", [⟨"id", "INTEGER", true, 0, none⟩, ⟨"note", "TEXT", false, 1, none⟩], accounts⟩,
    ⟨"entry", [⟨"id", "INTEGER", true, 1, none⟩, ⟨"account", "INTEGER", true, 0, none⟩], entries⟩], []⟩

def accountRows : List StoredRow :=
  [⟨1, [.integer 1, .text "rent"]⟩, ⟨2, [.integer 2, .null]⟩, ⟨3, [.integer 3, .null]⟩]

def entryRows : List StoredRow :=
  [⟨10, [.integer 10, .integer 1]⟩, ⟨20, [.integer 20, .integer 2]⟩, ⟨30, [.integer 30, .integer 3]⟩]

def ledgerDatabase : Database :=
  .opened ⟨⟨⟨ledgerWith accountRows entryRows, 0, none⟩, .make 0 true (ledgerWith accountRows entryRows)⟩, .collecting⟩

def insertAccounts : Sql.Command :=
  .insert "account" (some ["id", "note"]) [[.integer 1, .text "rent"], [.integer 2, .null], [.integer 3, .null]]

def insertEntries : Sql.Command :=
  .insert "entry" (some ["id", "account"])
    [[.integer 10, .integer 1], [.integer 20, .integer 2], [.integer 30, .integer 3]]

theorem ledger_inserted {t : Table} (hosts : (ledgerWith [] []).Hosts t)
    (few : ((ledgerWith accountRows []).stored t).rows.length < 9223372036854775808)
    (few' : ((ledgerWith accountRows entryRows).stored t).rows.length < 9223372036854775808) :
    (ledgerWith accountRows entryRows).Hosts t := by
  have first : effectOf (ledgerWith [] []) true insertAccounts = .ok ⟨ledgerWith accountRows [], some 3⟩ := rfl
  have second : effectOf (ledgerWith accountRows []) true insertEntries =
      .ok ⟨ledgerWith accountRows entryRows, some 3⟩ := rfl
  have mapped : IsMapped insertAccounts := rfl
  have mapped' : IsMapped insertEntries := rfl
  have spares : Content.Spares t.name insertAccounts := fun _ none => nomatch none
  have spares' : Content.Spares t.name insertEntries := fun _ none => nomatch none
  refine .changed (.changed hosts spares (mapped.accepts _) ?_ first) spares' (mapped'.accepts _) ?_ second
  · exact few
  · exact few'

theorem ledger_hosts (t : Table)
    (listed : t = accountsWithEntries.plan.root ∨ t ∈ accountsWithEntries.plan.joins.map Join.child) :
    ledgerDatabase.engine.store.content.Hosts t ∧ t.keyColumns ≠ [] := by
  have accountsChecked : checkCreate .empty accountTable.definition ⟨"account", 0⟩ = .ok () := rfl
  have entriesChecked : checkCreate (createTable .empty accountTable.definition) entryTable.definition ⟨"entry", 0⟩ =
      .ok () := rfl
  rcases listed with rfl | listed
  · have made : effectOf (createTable .empty accountTable.definition) true
        (.createTable entryTable.definition ⟨"entry", 0⟩) = .ok ⟨ledgerWith [] [], none⟩ := rfl
    have mapped : IsMapped (.createTable entryTable.definition ⟨"entry", 0⟩) := ⟨entryTable, rfl⟩
    have spares : Content.Spares accountTable.name (.createTable entryTable.definition ⟨"entry", 0⟩) :=
      fun _ none => nomatch none
    have created : (ledgerWith [] []).Hosts accountTable := by
      refine .changed (.created accountsChecked) spares (mapped.accepts _) ?_ made
      decide
    exact ⟨ledger_inserted created (by decide) (by decide), by decide⟩
  · obtain rfl := List.mem_singleton.1 listed
    exact ⟨ledger_inserted (.created entriesChecked) (by decide) (by decide), by decide⟩

theorem accountsWithEntries_built : accountsWithEntries.Built := by
  have described : (ledger.shape accounts).descriptorKeyedBy ["note"] = .ok ⟨accountTable, [entries]⟩ := rfl
  have joined : (Query.ofTable accountTable).join entries "id" "account" = .ok accountsWithEntries := rfl
  exact .join (.keyedBy described) rfl joined

def entriesCommand : Sql.Command :=
  .select [⟨"t0", "id"⟩, ⟨"t0", "note"⟩, ⟨"t1", "id"⟩, ⟨"t1", "account"⟩]
    ⟨⟨"account", "t0"⟩, [⟨⟨"entry", "t1"⟩, ⟨"t0", "id"⟩, ⟨"t1", "account"⟩⟩], none⟩ [] none

theorem entriesCommand_text : entriesCommand.text = "SELECT t0.\"id\" AS \"t0.id\", t0.\"note\" AS \"t0.note\", " ++
    "t1.\"id\" AS \"t1.id\", t1.\"account\" AS \"t1.account\" FROM \"account\" AS t0 " ++
    "JOIN \"entry\" AS t1 ON t0.\"id\" = t1.\"account\"" := by
  decide +kernel

theorem entriesCommand_readable : ledgerDatabase.engine.Readable entriesCommand := by
  have ready := Engine.ready_of_text entriesCommand_text (by decide +kernel) (by decide +kernel)
  exact ⟨rfl, fun _ => rfl, ready.1, ready.2, rfl, rfl, rfl⟩

theorem entriesCommand_rows : rowsOf (ledgerWith accountRows entryRows) entriesCommand =
    given [[.integer 1, .text "rent", .integer 10, .integer 1], [.integer 2, .null, .integer 20, .integer 2],
      [.integer 3, .null, .integer 30, .integer 3]] := by
  simp only [rowsOf, entriesCommand, Store.select, mergeSort_unordered, windowed]
  rfl

def accountRecords : List (Loaded ledger accounts) :=
  [⟨((1 : Int64), some "rent", ()), [("entries", ⟨entries.child, [((10 : Int64), (1 : Int64), ())]⟩)]⟩,
    ⟨((2 : Int64), none, ()),
      [("entries", ⟨entries.child, [((20 : Int64), (2 : Int64), ()), ((30 : Int64), (3 : Int64), ())]⟩)]⟩]

theorem select_accounts : ((Database.select accountsWithEntries).run ledgerDatabase).1 = .ok accountRecords := by
  have made : accountsWithEntries.selectStatement = .ok entriesCommand.statement := rfl
  exact Database.select_joined_runs rfl made entriesCommand_readable entriesCommand_rows rfl rfl

theorem select_separates_ledger : ledgerDatabase.engine.store.content.Separates accountTable ∧
    ((Database.select accountsWithEntries).run ledgerDatabase).1 = .ok accountRecords ∧
    ∃ rows : List StoredRow, rows.Nodup ∧
      (∀ row ∈ rows, accountsWithEntries.plan.IsRoot ledgerDatabase.engine.store.content row) ∧
      (∀ row, accountsWithEntries.plan.IsRoot ledgerDatabase.engine.store.content row →
        ledgerDatabase.engine.store.content.Complete accountTable row → row ∈ rows) ∧
      List.Forall₂ (fun row l => l.KeepsTo ledgerDatabase.engine.store.content accountsWithEntries row)
        (accountsWithEntries.plan.page rows) accountRecords := by
  obtain ⟨hosts, keyed⟩ := ledger_hosts accountTable (.inl rfl)
  have separates := Database.select_separates ledgerDatabase
  exact ⟨separates.1 accountTable hosts keyed, select_accounts,
    separates.2 accountsWithEntries accountsWithEntries_built (List.cons_ne_nil _ _) ledger_hosts _ select_accounts⟩

/-- Two accounts without a note have one identity: the second has no record, and its entry is in that of the first. -/
theorem null_keys_merged : ∃ a b : StoredRow, ledgerDatabase.engine.store.content.Hosts accountTable ∧
    a ∈ (ledgerDatabase.engine.store.content.stored accountTable).rows ∧
    b ∈ (ledgerDatabase.engine.store.content.stored accountTable).rows ∧ a ≠ b ∧
    Value.sameRow (accountTable.identity (ledgerDatabase.engine.store.content.valuesOf accountTable a))
      (accountTable.identity (ledgerDatabase.engine.store.content.valuesOf accountTable b)) = true ∧
    ((Database.select accountsWithEntries).run ledgerDatabase).1 = .ok accountRecords :=
  ⟨⟨2, [.integer 2, .null]⟩, ⟨3, [.integer 3, .null]⟩, (ledger_hosts accountTable (.inl rfl)).1, by decide, by decide,
    by decide, by decide, select_accounts⟩

end Ledger

end RecordMapper
