import RecordMapper.Proofs.Schema.Course
import RecordMapper.Proofs.Schema.Growth
import RecordMapper.Proofs.Unit.Invariance

namespace RecordMapper

open RecordMapper.Store RecordMapper.Text

/-- Whether a definition makes a table whose name is taken, one with two columns of one name, or a column whose name is
    taken, letter case aside. -/
def Store.clashes (c : Content) : Sql.Command → Bool
  | .createTable t _ =>
    (c.table? t.name).isSome || !decide (t.columns.map fun column => foldCase column.name).Nodup
  | .addColumn table column => ((c.table? table).bind fun own => own.column? column.name).isSome
  | _ => false

/-- Two columns of a descriptor whose names are the same but for letter case. -/
structure Table.Twins (t : Table) (column other : Column) : Prop where
  listed : column ∈ t.columns
  also : other ∈ t.columns
  apart : column.name ≠ other.name
  same : sameIgnoringCase column.name other.name = true

def Known (tables : List (Except Failure Table)) (before : Content) (name : String) : Prop :=
  (∃ own ∈ before.tables, own.name = name) ∨ ∃ t : Table, .ok t ∈ tables ∧ t.name = name

/-- Why a definition that clashes is executed all the same: the table whose name it takes has been there before, or is
    one of those in question, and is spelled otherwise; or its descriptor has columns that differ in letter case alone. -/
inductive Overlooked (policy : Policy) (tables : List (Except Failure Table)) (before : Content) : Sql.Command → Prop where
  | table {t : Table} {name : String} (listed : .ok t ∈ tables) (kept : policy.contains .drop = false)
      (known : Known tables before name) (apart : name ≠ t.name) (same : sameIgnoringCase name t.name = true) : Overlooked policy tables before t.create
  | columns {t : Table} {column other : Column} (listed : .ok t ∈ tables) (twins : t.Twins column other) :
      Overlooked policy tables before t.create
  | column {t : Table} {column other : Column} (listed : .ok t ∈ tables) (twins : t.Twins column other)
      (optional : column.nullable = true ∧ other.nullable = true) : Overlooked policy tables before (t.addColumn column)

section Contents

variable {c c' : Content} {names : String → Prop} {t : Table}

def Store.Content.Names (c : Content) (names : String → Prop) : Prop :=
  ∀ own ∈ c.tables, names own.name

theorem Store.Content.Names.replace {own : StoredTable} (named : c.Names names) (known : names own.name) :
    (c.replace own).Names names := by
  intro other member
  obtain ⟨old, listed, rfl⟩ := List.mem_map.1 member
  split
  · exact known
  · exact named old listed

def Sql.Command.Makes (names : String → Prop) (command : Sql.Command) : Prop :=
  ∀ table mark, command = .createTable table mark → names table.name

theorem kept_names (names : String → Prop) :
    Content.KeptBy (Sql.Command.Makes names) fun c => c.Names names := by
  intro c enforces command effect named makes _ done
  have changes := effectOf_changes done
  generalize effect.content = after at changes ⊢
  cases changes with
  | kept tables =>
    rw [Content.Names, tables]
    exact named
  | changed found next =>
    apply named.replace
    rw [next.name]
    exact named _ (Content.table?_mem found).1
  | created asked =>
    intro own member
    rcases List.mem_append.1 member with old | new
    · exact named own old
    · rw [List.mem_singleton.1 new]
      exact makes _ _ asked
  | dropped =>
    intro own member
    exact named own (List.mem_filter.1 member).1

theorem twins_of_repeated (repeated : ¬(t.definition.columns.map fun column => foldCase column.name).Nodup) :
    ∃ column other, t.Twins column other := by
  by_contra none
  apply repeated
  have folded : (t.definition.columns.map fun column => foldCase column.name) = (t.columns.map Column.name).map foldCase := by
    simp [Table.definition, Column.definition]
  rw [folded]
  apply List.Nodup.map_on _ t.distinct
  intro name one other' two same
  obtain ⟨column, listed, rfl⟩ := List.mem_map.1 one
  obtain ⟨other, also, rfl⟩ := List.mem_map.1 two
  by_contra apart
  exact none ⟨column, other, listed, also, apart, (sameIgnoringCase_iff _ _).2 same⟩

end Contents

namespace Course

open Database

variable {α β : Type} {enforces : Bool} {P : Content → Sql.Command → Prop} {db : Database} {t : Table} {policy : Policy}

/-- Every definition that a course comes to is such, in the content in which it is executed. -/
def Meets (course : Course α) (P : Content → Sql.Command → Prop) (db : Database) : Prop :=
  ∀ command w, (Deed.define command, w) ∈ course.asked Database.host Deed.perform db → P w.engine.store.content command

theorem meets_done (outcome : Except Failure α) : Meets (.done outcome) P db :=
  fun _ _ none => (nomatch none)

theorem meets_read {c : Sql.Command} {take : List (List Value) → Except Failure α} : Meets (read c take) P db := by
  intro command w member
  cases List.mem_singleton.1 member

theorem meets_note {text : String} : Meets (note text) P db := by
  intro command w member
  cases List.mem_singleton.1 member

theorem meets_define {command : Sql.Command} (holds : P db.engine.store.content command) :
    Meets (define command) P db := by
  intro other w member
  cases List.mem_singleton.1 member
  exact holds

theorem Meets.bind {course : Course α} {act : Action α} {post : Content → α → Content → Prop} {next : α → Course β}
    (first : course.Meets P db) (runs : Runs course act) (ensures : Ensures enforces act post) (sound : Sound enforces db)
    (rest : ∀ a after, Sound enforces after → post db.engine.store.content a after.engine.store.content →
      (next a).Meets P after) : Meets (course.bind next) P db := by
  intro command w member
  rcases Script.mem_asked_bind course member with early | ⟨a, after, ran, later⟩
  · exact first command w early
  · rw [runs db] at ran
    obtain ⟨stays, holds⟩ := ensures db a after sound ran
    exact rest a after stays.sound holds command w later

end Course

section Overlooking

open Database

variable {enforces : Bool} {policy : Policy} {tables : List (Except Failure Table)} {before : Content} {db : Database}
  {t : Table}

def Excused (policy : Policy) (tables : List (Except Failure Table)) (before c : Content) (command : Sql.Command) : Prop :=
  clashes c command = true → Overlooked policy tables before command

theorem excused_create {c : Content} (listed : .ok t ∈ tables)
    (free : ∀ own, c.table? t.name = some own → policy.contains .drop = false ∧ Known tables before own.name ∧
      own.name ≠ t.name) : Excused policy tables before c t.create := by
  intro clash
  by_cases repeated : (t.definition.columns.map fun column => foldCase column.name).Nodup
  · rcases found : c.table? t.name with _ | own
    · have none : c.table? t.definition.name = none := found
      simp [clashes, Table.create, Sql.Command.create, none, repeated] at clash
    · obtain ⟨kept, known, apart⟩ := free own found
      exact .table listed kept known apart (Content.table?_mem found).2
  · obtain ⟨column, other, twins⟩ := twins_of_repeated repeated
    exact .columns listed twins

theorem table?_dropTable_self (c : Content) (name : String) : (dropTable c name).table? name = none := by
  rw [Content.table?, List.find?_eq_none]
  intro own member
  have kept := (List.mem_filter.1 member).2
  simpa using kept

theorem ensures_dropped (name : String) :
    Ensures enforces (Database.define (.dropTable name)) fun _ _ c' => c'.table? name = none := by
  refine (ensures_define rfl).mono fun c _ c' post => ?_
  rcases post with ⟨none, rfl⟩ | ⟨-, effect, done, rfl⟩
  · simpa [writes] using none
  · simp only [effectOf, dropEffect] at done
    split at done
    · rename_i absent
      cases done
      exact absent
    · split at done
      · split at done
        · cases done
        · cases done
          exact table?_dropTable_self _ _
      · cases done
        exact table?_dropTable_self _ _

theorem meets_recreate (listed : .ok t ∈ tables) (sound : Sound enforces db) :
    (Course.recreate t).Meets (Excused policy tables before) db := by
  have dropped : (Course.define (.dropTable t.name)).Meets (Excused policy tables before) db :=
    Course.meets_define fun none => (nomatch none)
  refine dropped.bind (Course.runs_define _) (ensures_dropped t.name) sound ?_
  intro _ after kept absent
  have created : (Course.define t.create).Meets (Excused policy tables before) after := by
    apply Course.meets_define
    apply excused_create listed
    intro own found
    rw [absent] at found
    cases found
  exact created.bind (Course.runs_define _) (ensures_define rfl) kept fun _ _ _ _ => Course.meets_note

theorem meets_createAbsent (listed : .ok t ∈ tables) (kept : policy.contains .drop = false) (sound : Sound enforces db)
    (known : db.engine.store.content.Names (Known tables before))
    (absent : Store.tableExists db.engine.store.content t.name = false) :
    (Course.createAbsent t).Meets (Excused policy tables before) db := by
  have created : (Course.define t.create).Meets (Excused policy tables before) db := by
    apply Course.meets_define
    apply excused_create listed
    intro own found
    refine ⟨kept, known own (Content.table?_mem found).1, ?_⟩
    intro same
    exact absurd ((exists_of_table? found same).symm.trans absent) (by decide)
  exact created.bind (Course.runs_define _) (ensures_define rfl) sound fun _ _ _ _ => Course.meets_note

/-- Where a table has a column of a name that is to be added, the descriptor has one like it. -/
def Paired (t : Table) (c : Content) (column : Column) : Prop :=
  ∀ own, c.table? t.name = some own → ∀ stored ∈ own.columns, sameIgnoringCase stored.name column.name = true →
    ∃ other, t.Twins column other ∧ other.nullable = true

theorem excused_addColumn {c : Content} {column : Column} (listed : .ok t ∈ tables) (optional : column.nullable = true)
    (paired : Paired t c column) : Excused policy tables before c (t.addColumn column) := by
  intro clash
  obtain ⟨stored, here⟩ := Option.isSome_iff_exists.1 clash
  obtain ⟨own, found, named⟩ := Option.bind_eq_some_iff.1 here
  have same : sameIgnoringCase stored.name column.name = true := by
    simpa [Column.definition] using List.find?_some named
  obtain ⟨other, twins, also⟩ := paired own found stored (List.mem_of_find?_eq_some named) same
  exact .column listed twins ⟨optional, also⟩

theorem Paired.widened {c c' : Content} {stored : StoredTable} {column later : Column} (paired : Paired t c later)
    (found : c.table? t.name = some stored) (content : c' = c.replace (stored.widened (added column)))
    (listed : column ∈ t.columns) (also : later ∈ t.columns) (apart : later.name ≠ column.name)
    (optional : column.nullable = true) : Paired t c' later := by
  intro wide here other stands same
  have widened : c'.table? t.name = some (stored.widened (added column)) := by
    rw [content, Content.table?_replace, found, Option.map_some, if_pos]
    exact sameIgnoringCase_refl stored.name
  obtain rfl := Option.some.inj (widened.symm.trans here)
  rcases List.mem_append.1 stands with old | new
  · exact paired stored found other old same
  · rw [List.mem_singleton.1 new, sameIgnoringCase_iff] at same
    exact ⟨column, ⟨also, listed, apart, (sameIgnoringCase_iff _ _).2 same.symm⟩, optional⟩

/-- Columns that are added one after the other clash with none but those added before. -/
theorem meets_addAll (listed : .ok t ∈ tables) (missing : List Column) (sub : missing.Sublist t.columns)
    (optional : ∀ column ∈ missing, column.nullable = true) (sound : Sound enforces db)
    (paired : ∀ column ∈ missing, Paired t db.engine.store.content column) :
    (Course.addAll t missing).Meets (Excused policy tables before) db := by
  induction missing generalizing db with
  | nil => exact Course.meets_done _
  | cons column missing ih =>
    have own := optional column List.mem_cons_self
    have first : (Course.define (t.addColumn column)).Meets (Excused policy tables before) db :=
      Course.meets_define (excused_addColumn listed own (paired column List.mem_cons_self))
    refine first.bind (Course.runs_define _) (ensures_addColumn column) sound ?_
    intro _ after kept post
    apply ih (List.sublist_of_cons_sublist sub) (fun later member => optional later (List.mem_cons_of_mem _ member)) kept
    intro later member
    obtain ⟨stored, found, -, content⟩ := post
    have distinct : ((column :: missing).map Column.name).Nodup := List.Nodup.sublist (sub.map _) t.distinct
    have apart : later.name ≠ column.name := by
      intro same
      exact (List.nodup_cons.1 distinct).1 (List.mem_map.2 ⟨later, member, same⟩)
    have behind := List.mem_cons_of_mem column member
    exact (paired later behind).widened found content (sub.subset List.mem_cons_self) (sub.subset behind) apart own

theorem meets_addMissing (listed : .ok t ∈ tables) (sound : Sound enforces db) :
    (Course.addMissing t).Meets (Excused policy tables before) db := by
  refine Course.Meets.bind Course.meets_read (Course.runs_liveColumns t.name) (ensures_liveColumns t.name) sound ?_
  intro live seen kept post
  refine (Course.meets_done _).bind (Course.runs_known _) (ensures_known _) kept ?_
  intro missing known kept later
  obtain ⟨rfl, unchanged⟩ := post
  obtain ⟨sought, same⟩ := later
  rw [mapError_eq_ok] at sought
  have lacking := Table.lacking_of_missingFrom sought
  have all : (Course.addAll t missing).Meets (Excused policy tables before) known := by
    apply meets_addAll listed missing (Table.missingFrom_eq_ok sought).2.1 (fun column member => (lacking column member).2)
      kept
    intro column member own found stored stands named
    rw [same, unchanged] at found
    have tells : stored.told ∈ told db.engine.store.content t.name := by
      rw [told, found]
      exact List.mem_map_of_mem stands
    have absent := (lacking column member).1
    rw [LiveColumn.find?, List.find?_eq_none] at absent
    exact (absent _ tells named).elim
  refine all.bind (Course.runs_addAll t missing) (ensures_addColumns missing) kept ?_
  intro _ _ _ _
  unfold Course.noteAdded
  split
  · exact Course.meets_note
  · exact Course.meets_done _

theorem meets_align (listed : .ok t ∈ tables) (sound : Sound enforces db)
    (known : db.engine.store.content.Names (Known tables before)) :
    (Course.align policy t).Meets (Excused policy tables before) db := by
  unfold Course.align
  split
  · exact meets_recreate listed sound
  · rename_i kept
    rw [Bool.not_eq_true] at kept
    refine Course.Meets.bind Course.meets_read (Course.runs_tableExists t.name) (ensures_tableExists t.name) sound ?_
    intro present after ready post
    obtain ⟨rfl, same⟩ := post
    split
    · rename_i absent
      rw [Bool.not_eq_true'] at absent
      exact meets_createAbsent listed kept ready (same ▸ known) (same ▸ absent)
    · split
      · exact meets_addMissing listed ready
      · exact Course.meets_done _

theorem ensures_names (before : Content) (listed : .ok t ∈ tables) :
    Ensures enforces (Database.align policy t) fun c _ c' => c.Names (Known tables before) → c'.Names (Known tables before) := by
  have asking : Asking (Sql.Command.Makes (Known tables before)) policy t := by
    refine ⟨?_, ?_, ?_, ?_, ?_⟩
    · intro table mark none
      cases none
    · intro table mark none
      cases none
    · intro table mark same
      cases same
      exact .inr ⟨t, listed, rfl⟩
    · intro _ table mark none
      cases none
    · intro _ _ table mark none
      cases none
  exact asking.does.ensures (kept_names _)

theorem meets_alignAll (rest : List (Except Failure Table)) (all : ∀ entry ∈ rest, entry ∈ tables)
    (sound : Sound enforces db) (known : db.engine.store.content.Names (Known tables before)) :
    (Course.alignAll policy rest).Meets (Excused policy tables before) db := by
  induction rest generalizing db with
  | nil => exact Course.meets_done _
  | cons entry rest ih =>
    cases entry with
    | error failure =>
      intro command w member
      cases member
    | ok t =>
      have listed := all _ List.mem_cons_self
      have first : (Course.align policy t).Meets (Excused policy tables before) db := meets_align listed sound known
      refine first.bind (Course.runs_align t policy) (ensures_names before listed) sound ?_
      intro _ after kept later
      exact ih (fun entry member => all entry (List.mem_cons_of_mem _ member)) kept (later known)

theorem entry?_begins {start : Database} (sound : Sound enforces db) (entered : Database.host.entry? db = some start) :
    Sound enforces start ∧ start.engine.store.content = db.engine.store.content := by
  unfold UnitHost.entry? at entered
  split at entered
  · obtain rfl := Option.some.inj entered
    exact ⟨sound, rfl⟩
  · split at entered
    · rename_i begun began
      obtain rfl := Option.some.inj entered
      have numbered : Sound enforces (host.mapNest .numbered db) := sound
      have kept := sound_control .begin numbered
      rw [began] at kept
      refine ⟨kept, ?_⟩
      show begun.engine.store.content = db.engine.store.content
      rw [State.content_eq, State.content_eq]
      have outline := congrArg Outline.content (begin_run began)
      exact outline
    · cases entered

theorem meets_reconcile (g : ShapeGraph) (policy : Policy) (d : Descriptor g.size) (sound : Sound enforces db) :
    (Course.reconcile g policy d).Meets (Excused policy (reached g policy d) db.engine.store.content) db := by
  intro command w member
  unfold Course.reconcile at member
  rcases List.mem_append.1 member with within | after
  · rcases entered : host.entry? db with _ | start
    · rw [entered] at within
      cases within
    · rw [entered] at within
      obtain ⟨ready, same⟩ := entry?_begins sound entered
      have known : start.engine.store.content.Names (Known (reached g policy d) db.engine.store.content) := by
        rw [same]
        exact fun own listed => .inl ⟨own, listed, rfl⟩
      exact meets_alignAll _ (fun _ listed => listed) ready known command w within
  · cases after

theorem Overlooked.absurd {command : Sql.Command} (overlooked : Overlooked policy tables before command)
    (columns : ∀ t : Table, .ok t ∈ tables → (t.columns.map fun column => foldCase column.name).Nodup)
    (spelled : policy.contains .drop = true ∨ ∀ (t : Table) name, .ok t ∈ tables → Known tables before name →
      sameIgnoringCase name t.name = true → name = t.name) : False := by
  have alike {t : Table} {column other : Column} (listed : .ok t ∈ tables) (twins : t.Twins column other) : False := by
    have same := (sameIgnoringCase_iff _ _).1 twins.same
    have one : column = other := List.inj_on_of_nodup_map (columns t listed) twins.listed twins.also same
    exact twins.apart (congrArg Column.name one)
  cases overlooked with
  | table listed kept known apart same =>
    rcases spelled with drops | spelled
    · rw [drops] at kept
      cases kept
    · exact apart (spelled _ _ listed known same)
  | columns listed twins => exact alike listed twins
  | column listed twins => exact alike listed twins

/-- A schema operation executes a definition that clashes with a name there is only where names differ in letter case
    alone: a table's from that of another, or a column's from that of another column of its descriptor. Where no such
    names meet, it executes none. -/
theorem Database.reconcile_overlooks (g : ShapeGraph) (policy : Policy) (d : Descriptor g.size) (db : Database)
    (sound : Sound enforces db) :
    (Course.reconcile g policy d).perform host Deed.perform db = (reconcile g policy d).run db ∧
    (∀ command w, (Deed.define command, w) ∈ (Course.reconcile g policy d).asked host Deed.perform db →
      clashes w.engine.store.content command = true →
        Overlooked policy (reached g policy d) db.engine.store.content command) ∧
    ((∀ t : Table, .ok t ∈ reached g policy d → (t.columns.map fun column => foldCase column.name).Nodup) →
      (policy.contains .drop = true ∨ ∀ (t : Table) name, .ok t ∈ reached g policy d →
        Known (reached g policy d) db.engine.store.content name → sameIgnoringCase name t.name = true → name = t.name) →
      ∀ command w, (Deed.define command, w) ∈ (Course.reconcile g policy d).asked host Deed.perform db →
        clashes w.engine.store.content command = false) := by
  have excused := meets_reconcile g policy d sound
  refine ⟨Course.runs_reconcile policy g d db, excused, ?_⟩
  intro columns spelled command w member
  rw [Bool.eq_false_iff]
  intro clash
  exact (excused command w member clash).absurd columns spelled

end Overlooking

section Shelf

open Database

def createLone (t : Table) : Database.Action Unit :=
  reconcile shelf .shallowOnly ⟨t, []⟩

theorem reconcile_overlooks_artists :
    let course := Course.reconcile shelf .shallowOnly ⟨artistTable, []⟩
    Sound true shelfDatabase ∧
    course.perform host Deed.perform shelfDatabase = (createLone artistTable).run shelfDatabase ∧
    ∀ command w, (Deed.define command, w) ∈ course.asked host Deed.perform shelfDatabase →
      clashes w.engine.store.content command = false := by
  obtain ⟨same, -, none⟩ := reconcile_overlooks shelf .shallowOnly ⟨artistTable, []⟩ shelfDatabase shelf_sound
  have lone {t : Table} (listed : .ok t ∈ reached shelf .shallowOnly ⟨artistTable, []⟩) : t = artistTable :=
    Except.ok.inj (List.mem_singleton.1 listed)
  refine ⟨shelf_sound, same, none ?_ (.inr ?_)⟩
  · intro t listed
    rw [lone listed]
    decide
  · intro t name listed known alike
    rw [lone listed] at alike ⊢
    rcases known with ⟨own, stored, rfl⟩ | ⟨other, listed, rfl⟩
    · have artistOrAlbum : own.name = "artist" ∨ own.name = "album" := by
        rcases List.mem_pair.1 stored with rfl | rfl
        · exact .inl rfl
        · exact .inr rfl
      rcases artistOrAlbum with named | named <;> rw [named] at alike ⊢
      · rfl
      · exact absurd alike (by decide)
    · rw [lone listed]

def capitalTable : Table := { artistTable with name := "Artist" }

def twinTable : Table := ⟨"twin", [⟨"a", .integer, true, false⟩, ⟨"A", .integer, true, false⟩], by decide⟩

def widerTable : Table :=
  ⟨"artist", [⟨"id", .integer, false, true⟩, ⟨"a", .integer, true, false⟩, ⟨"A", .integer, true, false⟩], by decide⟩

def executesClash (policy : Policy) (t : Table) : Bool :=
  ((Course.reconcile shelf policy ⟨t, []⟩).asked host Deed.perform shelfDatabase).any fun m =>
    match m.1 with
    | .define command => clashes m.2.engine.store.content command
    | _ => false

/-- A table of a name that is taken but for letter case is created, one with two such columns is created, and the second
    of them is added. -/
theorem clashes_executed : executesClash .shallowOnly capitalTable = true ∧ executesClash .shallowOnly twinTable = true ∧
    executesClash (Policy.reconcile.union .shallowOnly) widerTable = true ∧
    ((createLone capitalTable).run shelfDatabase).1.isOk = false := by
  decide +kernel

end Shelf

end RecordMapper
