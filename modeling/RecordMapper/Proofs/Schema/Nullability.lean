import RecordMapper.Proofs.Query.Misfits
import RecordMapper.Proofs.Session.Histories

namespace RecordMapper

open RecordMapper.Store RecordMapper.Text

section Contents

variable {c : Content} {t : Table} {column : Column}

/-- A table that is held is kept from being null in all columns that are not optional. -/
theorem Store.Content.Holds.secures (holds : c.Holds t) (listed : column ∈ t.columns)
    (strict : column.nullable = false) : c.Secures t.name column.name := by
  obtain ⟨i, here⟩ := List.mem_iff_getElem?.1 listed
  refine ⟨_, i, holds.table?, holds.columnIndex? here rfl, .inl ⟨_, holds.column here, ?_⟩⟩
  show (!column.nullable) = true
  rw [strict]
  rfl

theorem Table.InLine.secures (inLine : t.InLine c) (listed : column ∈ t.columns) (strict : column.nullable = false)
    (apart : column.key = false) : c.Secures t.name column.name := by
  obtain ⟨own, found, -, meets⟩ := inLine
  obtain ⟨-, -, all⟩ := missingFrom_eq_ok meets
  obtain ⟨l, here, goes⟩ := (all column listed).resolve_right fun lacking => absurd lacking.2.2 List.not_mem_nil
  rw [LiveColumn.find?, List.find?_map, Option.map_eq_some_iff] at here
  obtain ⟨kept, known, rfl⟩ := here
  rw [List.find?_eq_bind_findIdx?_getElem?, Option.bind_eq_some_iff] at known
  obtain ⟨i, index, place⟩ := known
  refine ⟨own, i, found, index, .inl ⟨kept, place, ?_⟩⟩
  unfold conflictWith? at goes
  split at goes
  · cases goes
  · simpa [strict, apart, StoredColumn.told] using goes

/-- Columns of a table that are kept from being null, beside all that are in any table. -/
structure Store.Content.Secured (table : String) (names : String → Prop) (c : Content) : Prop where
  guarded : c.Guarded
  secures : ∀ name, names name → c.Secures table name

theorem keptBy_secured (table : String) (names : String → Prop) :
    Content.KeptBy (fun command => IsMapped command ∧ Content.Spares table command) (Content.Secured table names) := by
  rintro c enforces command effect secured ⟨mapped, spares⟩ - done
  exact ⟨secured.guarded.after mapped done, fun name asked => (secured.secures name asked).after secured.guarded spares done⟩

theorem keptBy_guarded : Content.KeptBy (Issued true) fun c => c.Distinct ∧ c.Guarded :=
  fun _ _ _ _ holds issued checked done => ⟨effectOf_distinct holds.1 checked done, holds.2.after issued.mapped done⟩

theorem Issued.spares {command : Sql.Command} (issued : Issued false command) (table : String) :
    Content.Spares table command := by
  rintro dropped rfl
  cases issued.shapes rfl

end Contents

/-- Columns that a call under a policy brings the engine to keep from being null: those that are not optional, unless
    they are in the key of a table that stays and where nothing has kept them so. -/
structure Policy.Demands (policy : Policy) (c : Content) (t : Table) (column : Column) : Prop where
  listed : column ∈ t.columns
  strict : column.nullable = false
  exempt : column.key = true → policy.contains .drop = false → ∀ own, c.table? t.name = some own →
    c.Secures t.name column.name

namespace Database

open ShapeGraph

variable {t : Table} {policy : Policy} {enforces : Bool} {command : Sql.Command}

theorem ensures_create_holds : Ensures enforces (define t.create) fun _ _ c' => c'.Holds t := by
  refine ensures_created.mono fun c _ c' post => ?_
  obtain ⟨⟨_, checked⟩, rfl⟩ := post
  exact Content.holds_createTable checked

theorem ensures_createAbsent_holds : Ensures enforces (createAbsent t) fun _ _ c' => c'.Holds t := by
  refine Ensures.mono (ensures_create_holds.bind fun _ => ensures_note _) fun c _ c' post => ?_
  obtain ⟨_, _, holds, rfl⟩ := post
  exact holds

theorem ensures_recreate_holds : Ensures enforces (recreate t) fun _ _ c' => c'.Holds t := by
  refine Ensures.mono ((ensures_define rfl).bind fun _ => ensures_create_holds.bind fun _ => ensures_note _)
    fun c _ c' post => ?_
  obtain ⟨_, _, -, _, _, holds, rfl⟩ := post
  exact holds

theorem ensures_align_cases (brings : policy.contains .drop = true ∨ policy.contains .reconcile = true) :
    Ensures enforces (align policy t) fun c _ c' => c'.Holds t ∨
      policy.contains .drop = false ∧ (∃ own, c.table? t.name = some own) ∧ t.InLine c' := by
  unfold align
  split
  · exact ensures_recreate_holds.mono fun _ _ _ => .inl
  · rename_i kept
    rw [if_pos (brings.resolve_left kept)]
    have chosen : ∀ present : Bool, Ensures enforces
        (if (!present) = true then createAbsent t else addMissing t) fun c _ c' => c'.Holds t ∨
          present = true ∧ ∀ own, c.table? t.name = some own → own.name = t.name → t.InLine c' := by
      intro present
      cases present with
      | false => exact ensures_createAbsent_holds.mono fun _ _ _ => .inl
      | true =>
        exact ensures_addMissing.mono fun _ _ _ post => .inr ⟨rfl, fun own found named => (post own found named).1⟩
    refine ((ensures_tableExists t.name).distinct.bind chosen).mono fun c _ c' post => ?_
    obtain ⟨_, _, ⟨distinct, rfl, rfl⟩, holds | ⟨present, stays⟩⟩ := post
    · exact .inl holds
    · obtain ⟨own, found, named⟩ := table?_of_exists distinct present
      exact .inr ⟨Bool.not_eq_true _ ▸ kept, ⟨own, found⟩, stays own found named⟩

theorem spares_of_aligns {table : String}
    (asked : Aligns policy (fun name => policy.contains .drop = true → sameIgnoringCase table name = false) command) :
    IsMapped command ∧ Content.Spares table command := by
  refine ⟨(issued_of_aligns command asked).mapped, ?_⟩
  rintro dropped rfl
  exact asked.2 asked.1

theorem ensures_align_guarded : Ensures enforces (align policy t) fun c _ c' => c.Guarded → c'.Guarded := by
  have does : Does (Aligns policy fun _ => True) (align policy t) := does_align trivial
  exact does.ensures fun _ _ _ _ guarded asked _ done => guarded.after (issued_of_aligns _ asked).mapped done

theorem ensures_align_stays (names : String → Prop) : Ensures enforces (align policy t) fun c _ c' =>
    policy.contains .drop = false → c.Secured t.name names → c'.Secured t.name names := by
  cases drops : policy.contains .drop with
  | true => exact ensures_align_guarded.mono fun _ _ _ _ kept => absurd kept (Ne.symm Bool.false_ne_true)
  | false =>
    have among : policy.contains .drop = true → sameIgnoringCase t.name t.name = false :=
      fun some => absurd (drops.symm.trans some) Bool.false_ne_true
    have kept : Ensures enforces (align policy t) _ :=
      ((does_align among).mono fun _ => spares_of_aligns).ensures (keptBy_secured t.name names)
    exact kept.mono fun _ _ _ post _ => post

/-- Under a policy that drops or reconciles, bringing a table in line makes the engine keep a column from being null
    that the policy demands. -/
theorem ensures_align_demands (brings : policy.contains .drop = true ∨ policy.contains .reconcile = true)
    (column : Column) : Ensures enforces (align policy t) fun c _ c' => c.Guarded → policy.Demands c t column →
      c'.Secured t.name (· = column.name) := by
  refine ((ensures_align_cases brings).and (ensures_align_guarded.and (ensures_align_stays (· = column.name)))).mono
    fun c _ c' post before demands => ?_
  obtain ⟨holds | ⟨kept, ⟨own, found⟩, inLine⟩, guarded, stays⟩ := post
  · exact ⟨guarded before, fun name same => same ▸ holds.secures demands.listed demands.strict⟩
  · cases key : column.key with
    | false => exact ⟨guarded before, fun name same => same ▸ inLine.secures demands.listed demands.strict key⟩
    | true => exact stays kept ⟨before, fun name same => same ▸ demands.exempt key kept own found⟩

variable {g : ShapeGraph} {d : Descriptor g.size}

theorem reached_cons (g : ShapeGraph) (policy : Policy) (d : Descriptor g.size) :
    ∃ rest, reached g policy d = .ok d.table :: rest ∧ ∀ t : Table, .ok t ∈ rest → t.name ≠ d.table.name := by
  unfold reached
  split
  · exact ⟨[], rfl, fun t none => absurd none List.not_mem_nil⟩
  · refine ⟨_, rfl, fun t member same => ?_⟩
    have left := (g.reachFrom_apart (without d.table.name g.tableNames) (d.relations.map Relation.child)).1 t member
    simp [without, same] at left

/-- Among the tables that a call brings in line, none is of the name of the call's own but for letter case. -/
def Alone (g : ShapeGraph) (policy : Policy) (d : Descriptor g.size) : Prop :=
  ∀ t : Table, .ok t ∈ reached g policy d → foldCase t.name = foldCase d.table.name → t.name = d.table.name

theorem ensures_reached_demands (brings : policy.contains .drop = true ∨ policy.contains .reconcile = true)
    (alone : policy.contains .drop = true → Alone g policy d) (column : Column) :
    Ensures enforces (alignAll policy (reached g policy d)) fun c _ c' => c.Guarded →
      policy.Demands c d.table column → c'.Secured d.table.name (· = column.name) := by
  obtain ⟨rest, same, apart⟩ := reached_cons g policy d
  have spared : ∀ t : Table, .ok t ∈ rest → policy.contains .drop = true →
      sameIgnoringCase d.table.name t.name = false := by
    intro t member drops
    rw [Bool.eq_false_iff]
    intro equal
    refine apart t member (alone drops t (same ▸ List.mem_cons_of_mem _ member) ?_)
    exact ((sameIgnoringCase_iff _ _).1 equal).symm
  have later : Ensures enforces (alignAll policy rest) _ := ((does_alignAll spared).mono fun _ => spares_of_aligns).ensures
    (keptBy_secured d.table.name (· = column.name))
  have first : alignAll policy (.ok d.table :: rest) = align policy d.table >>= fun _ => alignAll policy rest := rfl
  rw [same, first]
  refine ((ensures_align_demands brings column).bind fun _ => later).mono fun c _ c' post before demands => ?_
  obtain ⟨_, middle, secured, kept⟩ := post
  exact kept (secured before demands)

end Database

namespace SchemaCall

variable {n : Nat} {s : Session n} {call : SchemaCall n}

def file (call : SchemaCall n) (s : Session n) : Fin n :=
  (s.handle call.handle).file

def Demands (call : SchemaCall n) (s : Session n) (name : String) : Prop :=
  ∃ column, call.policy.Demands (s.content (call.file s)) call.descriptor.table column ∧ column.name = name

/-- A call that succeeds while no transaction is open on its file leaves the columns that it demands kept from being
    null, in the file and in all that is seen of it. -/
theorem perform_secures (kept : s.Keeps (fun c => c.Distinct ∧ c.Guarded) (call.file s))
    (idle : ∀ j, (s.handle j).file = call.file s → Database.Idle (s.database j))
    (brings : call.policy.contains .drop = true ∨ call.policy.contains .reconcile = true)
    (alone : call.policy.contains .drop = true → Database.Alone call.graph call.policy call.descriptor)
    (succeeded : (call.perform s).1 = .ok ()) :
    (call.perform s).2.Keeps (Content.Secured call.descriptor.table.name (call.Demands s)) (call.file s) := by
  have own := kept call.handle rfl
  have apart := idle call.handle rfl
  have sound := own.sound apart.outside own.kept.1
  have body : Database.reconcile call.graph call.policy call.descriptor =
      Database.atomically (Database.alignAll call.policy (Database.reached call.graph call.policy call.descriptor)) := rfl
  have contained := Database.atomically_contained (Database.does_alignAny call.policy
    (Database.reached call.graph call.policy call.descriptor)) sound apart
  have held := (Database.confined_reconcile call.graph call.policy call.descriptor).keeps _ keptBy_guarded _ own
  rw [body] at held
  rcases ran : (Database.atomically (Database.alignAll call.policy
    (Database.reached call.graph call.policy call.descriptor))).run (s.database call.handle) with ⟨outcome, after⟩
  rw [ran] at contained held
  have performed : call.perform s = (outcome, s.replace call.handle after) := by
    rw [perform, Session.acting, body, ran]
  rw [performed] at succeeded ⊢
  obtain rfl : outcome = .ok () := succeeded
  obtain ⟨sound', idle', -⟩ := contained
  have settled : after.engine.store.content = after.engine.outline.kept := by
    rw [State.content_eq]
    exact sound'.content_outside idle'.outside
  have before : (s.database call.handle).engine.store.content = s.content (call.file s) := by
    rw [State.content_eq]
    exact sound.content_outside apart.outside
  have now : (s.replace call.handle after).content (call.file s) = after.engine.store.content := by
    rw [Session.content_replace, settled]
    exact if_pos rfl
  refine (kept.replace fun _ => held).of_outside (fun j within => ?_) ⟨?_, ?_⟩
  · rw [Session.file_replace] at within
    by_cases same : j = call.handle
    · rw [same, Session.outline_replace]
      exact idle'.outside
    · rw [Session.outline_database, Session.handle_replace_other same]
      exact (idle j within).outside
  · rw [now, settled]
    exact held.kept.2
  · rintro name ⟨column, demands, rfl⟩
    obtain ⟨-, post, -⟩ := Database.atomically_eq_ok (Database.ensures_reached_demands brings alone column) sound ran
    rw [before] at post
    rw [now]
    exact (post own.kept.2 demands).secures column.name rfl

/-- A field that is not optional never meets null. Once a call has succeeded under a policy that drops or reconciles,
    no row of its table has null in a column that it demands, whatever follows that shapes no table, and a query on the
    table fails for a null in a field of its own only if that is not optional and the call has not demanded its
    column. -/
theorem demands_filled (reached : s.Reached) (call : SchemaCall n)
    (brings : call.policy.contains .drop = true ∨ call.policy.contains .reconcile = true)
    (alone : call.policy.contains .drop = true → Database.Alone call.graph call.policy call.descriptor)
    (succeeded : (call.perform s).1 = .ok ()) {g : ShapeGraph} (later : List (Step g n))
    (writing : ∀ step ∈ later, step.Asks (Request.Typed false)) :
    ((call.perform s).2.run later).2.Keeps
        (fun c => ∀ name, call.Demands s name → c.Fills call.descriptor.table.name name) (call.file s) ∧
      ∀ (j : Fin n) (g' : ShapeGraph) (shape : Fin g'.size) (q : Query g' shape) (column? : Option String)
        (expected : DataType),
        (((call.perform s).2.run later).2.handle j).file = call.file s → q.Built → (∀ i, (g'.shape i).Derived) →
        q.plan.root.name = call.descriptor.table.name →
        (((call.perform s).2.run later).2.acting j (Database.select q)).1 =
          .error (.decoding (.field q.plan.root.name column? (.mismatch expected .null))) →
        ∃ column ∈ q.plan.root.columns, column.nullable = false ∧ column? = some column.name ∧
          ¬call.Demands s column.name := by
  have before : s.Keeps (fun c => c.Distinct ∧ c.Guarded) (call.file s) :=
    reached.keeps keptBy_guarded ⟨List.nodup_nil, Content.guarded_empty⟩
  have kept : Content.KeptBy (Issued false) (Content.Secured call.descriptor.table.name (call.Demands s)) :=
    (keptBy_secured _ _).mono fun _ issued => ⟨issued.mapped, issued.spares _⟩
  have secured := (call.perform s).2.run_keeps kept writing
    (perform_secures before (fun j _ => reached.idle j) brings alone succeeded)
  have filled := secured.mono fun c secured name demanded => secured.guarded.fills (secured.secures name demanded)
  refine ⟨filled, fun j g' shape q column? expected within built derived named failed => ?_⟩
  obtain ⟨column, listed, strict, label, unfilled⟩ := Database.select_lacks built derived failed
  refine ⟨column, listed, strict, label, fun demanded => unfilled ?_⟩
  rw [State.content_eq, named]
  exact (filled j within).content column.name demanded

end SchemaCall

section Diary

def diary : ShapeGraph where
  size := 5
  shape
    | 0 => .ofFields "Draft" "note" [] [⟨"id", .column ⟨.int64, false⟩⟩, ⟨"title", .column ⟨.string, true⟩⟩]
    | 1 => .ofFields "Note" "note" [] [⟨"id", .column ⟨.int64, false⟩⟩, ⟨"title", .column ⟨.string, false⟩⟩]
    | 2 => .ofFields "LongNote" "note" [] [⟨"id", .column ⟨.int64, false⟩⟩, ⟨"title", .column ⟨.string, false⟩⟩,
      ⟨"text", .column ⟨.string, true⟩⟩]
    | 3 => .ofFields "Cover" "note" [] [⟨"id", .column ⟨.int64, false⟩⟩, ⟨"title", .column ⟨.string, false⟩⟩,
      ⟨"namesakes", .toMany 4⟩]
    | 4 => .ofFields "Namesake" "Note" [] [⟨"id", .column ⟨.int64, false⟩⟩, ⟨"title", .column ⟨.string, true⟩⟩]

def drafts : Fin diary.size := ⟨0, by decide⟩

def notes : Fin diary.size := ⟨1, by decide⟩

def longNotes : Fin diary.size := ⟨2, by decide⟩

def namesakes : Relation diary.size := ⟨"namesakes", ⟨4, by decide⟩⟩

def titledTable : Table := ⟨"note", [⟨"id", .integer, false, false⟩, ⟨"title", .text, false, true⟩], by decide⟩

def longTable : Table :=
  ⟨"note", [⟨"id", .integer, false, true⟩, ⟨"title", .text, false, false⟩, ⟨"text", .text, true, false⟩], by decide⟩

def coverTable : Table := ⟨"note", [⟨"id", .integer, false, true⟩, ⟨"title", .text, false, false⟩], by decide⟩

def namesakeTable : Table := ⟨"Note", [⟨"id", .integer, false, true⟩, ⟨"title", .text, true, false⟩], by decide⟩

def blank : Session 1 :=
  ⟨Vector.replicate 1 .empty, Vector.replicate 1 ⟨.last 0, .make 0 true .empty, .initial,
    Log.collecting.record (.plain .info .transaction ("opened " ++ "in-memory database"))⟩, []⟩

theorem blank_started : Session.start .default [] 1 true = .ok blank := by
  have opened : Vector.ofFn (Session.openHandle .default .apart true) = Vector.replicate 1 (blank.handle 0) := by
    refine Vector.ext fun i within => ?_
    obtain rfl : i = 0 := Nat.lt_one_iff.1 within
    rw [Vector.getElem_ofFn, Vector.getElem_replicate]
    rfl
  have started : Session.start .default [] 1 true = .ok ⟨Vector.replicate 1 .empty,
      (Vector.ofFn (Session.openHandle .default .apart true)).map fun h => { h with log.forwarded := [] },
      (Vector.ofFn (Session.openHandle .default .apart true)).toList.flatMap (·.log.forwarded)⟩ := rfl
  rw [started, opened, Vector.map_replicate]
  rfl

def diaryAfter (steps : List (Step diary 1)) : Session 1 := (blank.run steps).2

theorem reached_diaryAfter {steps : List (Step diary 1)} (asks : ∀ step ∈ steps, step.Asks (Request.Typed true)) :
    (diaryAfter steps).Reached :=
  ⟨.default, [], true, blank, blank_started, diary, steps, asks, rfl⟩

def making (s : Fin diary.size) (key : List String) : Step diary 1 :=
  .request (.last 0) (.typed s ⟨some key, some .shallowOnly⟩ [] .create) false

def keeping (s : Fin diary.size) (record : (diary.shape s).Record) : Step diary 1 :=
  .request (.last 0) (.typed s ⟨none, none⟩ [] (.insert [record] .all)) true

theorem asks_making (s : Fin diary.size) (key : List String) : (making s key).Asks (Request.Typed true) :=
  .request ⟨rfl, fun _ => rfl⟩

theorem asks_keeping (shaping : Bool) (s : Fin diary.size) (record : (diary.shape s).Record) :
    (keeping s record).Asks (Request.Typed shaping) :=
  .request ⟨rfl, fun shapes => absurd shapes Bool.false_ne_true⟩

def untitled : Step diary 1 := keeping drafts ((1 : Int64), none, ())

def drafting : List (Step diary 1) := [making drafts ["title"], untitled]

def noting : List (Step diary 1) := [making notes [], keeping notes ((3 : Int64), "a", ())]

def titling : SchemaCall 1 := ⟨.last 0, diary, ⟨titledTable, []⟩, Policy.reconcile.union .shallowOnly⟩

def covering : SchemaCall 1 := ⟨.last 0, diary, ⟨coverTable, [namesakes]⟩, .drop⟩

def lengthening : SchemaCall 1 := ⟨.last 0, diary, ⟨longTable, []⟩, Policy.reconcile.union .shallowOnly⟩

def titledNotes : Query diary notes := .ofTable titledTable

def allLongNotes : Query diary longNotes := .ofTable longTable

theorem titling_outcome : (titling.perform (diaryAfter drafting)).1 = .ok () ∧
    (titling.perform (diaryAfter drafting)).2.content 0 =
      ⟨[⟨"note", [⟨"id", "INTEGER", true, 0, none⟩, ⟨"title", "TEXT", false, 1, none⟩], [⟨1, [.integer 1, .null]⟩]⟩], []⟩ ∧
    (((titling.perform (diaryAfter drafting)).2.acting 0 (Database.select titledNotes)).1.map fun _ => ()) =
      .error (.decoding (.field "note" (some "title") (.mismatch .text .null))) := by
  decide +kernel

theorem reach_cover : diary.reach ⟨coverTable, [namesakes]⟩ = [.ok coverTable, .ok namesakeTable] := by
  have described : (diary.shape namesakes.child).descriptor = .ok ⟨namesakeTable, []⟩ := rfl
  have name : (diary.shape namesakes.child).table = "Note" := rfl
  have unmet : "Note" ∈ ShapeGraph.without coverTable.name diary.tableNames := by decide
  simp [ShapeGraph.reach, ShapeGraph.reachFrom, described, name, unmet]

theorem covering_perform (s : Session 1) : covering.perform s =
    s.acting 0 (Database.atomically (Database.alignAll .drop [.ok coverTable, .ok namesakeTable])) := by
  rw [← reach_cover]
  rfl

theorem covering_outcome : (covering.perform (diaryAfter [])).1 = .ok () ∧
    ((covering.perform (diaryAfter [])).2.run [untitled]).2.content 0 =
      ⟨[⟨"Note", [⟨"id", "INTEGER", true, 1, none⟩, ⟨"title", "TEXT", false, 0, none⟩], [⟨1, [.integer 1, .null]⟩]⟩], []⟩ := by
  rw [covering_perform]
  decide +kernel

theorem lengthening_outcome : (lengthening.perform (diaryAfter noting)).1 = .ok () ∧ (diaryAfter noting).content 0 =
    ⟨[⟨"note", [⟨"id", "INTEGER", true, 1, none⟩, ⟨"title", "TEXT", true, 0, none⟩], [⟨3, [.integer 3, .text "a"]⟩]⟩], []⟩ := by
  decide +kernel

theorem not_fills_of_null {c : Content} {own : StoredTable} {row : StoredRow} {table name : String} {i : Nat}
    (found : c.table? table = some own) (stored : row ∈ own.rows) (index : own.columnIndex? name = some i)
    (null : row.valueAt i = .null) : ¬c.Fills table name := by
  rintro ⟨other, j, also, place, filled⟩
  obtain rfl := Option.some.inj (found.symm.trans also)
  obtain rfl := Option.some.inj (index.symm.trans place)
  exact filled row stored null

/-- A key column in which a draft has left a null is not looked at when its table is reconciled, and the query fails for
    the null. Where a related table has the name of a call's own but for letter case, it takes the place of that, and a
    draft puts a null where the own table would have none. -/
theorem strict_column_meets_null :
    ((diaryAfter drafting).Reached ∧ titling.policy.contains .reconcile = true ∧ (titling.perform (diaryAfter drafting)).1 = .ok () ∧
      (⟨"title", .text, false, true⟩ : Column) ∈ titling.descriptor.table.columns ∧
      ¬((titling.perform (diaryAfter drafting)).2.content 0).Fills titling.descriptor.table.name "title" ∧
      titledNotes.plan.root = titling.descriptor.table ∧
      ((titling.perform (diaryAfter drafting)).2.acting 0 (Database.select titledNotes)).1 =
        .error (.decoding (.field "note" (some "title") (.mismatch .text .null)))) ∧
    (diaryAfter []).Reached ∧ covering.policy.contains .drop = true ∧ (covering.perform (diaryAfter [])).1 = .ok () ∧
      (⟨"title", .text, false, false⟩ : Column) ∈ covering.descriptor.table.columns ∧
      untitled.Asks (Request.Typed false) ∧
      ¬(((covering.perform (diaryAfter [])).2.run [untitled]).2.content 0).Fills covering.descriptor.table.name "title" := by
  obtain ⟨titled, kept, failed⟩ := titling_outcome
  obtain ⟨covered, left⟩ := covering_outcome
  have drafted : ∀ step ∈ drafting, step.Asks (Request.Typed true) := by
    intro step listed
    rcases List.mem_pair.1 listed with rfl | rfl
    · exact asks_making _ _
    · exact asks_keeping true _ _
  have opened : (diaryAfter []).Reached := reached_diaryAfter fun _ none => absurd none List.not_mem_nil
  refine ⟨⟨reached_diaryAfter drafted, rfl, titled, by decide, ?_, rfl, map_eq_error.1 failed⟩, opened, rfl, covered,
    by decide, asks_keeping false _ _, ?_⟩
  · rw [kept]
    exact not_fills_of_null rfl (List.mem_singleton.2 rfl) rfl rfl
  · rw [left]
    exact not_fills_of_null rfl (List.mem_singleton.2 rfl) rfl rfl

theorem longTable_key {column : Column} (listed : column ∈ longTable.columns) (key : column.key = true) :
    column = ⟨"id", .integer, false, true⟩ := by
  simp only [longTable, List.mem_cons, List.not_mem_nil, or_false] at listed
  rcases listed with rfl | rfl | rfl
  · rfl
  · cases key
  · cases key

theorem diary_derived (s : Fin diary.size) : (diary.shape s).Derived := by
  obtain ⟨i, within⟩ := s
  match i, within with
  | 0, _ | 1, _ | 2, _ | 3, _ | 4, _ => exact ⟨_, _, _, _, rfl⟩

theorem demands_filled_diary :
    (diaryAfter noting).Reached ∧
      (lengthening.policy.contains .drop = true ∨ lengthening.policy.contains .reconcile = true) ∧
      (lengthening.policy.contains .drop = true →
        Database.Alone lengthening.graph lengthening.policy lengthening.descriptor) ∧
      (lengthening.perform (diaryAfter noting)).1 = .ok () ∧ (∀ step ∈ [untitled], step.Asks (Request.Typed false)) ∧
      ((lengthening.perform (diaryAfter noting)).2.run [untitled]).2.Keeps
        (fun c => ∀ column ∈ longTable.columns, column.nullable = false → c.Fills "note" column.name) 0 ∧
      allLongNotes.Built ∧ ∀ column? expected,
        (((lengthening.perform (diaryAfter noting)).2.run [untitled]).2.acting 0 (Database.select allLongNotes)).1 ≠
          .error (.decoding (.field "note" column? (.mismatch expected .null))) := by
  obtain ⟨succeeded, content⟩ := lengthening_outcome
  have noted : ∀ step ∈ noting, step.Asks (Request.Typed true) := by
    intro step listed
    rcases List.mem_pair.1 listed with rfl | rfl
    · exact asks_making _ _
    · exact asks_keeping true _ _
  have reached := reached_diaryAfter noted
  have writing : ∀ step ∈ [untitled], step.Asks (Request.Typed false) := by
    intro step listed
    obtain rfl := List.mem_singleton.1 listed
    exact asks_keeping false _ _
  have stays : lengthening.policy.contains .drop = true →
      Database.Alone lengthening.graph lengthening.policy lengthening.descriptor := fun none => absurd none (by decide)
  have own : lengthening.file (diaryAfter noting) = 0 := Subsingleton.elim _ _
  have demanded : ∀ column ∈ longTable.columns, column.nullable = false →
      lengthening.Demands (diaryAfter noting) column.name := by
    intro column listed strict
    refine ⟨column, ⟨listed, strict, fun key _ _ _ => ?_⟩, rfl⟩
    obtain rfl := longTable_key listed key
    rw [own, content]
    exact ⟨_, 0, rfl, rfl, .inl ⟨_, rfl, rfl⟩⟩
  have described : (diary.shape longNotes).descriptor = .ok ⟨longTable, []⟩ := rfl
  have built : allLongNotes.Built := .table described
  obtain ⟨filled, selects⟩ := SchemaCall.demands_filled reached lengthening (.inr rfl) stays succeeded [untitled] writing
  refine ⟨reached, .inr rfl, stays, succeeded, writing, ?_, built, fun column? expected failed => ?_⟩
  · exact (own ▸ filled).mono fun c fills column listed strict => fills _ (demanded column listed strict)
  · obtain ⟨column, listed, strict, -, free⟩ := selects 0 diary longNotes allLongNotes column? expected
      (Subsingleton.elim _ _) built diary_derived rfl failed
    exact free (demanded column listed strict)

end Diary

end RecordMapper
