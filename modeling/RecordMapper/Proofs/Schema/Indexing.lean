import RecordMapper.Proofs.Schema.Idempotence

namespace RecordMapper

open RecordMapper.Store RecordMapper.Text

def Index.stored (i : Index) (t : StoredTable) : StoredIndex :=
  ⟨i.name, t.name, i.columns.map (indexTerm t), i.unique⟩

structure IndexCall where
  graph : ShapeGraph
  shape : Fin graph.size
  query : Query graph shape
  columns : List String
  unique : Bool

namespace IndexCall

def asked (call : IndexCall) : Index :=
  ⟨call.query.plan.root.name, call.columns, call.unique⟩

def perform (call : IndexCall) (db : Database) : Except Failure Index × Database :=
  (Database.index call.query call.columns call.unique).run db

def performAll : List IndexCall → Database → List IndexCall × Database
  | [], db => ([], db)
  | call :: calls, db =>
    let (outcome, after) := call.perform db
    let (done, last) := performAll calls after
    (if outcome.isOk then call :: done else done, last)

def firstOf (calls : List IndexCall) (name : String) : Option IndexCall :=
  calls.find? fun call => sameIgnoringCase call.asked.name name

end IndexCall

theorem Index.make_eq_ok {t : Table} {columns : List String} {unique : Bool} {i : Index}
    (made : Index.make t columns unique = .ok i) : i = ⟨t.name, columns, unique⟩ := by
  unfold make at made
  split at made
  · cases made
  · split at made
    · cases made
    · exact (Except.ok.inj made).symm

section Contents

variable {c c' : Content} {i : Index}

theorem index?_congr (c : Content) {name other : String} (same : sameIgnoringCase name other = true) :
    c.index? name = c.index? other := by
  rw [sameIgnoringCase_iff] at same
  simp only [Content.index?, sameIgnoringCase, same]

theorem table?_of_tables (same : c'.tables = c.tables) (name : String) : c'.table? name = c.table? name := by
  rw [Content.table?, Content.table?, same]

theorem index?_createIndex (done : createIndex c i.definition = .ok c') :
    ∃ t, c.table? i.table = some t ∧ c'.tables = c.tables ∧
      ∀ name, c'.index? name = if sameIgnoringCase i.name name then some (i.stored t) else c.index? name := by
  obtain ⟨t, found, rfl⟩ := createIndex_eq_ok done
  refine ⟨t, found, rfl, ?_⟩
  intro name
  by_cases same : sameIgnoringCase i.name name = true
  · rw [if_pos same]
    exact List.find?_cons_of_pos same
  · rw [if_neg same]
    exact List.find?_cons_of_neg same

end Contents

section Calls

variable {enforces : Bool} {db : Database} {call : IndexCall}

theorem Database.execute_content {command : Sql.Command} (plain : isControl command = false) (sound : Sound enforces db) :
    Sound enforces ((execute command.statement).run db).2 ∧
      (((execute command.statement).run db).2.engine.store.content = db.engine.store.content ∧
          (((execute command.statement).run db).1.isOk = true → writes db.engine.store.content command = false) ∨
        ((execute command.statement).run db).1.isOk = true ∧ writes db.engine.store.content command = true ∧
          ∃ effect, effectOf db.engine.store.content enforces command = .ok effect ∧
            ((execute command.statement).run db).2.engine.store.content = effect.content) := by
  have concluded := Engine.execute_concluded (Engine.isPlain_statement plain) db.engine
  simp only [execute, run_onEngine, State.content_eq]
  rcases outcome : ((Engine.execute command.statement).run db.engine).1 with failure | n
  · rw [outcome] at concluded
    have touched : db.engine.outline.Untouched _ := concluded
    exact ⟨touched.sound sound, .inl ⟨touched.content, fun none => absurd none Bool.false_ne_true⟩⟩
  · rw [outcome] at concluded
    obtain ⟨asked, rows, asks, ended⟩ := concluded
    obtain rfl := Engine.eq_of_asked asks
    refine ⟨ended.sound sound, ?_⟩
    rw [← sound.enforces]
    rcases ended.content_cases with ⟨reading, same⟩ | ⟨writing, -, -, effect, done, same⟩
    · exact .inl ⟨same, fun _ => reading⟩
    · exact .inr ⟨rfl, writing, effect, done, same⟩

namespace IndexCall

theorem perform_run (call : IndexCall) (db : Database) :
    let ran := (Database.execute (Sql.Command.createIndex call.asked.definition).statement).run db
    ((call.perform db).1.isOk = false ∧ (call.perform db).2 = db) ∨
      ((call.perform db).1.isOk = ran.1.isOk ∧ (call.perform db).2.engine.store = ran.2.engine.store) := by
  intro ran
  unfold perform Database.index
  rw [run_bind, Database.run_known]
  rcases made : Index.make call.query.plan.root call.columns call.unique with wrong | i
  · exact .inl ⟨rfl, rfl⟩
  · right
    have asked : i = call.asked := Index.make_eq_ok made
    simp only [Except.mapError, run_bind, asked]
    rcases same : ran with ⟨failure | n, after⟩ <;> rw [show (Database.execute _).run db = _ from same] <;>
      exact ⟨rfl, rfl⟩

/-- A call that succeeds has found an index of its name, or has made its own. One that fails changes nothing. -/
theorem perform_cases (call : IndexCall) (sound : Database.Sound enforces db) :
    Database.Sound enforces (call.perform db).2 ∧
      ((call.perform db).2.engine.store.content = db.engine.store.content ∧
          ((call.perform db).1.isOk = true → (db.engine.store.content.index? call.asked.name).isSome = true) ∨
        (call.perform db).1.isOk = true ∧ db.engine.store.content.index? call.asked.name = none ∧
          createIndex db.engine.store.content call.asked.definition = .ok (call.perform db).2.engine.store.content) := by
  have plain : isControl (.createIndex call.asked.definition) = false := rfl
  obtain ⟨kept, content⟩ := Database.execute_content plain sound
  rcases call.perform_run db with ⟨refused, same⟩ | ⟨isOk, store⟩
  · rw [same]
    refine ⟨sound, .inl ⟨rfl, ?_⟩⟩
    intro succeeded
    exact absurd (refused.symm.trans succeeded) (by decide)
  · have outline : (call.perform db).2.engine.outline = _ := congrArg State.outline store
    rw [Database.Sound, outline, isOk, store]
    refine ⟨kept, ?_⟩
    have name : call.asked.definition.name = call.asked.name := rfl
    rcases content with ⟨same, reads⟩ | ⟨succeeded, writing, effect, done, same⟩
    · refine .inl ⟨same, ?_⟩
      intro succeeded
      have reading := reads succeeded
      simpa [writes, name] using reading
    · right
      obtain ⟨made, created, rfl⟩ := map_eq_ok.1 done
      have free : db.engine.store.content.index? call.asked.name = none := by
        simpa [writes, name] using writing
      rw [same]
      exact ⟨succeeded, free, created⟩

theorem firstOf_cons (call : IndexCall) (calls : List IndexCall) (name : String) :
    firstOf (call :: calls) name =
      if sameIgnoringCase call.asked.name name then some call else firstOf calls name := by
  by_cases same : sameIgnoringCase call.asked.name name = true
  · rw [if_pos same]
    exact List.find?_cons_of_pos same
  · rw [if_neg same]
    exact List.find?_cons_of_neg same

theorem mem_of_firstOf {calls : List IndexCall} {name : String} {first : IndexCall}
    (found : firstOf calls name = some first) :
    first ∈ calls ∧ sameIgnoringCase first.asked.name name = true := by
  unfold firstOf at found
  exact ⟨List.mem_of_find?_eq_some found, by simpa using List.find?_some found⟩

end IndexCall

/-- Under each name there is what was there before the calls, or what the first of them under the name has asked for. -/
structure Store.Content.Indexed (c : Content) (done : List IndexCall) (after : Content) : Prop where
  tables : after.tables = c.tables
  present : ∀ call ∈ done, (after.index? call.asked.name).isSome = true
  found : ∀ name, after.index? name = (c.index? name).or
    ((IndexCall.firstOf done name).bind fun call => (c.table? call.asked.table).map call.asked.stored)

namespace Store.Content

variable {c c' after : Content} {done : List IndexCall}

theorem Indexed.refl (c : Content) : c.Indexed [] c where
  tables := rfl
  present _ none := absurd none List.not_mem_nil
  found _ := Option.or_none.symm

theorem Indexed.taken (indexed : c.Indexed done after) (taken : (c.index? call.asked.name).isSome = true) :
    c.Indexed (call :: done) after := by
  refine ⟨indexed.tables, ?_, ?_⟩
  · intro other member
    rcases List.mem_cons.1 member with rfl | later
    · rw [indexed.found, Option.or_of_isSome taken]
      exact taken
    · exact indexed.present other later
  · intro name
    rw [indexed.found, IndexCall.firstOf_cons]
    by_cases named : sameIgnoringCase call.asked.name name = true
    · rw [index?_congr _ named] at taken
      rw [Option.or_of_isSome taken, Option.or_of_isSome taken]
    · rw [if_neg named]

theorem Indexed.made (indexed : c'.Indexed done after) (free : c.index? call.asked.name = none)
    (created : createIndex c call.asked.definition = .ok c') : c.Indexed (call :: done) after := by
  obtain ⟨t, present, kept, under⟩ := index?_createIndex created
  refine ⟨indexed.tables.trans kept, ?_, ?_⟩
  · intro other member
    rcases List.mem_cons.1 member with rfl | later
    · rw [indexed.found, under, if_pos (sameIgnoringCase_refl _)]
      rfl
    · exact indexed.present other later
  · intro name
    rw [indexed.found, under, IndexCall.firstOf_cons]
    by_cases named : sameIgnoringCase call.asked.name name = true
    · rw [index?_congr _ named] at free
      rw [if_pos named, if_pos named, free, Option.bind_some, present]
      rfl
    · rw [if_neg named, if_neg named]
      simp only [table?_of_tables kept]

end Store.Content

namespace IndexCall

theorem performAll_indexed (calls : List IndexCall) (db : Database) (sound : Database.Sound enforces db) :
    db.engine.store.content.Indexed (performAll calls db).1 (performAll calls db).2.engine.store.content := by
  induction calls generalizing db with
  | nil => exact .refl _
  | cons call calls ih =>
    obtain ⟨kept, step⟩ := call.perform_cases sound
    have rest := ih (call.perform db).2 kept
    simp only [performAll]
    rcases step with ⟨same, taken⟩ | ⟨succeeded, free, created⟩
    · rw [same] at rest
      by_cases succeeded : (call.perform db).1.isOk = true
      · rw [if_pos succeeded]
        exact rest.taken (taken succeeded)
      · rw [if_neg succeeded]
        exact rest
    · rw [if_pos succeeded]
      exact rest.made free created

/-- On a database without indexes, what is found under the name of a call that has succeeded is the index that the first
    of these calls with that name, letter case aside, has asked for: on its table, over its columns in their order, and
    unique if it asked for that. So each has its own index if no two of one name ask for different ones. -/
theorem performAll_first (calls : List IndexCall) (db : Database) (sound : Database.Sound enforces db)
    (bare : db.engine.store.content.indexes = []) :
    let done := (performAll calls db).1
    let after := (performAll calls db).2.engine.store.content
    after.tables = db.engine.store.content.tables ∧
      ∀ call ∈ done, ∃ first ∈ done, ∃ t, firstOf done call.asked.name = some first ∧
        after.table? first.asked.table = some t ∧ after.index? call.asked.name = some (first.asked.stored t) ∧
        ((∀ other ∈ done, sameIgnoringCase other.asked.name call.asked.name = true → other.asked = call.asked) →
          first.asked = call.asked) := by
  obtain ⟨tables, made, found⟩ := performAll_indexed calls db sound
  refine ⟨tables, ?_⟩
  intro call member
  have none : db.engine.store.content.index? call.asked.name = none := by
    rw [Content.index?, bare, List.find?_nil]
  have own := made call member
  rw [found, none, Option.none_or] at own
  obtain ⟨stored, here⟩ := Option.isSome_iff_exists.1 own
  obtain ⟨first, named, placed⟩ := Option.bind_eq_some_iff.1 here
  obtain ⟨t, present, rfl⟩ := Option.map_eq_some_iff.1 placed
  obtain ⟨known, same⟩ := mem_of_firstOf named
  refine ⟨first, known, t, named, (table?_of_tables tables _).trans present, ?_, ?_⟩
  · rw [found, none, Option.none_or, here]
  · intro sole
    exact sole first known same

end IndexCall

end Calls

section Shelf

def albumsByArtist (unique : Bool) : IndexCall :=
  ⟨shelf, albums.child, .ofTable albumTable, ["artist"], unique⟩

def albumIndexes : List IndexCall :=
  [albumsByArtist false, albumsByArtist true]

theorem performAll_first_albums :
    let done := (IndexCall.performAll albumIndexes shelfDatabase).1
    let after := (IndexCall.performAll albumIndexes shelfDatabase).2.engine.store.content
    Database.Sound true shelfDatabase ∧ shelfDatabase.engine.store.content.indexes = [] ∧
    after.tables = shelfDatabase.engine.store.content.tables ∧
      ∀ call ∈ done, ∃ first ∈ done, ∃ t, IndexCall.firstOf done call.asked.name = some first ∧
        after.table? first.asked.table = some t ∧ after.index? call.asked.name = some (first.asked.stored t) ∧
        ((∀ other ∈ done, sameIgnoringCase other.asked.name call.asked.name = true → other.asked = call.asked) →
          first.asked = call.asked) :=
  ⟨shelf_sound, rfl, IndexCall.performAll_first albumIndexes shelfDatabase shelf_sound rfl⟩

/-- Two albums of one artist are no obstacle to a unique index whose name is taken. Names may also be the same where the
    tables are not. -/
theorem unique_index_not_made :
    (IndexCall.performAll albumIndexes shelfDatabase).1.map (fun call => call.asked.unique) = [false, true] ∧
    (IndexCall.performAll albumIndexes shelfDatabase).2.engine.store.content.indexes =
      [⟨"index_album_artist", "album", [.column 1], false⟩] ∧
    Index.name ⟨"a", ["b", "c"], true⟩ = Index.name ⟨"a_b", ["c"], true⟩ := by
  refine ⟨?_, ?_, ?_⟩
  · decide +kernel
  · decide +kernel
  · decide

end Shelf

end RecordMapper
