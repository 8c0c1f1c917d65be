import RecordMapper.Proofs.Schema.Idempotence
import RecordMapper.Proofs.Unit.Containment
import RecordMapper.Proofs.Unit.Obedient

namespace RecordMapper

open RecordMapper.Store RecordMapper.Text

namespace Store

section Rows

variable {row : StoredRow} {m n : Nat}

def StoredRow.padded (row : StoredRow) (n : Nat) : StoredRow :=
  { row with values := row.values ++ List.replicate n .null }

theorem StoredRow.padded_zero : row.padded 0 = row := by
  rw [padded, List.replicate_zero, List.append_nil]

theorem StoredRow.padded_padded : (row.padded m).padded n = row.padded (m + n) := by
  simp only [padded, List.append_assoc, List.replicate_append_replicate]

end Rows

/-- What a table has become that only grew: there are more columns behind the others, none of which is required or part
    of the key, and its rows have nulls there. -/
structure StoredTable.Grown (t t' : StoredTable) : Prop where
  name : t'.name = t.name
  wider : ∃ more, t'.columns = t.columns ++ more ∧
    (∀ column ∈ more, column.required = false ∧ column.keyPosition = 0) ∧
    t'.rows = t.rows.map fun row => row.padded more.length

/-- What a content has become that only grew: the tables are still there, in their order, and those behind them have no
    rows. -/
structure Content.Grown (c c' : Content) : Prop where
  tables : ∃ old new, c'.tables = old ++ new ∧ List.Forall₂ StoredTable.Grown c.tables old ∧ ∀ t ∈ new, t.rows = []
  indexes : c'.indexes = c.indexes

def Content.Whole (c : Content) : Prop :=
  ∀ t ∈ c.tables, ∀ row ∈ t.rows, row.values.length = t.columns.length

section Growing

variable {t t' t'' : StoredTable} {c c' c'' : Content} {column : StoredColumn}

theorem forall₂_trans {α : Type} {R : α → α → Prop} (trans : ∀ a b c, R a b → R b c → R a c) {first second third : List α}
    (one : List.Forall₂ R first second) (two : List.Forall₂ R second third) : List.Forall₂ R first third := by
  induction one generalizing third with
  | nil => exact two
  | cons head _ ih =>
    cases two with
    | cons head' tail' => exact .cons (trans _ _ _ head head') (ih tail')

theorem StoredTable.Grown.refl (t : StoredTable) : t.Grown t := by
  refine ⟨rfl, [], (List.append_nil _).symm, fun column none => absurd none List.not_mem_nil, ?_⟩
  simp only [List.length_nil, StoredRow.padded_zero, List.map_id']

theorem StoredTable.Grown.trans (first : t.Grown t') (second : t'.Grown t'') : t.Grown t'' := by
  obtain ⟨name, more, columns, spare, rows⟩ := first
  obtain ⟨name', more', columns', spare', rows'⟩ := second
  refine ⟨name'.trans name, more ++ more', ?_, ?_, ?_⟩
  · rw [columns', columns, List.append_assoc]
  · intro column member
    exact (List.mem_append.1 member).elim (spare column) (spare' column)
  · rw [rows', rows, List.map_map, List.length_append]
    exact List.map_congr_left fun row _ => StoredRow.padded_padded

theorem StoredTable.grown_widened (optional : column.required = false) (apart : column.keyPosition = 0) :
    t.Grown (t.widened column) := by
  refine ⟨rfl, [column], rfl, fun other member => ?_, rfl⟩
  rw [List.mem_singleton.1 member]
  exact ⟨optional, apart⟩

theorem Content.Grown.refl (c : Content) : c.Grown c :=
  ⟨⟨c.tables, [], (List.append_nil _).symm, List.forall₂_same.2 fun t _ => .refl t, fun _ none => absurd none List.not_mem_nil⟩,
    rfl⟩

theorem Content.Grown.trans (first : c.Grown c') (second : c'.Grown c'') : c.Grown c'' := by
  obtain ⟨⟨old, new, tables, grown, empty⟩, indexes⟩ := first
  obtain ⟨⟨old', new', tables', grown', empty'⟩, indexes'⟩ := second
  rw [tables] at grown'
  have kept := List.forall₂_take old.length grown'
  have later := List.forall₂_drop old.length grown'
  rw [List.take_left] at kept
  rw [List.drop_left] at later
  refine ⟨⟨old'.take old.length, old'.drop old.length ++ new', ?_, ?_, ?_⟩, indexes'.trans indexes⟩
  · rw [tables', ← List.append_assoc, List.take_append_drop]
  · exact forall₂_trans (R := StoredTable.Grown) (fun _ _ _ => .trans) grown kept
  · intro t member
    rcases List.mem_append.1 member with created | added
    · -- A table that was created empty has no rows after it has grown.
      obtain ⟨i, bound, rfl⟩ := List.getElem_of_mem created
      obtain ⟨-, more, -, -, rows⟩ := later.get (by rw [later.length_eq]; exact bound) bound
      exact rows.trans (by rw [empty _ (List.get_mem _ _), List.map_nil])
    · exact empty' t added

theorem Content.Grown.whole (grown : c.Grown c') (whole : c.Whole) : c'.Whole := by
  obtain ⟨⟨old, new, tables, grown, empty⟩, -⟩ := grown
  intro t member row listed
  rw [tables] at member
  rcases List.mem_append.1 member with kept | created
  · obtain ⟨i, bound, rfl⟩ := List.getElem_of_mem kept
    have before : i < c.tables.length := grown.length_eq ▸ bound
    obtain ⟨-, more, columns, -, rows⟩ := grown.get before bound
    rw [List.get_eq_getElem, List.get_eq_getElem] at columns rows
    rw [rows] at listed
    obtain ⟨own, known, rfl⟩ := List.mem_map.1 listed
    rw [columns, StoredRow.padded, List.length_append, List.length_append, List.length_replicate,
      whole _ (List.getElem_mem before) own known]
  · rw [empty t created] at listed
    exact absurd listed List.not_mem_nil

end Growing

section Steps

variable {c : Content} {enforces : Bool} {command : Sql.Command} {effect : Effect}

/-- Commands that add to a schema what leaves its data alone, and those that only read. -/
def isAdditive : Sql.Command → Bool
  | .addColumn _ column => !column.required
  | .insert .. | .insertOrRollback .. | .update .. | .delete .. | .dropTable _ | .createIndex _ => false
  | _ => true

theorem grown_of_effect (distinct : c.Distinct) (additive : isAdditive command = true)
    (done : effectOf c enforces command = .ok effect) : c.Grown effect.content := by
  cases command with
  | insert | insertOrRollback | update | delete | dropTable | createIndex => cases additive
  | createTable t mark =>
    cases done
    refine ⟨⟨c.tables, [newTable t], rfl, List.forall₂_same.2 fun t _ => .refl t, fun own member => ?_⟩, rfl⟩
    rw [List.mem_singleton.1 member]
    rfl
  | addColumn table column =>
    cases done
    unfold addColumn
    split
    · exact .refl c
    · rename_i own found
      have known := (Content.table?_mem found).1
      refine ⟨⟨_, [], (List.append_nil _).symm, ?_, fun _ none => absurd none List.not_mem_nil⟩, rfl⟩
      simp only [Content.replace]
      rw [List.forall₂_map_right_iff, List.forall₂_same]
      intro old listed
      split
      · rename_i same
        obtain rfl := List.inj_on_of_nodup_map distinct listed known ((sameIgnoringCase_iff _ _).1 same)
        have optional : column.required = false := by simpa [isAdditive] using additive
        have grown : old.Grown (old.widened ⟨column.name, keptType column.declared, column.required, 0, column.reference⟩) :=
          StoredTable.grown_widened optional rfl
        exact grown
      · exact .refl old
  | _ =>
    cases done
    exact .refl c

namespace Outline

variable {o after : Outline}

theorem Step.grown (step : Step (isAdditive · = true) o after) (sound : o.Sound enforces) :
    o.content.Grown after.content := by
  cases step with
  | untouched touched =>
    rw [touched.content]
    exact .refl _
  | ran plain additive ended =>
    rcases ended.content_cases with ⟨-, same⟩ | ⟨-, -, -, effect, done, same⟩
    · rw [same]
      exact .refl _
    · rw [same]
      exact grown_of_effect sound.content additive done

/-- What a run of such statements leaves has only grown. -/
theorem Steps.grown (steps : Steps (isAdditive · = true) o after) (sound : o.Sound enforces) :
    o.content.Grown after.content := by
  induction steps with
  | refl => exact .refl _
  | tail before step ih => exact ih.trans (step.grown (Steps.sound before sound))

end Outline

end Steps

end Store

theorem Table.lacking_of_missingFrom {t : Table} {live : List LiveColumn} {missing : List Column}
    (found : t.missingFrom live = .ok missing) :
    ∀ c ∈ missing, LiveColumn.find? live c.name = none ∧ c.nullable = true := by
  unfold missingFrom at found
  split at found
  · rcases sought : t.columns.mapM (t.missing? live) with conflict | each
    · rw [sought] at found
      cases found
    · rw [sought] at found
      obtain rfl := Except.ok.inj found
      intro c member
      obtain ⟨entry, listed, rfl⟩ := List.mem_filterMap.1 member
      obtain ⟨i, bound, same⟩ := List.getElem_of_mem listed
      rw [mapM_eq_ok] at sought
      have one := sought.get (by rw [sought.length_eq]; exact bound) bound
      rw [List.get_eq_getElem, List.get_eq_getElem, same] at one
      rcases missing?_eq_ok one with ⟨-, none⟩ | ⟨absent, nullable, found⟩
      · cases none
      · cases found
        exact ⟨absent, nullable⟩
  · cases found

namespace Database

open ShapeGraph

variable {t : Table} {policy : Policy} {among : String → Prop} {may : Sql.Command → Prop} {enforces : Bool}

section Aligning

/-- What is asked of the engine to bring tables in line: tables come from descriptors, they go only where the policy
    says so and are among those in question, and no column comes that is required. -/
def Aligns (policy : Policy) (among : String → Prop) : Sql.Command → Prop
  | .tableExists _ | .tableInfo _ => True
  | .createTable definition _ => ∃ t : Table, definition = t.definition
  | .addColumn _ column => column.required = false
  | .dropTable name => policy.contains .drop = true ∧ among name
  | _ => False

theorem does_define {command : Sql.Command} (plain : isControl command = false) (allowed : may command) :
    Does may (define command) :=
  (does_execute plain allowed).bind fun _ => does_pure ()

structure Asking (may : Sql.Command → Prop) (policy : Policy) (t : Table) : Prop where
  look : may (.tableExists t.name)
  tell : may (.tableInfo t.name)
  create : may t.create
  drop : policy.contains .drop = true → may (.dropTable t.name)
  add : ∀ c : Column, c.nullable = true → may (t.addColumn c)

theorem does_addMissing (asking : Asking may policy t) : Does may (addMissing t) := by
  refine Does.bind (Does.bind (does_query rfl asking.tell) fun _ => does_known _) fun live => Does.of_known fun missing found => ?_
  rw [mapError_eq_ok] at found
  refine Does.bind (does_forM fun c listed => does_define rfl ?_) fun _ => ?_
  · exact asking.add c (Table.lacking_of_missingFrom found c listed).2
  · split
    · exact does_note _
    · exact does_pure ()

theorem Asking.does (asking : Asking may policy t) : Does may (align policy t) := by
  have created (text : String) : Does may (define t.create >>= fun _ => noteSchema text) :=
    (does_define rfl asking.create).bind fun _ => does_note _
  unfold align
  split
  · rename_i drops
    exact Does.bind (does_define rfl (asking.drop drops)) fun _ => created _
  · refine Does.bind (Does.bind (does_scalar rfl asking.look) fun _ => does_pure _) fun present => ?_
    split
    · exact created _
    · split
      · exact does_addMissing asking
      · exact does_pure ()

theorem does_align (listed : among t.name) : Does (Aligns policy among) (align policy t) :=
  Asking.does ⟨trivial, trivial, ⟨t, rfl⟩, fun drops => ⟨drops, listed⟩, fun _ nullable => congrArg not nullable⟩

theorem does_alignAll {tables : List (Except Failure Table)} (listed : ∀ t : Table, .ok t ∈ tables → among t.name) :
    Does (Aligns policy among) (alignAll policy tables) :=
  does_forM fun _ member => Does.of_known fun t same => does_align (listed t (same ▸ member))

theorem does_alignAny (policy : Policy) (tables : List (Except Failure Table)) :
    Does (Aligns policy fun _ => True) (alignAll policy tables) :=
  does_alignAll fun _ _ => trivial

theorem isAdditive_of_aligns (keeps : policy.contains .drop = false) (command : Sql.Command)
    (asked : Aligns policy among command) : isAdditive command = true := by
  cases command with
  | dropTable name => exact absurd (asked.1.symm.trans keeps) (by decide)
  | addColumn table column => exact congrArg not asked
  | tableExists | tableInfo | createTable => rfl
  | _ => cases asked

end Aligning

section Calling

variable {g : ShapeGraph} {d : Descriptor g.size} {db : Database}

/-- A call under a policy that drops nothing lets the schema grow, and leaves it as it was if it fails. -/
theorem reconcile_grown (keeps : policy.contains .drop = false) (sound : Sound enforces db) (idle : Idle db) :
    Sound enforces ((reconcile g policy d).run db).2 ∧ Idle ((reconcile g policy d).run db).2 ∧
      (standing db).content.Grown (standing ((reconcile g policy d).run db).2).content ∧
      ((∃ failure, ((reconcile g policy d).run db).1 = .error failure) →
        standing ((reconcile g policy d).run db).2 = standing db) := by
  have does : Does (isAdditive · = true)
      (alignAll policy (if policy.contains .shallowOnly then [.ok d.table] else g.reach d)) :=
    (does_alignAny policy _).mono (isAdditive_of_aligns keeps)
  obtain ⟨sound', idle', ⟨failed, same⟩ | ⟨⟨a, succeeded⟩, o, steps, content⟩⟩ := atomically_contained does sound idle
  · refine ⟨sound', idle', ?_, fun _ => same⟩
    rw [reconcile, same]
    exact .refl _
  · refine ⟨sound', idle', ?_, ?_⟩
    · rw [reconcile, content]
      exact steps.grown sound.opened
    · rintro ⟨failure, failed⟩
      rw [reconcile, succeeded] at failed
      cases failed

end Calling

end Database

namespace Session

variable {n : Nat} {s : Session n} {k : Fin n}

def content (s : Session n) (f : Fin n) : Content :=
  (s.files.get f).content

/-- A handle on which no unit and no transaction is open, and whose file has no two tables of one name. -/
structure Resting (s : Session n) (k : Fin n) : Prop where
  closed : (s.handle k).nest.isOpen = false
  outside : (s.handle k).connection.explicit = false
  unseen : (s.handle k).connection.view = none
  distinct : (s.content (s.handle k).file).Distinct

theorem Resting.idle (resting : s.Resting k) : Database.Idle (s.database k) :=
  ⟨resting.closed, resting.outside⟩

theorem Resting.sound (resting : s.Resting k) :
    Database.Sound (s.handle k).connection.enforces (s.database k) := by
  have seen : (s.database k).engine.outline.seen = none := congrArg (Option.map _) resting.unseen
  refine ⟨rfl, resting.distinct, fun content changed found => ?_, fun _ => seen⟩
  rw [seen] at found
  cases found

theorem Resting.standing (resting : s.Resting k) :
    Database.standing (s.database k) = ⟨s.content (s.handle k).file, none⟩ := by
  have same := resting.sound.content_outside resting.outside
  rw [← Database.base_of_idle resting.idle]
  exact congrArg (Standing.mk · _) same

theorem content_replace (db : Database) (f : Fin n) : (s.replace k db).content f =
    if f = (s.handle k).file then db.engine.store.file.content else s.content f := by
  show ((s.files.set (s.handle k).file db.engine.store.file (s.handle k).file.isLt)[f]).content = _
  rw [Fin.getElem_fin, Vector.getElem_set]
  split
  · rename_i same
    rw [if_pos (Fin.ext same.symm)]
  · rename_i other
    rw [if_neg fun same => other (congrArg Fin.val same).symm]
    rfl

theorem handle_setHandle_other {j : Fin n} (other : j ≠ k) (own : Handle n) :
    (s.setHandle k own).handle j = s.handle j :=
  Vector.getElem_set_ne k.isLt j.isLt fun same => other (Fin.ext same.symm)

theorem handle_replace_other {j : Fin n} (other : j ≠ k) (db : Database) : (s.replace k db).handle j = s.handle j :=
  handle_setHandle_other other _

theorem Resting.replace {j : Fin n} {db : Database} {enforces : Bool} (resting : s.Resting j)
    (sound : Database.Sound enforces db) (idle : Database.Idle db) : (s.replace k db).Resting j := by
  have distinct : ∀ f, (s.content f).Distinct → ((s.replace k db).content f).Distinct := by
    intro f before
    rw [content_replace]
    split
    · exact sound.kept
    · exact before
  by_cases own : j = k
  · subst own
    have left : (s.replace j db).handle j =
        ⟨(s.handle j).file, db.engine.store.connection, db.nest, { db.engine.log with forwarded := [] }⟩ :=
      handle_setHandle j s _
    have unseen := sound.outside idle.outside
    exact ⟨by rw [left]; exact idle.closed, by rw [left]; exact idle.outside,
      by rw [left]; exact Option.map_eq_none_iff.1 unseen, by rw [left]; exact distinct _ resting.distinct⟩
  · have left := handle_replace_other (s := s) own db
    exact ⟨by rw [left]; exact resting.closed, by rw [left]; exact resting.outside, by rw [left]; exact resting.unseen,
      by rw [left]; exact distinct _ resting.distinct⟩

end Session

structure SchemaCall (n : Nat) where
  handle : Fin n
  graph : ShapeGraph
  descriptor : Descriptor graph.size
  policy : Policy

namespace SchemaCall

variable {n : Nat} {s : Session n} {call : SchemaCall n}

def perform (call : SchemaCall n) (s : Session n) : Except Failure Unit × Session n :=
  s.acting call.handle (Database.reconcile call.graph call.policy call.descriptor)

def performAll (s : Session n) (calls : List (SchemaCall n)) : Session n :=
  calls.foldl (fun s call => (call.perform s).2) s

theorem perform_grown (keeps : call.policy.contains .drop = false) (resting : s.Resting call.handle) :
    (∀ j, s.Resting j → (call.perform s).2.Resting j) ∧
      (∀ f, (s.content f).Grown ((call.perform s).2.content f)) ∧
      ((∃ failure, (call.perform s).1 = .error failure) → ∀ f, (call.perform s).2.content f = s.content f) := by
  obtain ⟨sound, idle, grown, undone⟩ := Database.reconcile_grown (g := call.graph) (d := call.descriptor)
    keeps resting.sound resting.idle
  have left : ∀ j, s.Resting j → (call.perform s).2.Resting j := fun j before => before.replace sound idle
  have own := (left call.handle resting).standing
  have file : ∀ f, (call.perform s).2.content f = if f = (s.handle call.handle).file
      then (Database.standing ((Database.reconcile call.graph call.policy call.descriptor).run (s.database call.handle)).2).content
      else s.content f := by
    intro f
    refine (Session.content_replace _ f).trans ?_
    split
    · exact (sound.content_outside idle.outside).symm
    · rfl
  rw [resting.standing] at grown undone
  refine ⟨left, fun f => ?_, fun failed f => ?_⟩
  · rw [file]
    split
    · rename_i same
      rw [same]
      exact grown
    · exact .refl _
  · rw [file]
    split
    · rename_i same
      rw [same, undone failed]
    · rfl

/-- Along calls the handles stay at rest, and the files have only grown. -/
theorem resting_performAll (calls : List (SchemaCall n)) (s : Session n)
    (keeps : ∀ call ∈ calls, call.policy.contains .drop = false) (resting : ∀ call ∈ calls, s.Resting call.handle) :
    (∀ j, s.Resting j → (performAll s calls).Resting j) ∧
      ∀ f, (s.content f).Grown ((performAll s calls).content f) := by
  induction calls generalizing s with
  | nil => exact ⟨fun _ => id, fun _ => .refl _⟩
  | cons call calls ih =>
    obtain ⟨rests, grown, -⟩ := perform_grown (keeps call List.mem_cons_self) (resting call List.mem_cons_self)
    obtain ⟨rests', grown'⟩ := ih (call.perform s).2 (fun other later => keeps other (List.mem_cons_of_mem _ later))
      fun other later => rests _ (resting other (List.mem_cons_of_mem _ later))
    exact ⟨fun j before => rests' j (rests j before), fun f => (grown f).trans (grown' f)⟩

/-- Under policies that drop nothing a schema only grows and its data is kept, and a call that fails changes nothing:
    this holds of calls of any shapes, on any handles that are at rest, whether or not the calls before them failed. -/
theorem performAll_grown (s : Session n) (calls : List (SchemaCall n))
    (keeps : ∀ call ∈ calls, call.policy.contains .drop = false) (resting : ∀ call ∈ calls, s.Resting call.handle) :
    (∀ f, (s.content f).Grown ((performAll s calls).content f)) ∧
      (∀ f, (s.content f).Whole → ((performAll s calls).content f).Whole) ∧
      ∀ before call after, calls = before ++ call :: after →
        (∃ failure, (call.perform (performAll s before)).1 = .error failure) →
        ∀ f, (performAll s (before ++ [call])).content f = (performAll s before).content f := by
  obtain ⟨-, grown⟩ := resting_performAll calls s keeps resting
  refine ⟨grown, fun f => (grown f).whole, ?_⟩
  rintro before call after rfl failed f
  have own : call ∈ before ++ call :: after := List.mem_append_right _ List.mem_cons_self
  obtain ⟨rests, -⟩ := resting_performAll before s (fun other listed => keeps other (List.mem_append_left _ listed))
    fun other listed => resting other (List.mem_append_left _ listed)
  rw [performAll, List.foldl_append, List.foldl_cons, List.foldl_nil]
  exact (perform_grown (keeps call own) (rests _ (resting call own))).2.2 failed f

end SchemaCall

section Shelf

def namedTable : Table := ⟨"artist", [⟨"id", .integer, false, true⟩, ⟨"name", .text, true, false⟩], by decide⟩

def looseContent : Content :=
  ⟨[⟨"artist", [⟨"id", "INTEGER", true, 1, none⟩], [⟨1, [.integer 1]⟩, ⟨2, [.integer 2]⟩]⟩,
    ⟨"album", [⟨"id", "INTEGER", true, 1, none⟩, ⟨"artist", "INTEGER", false, 0, none⟩], [⟨5, [.integer 5, .null]⟩]⟩], []⟩

def looseSession : Session 1 :=
  ⟨Vector.replicate 1 ⟨looseContent, 0, none⟩,
    Vector.replicate 1 ⟨.last 0, .make 0 true looseContent, .initial, .collecting⟩, []⟩

def namingAll : SchemaCall 1 := ⟨.last 0, shelf, ⟨namedTable, [albums]⟩, .reconcile⟩

def namingArtists : SchemaCall 1 := ⟨.last 0, shelf, ⟨namedTable, [albums]⟩, Policy.reconcile.union .shallowOnly⟩

theorem reach_named : shelf.reach ⟨namedTable, [albums]⟩ = [.ok namedTable, .ok albumTable] := by
  have described : (shelf.shape albums.child).descriptor = .ok ⟨albumTable, []⟩ := rfl
  have name : (shelf.shape albums.child).table = "album" := rfl
  have unmet : "album" ∈ ShapeGraph.without namedTable.name shelf.tableNames := by decide
  simp [ShapeGraph.reach, ShapeGraph.reachFrom, described, name, unmet]

theorem namingAll_perform (s : Session 1) : namingAll.perform s =
    s.acting 0 (Database.atomically (Database.alignAll .reconcile [.ok namedTable, .ok albumTable])) := by
  rw [← reach_named]
  rfl

theorem naming_outcomes : (namingAll.perform looseSession).1.isOk = false ∧
    (namingArtists.perform (namingAll.perform looseSession).2).1.isOk = true := by
  rw [namingAll_perform]
  decide +kernel

theorem exists_of_not_isOk {α : Type} {outcome : Except Failure α} (fails : outcome.isOk = false) :
    ∃ failure, outcome = .error failure := by
  cases outcome with
  | error failure => exact ⟨failure, rfl⟩
  | ok a => cases fails

theorem performAll_grown_shelf :
    (∀ call ∈ [namingAll, namingArtists], call.policy.contains .drop = false) ∧
      (∀ call ∈ [namingAll, namingArtists], looseSession.Resting call.handle) ∧
      (∃ failure, (namingAll.perform looseSession).1 = .error failure) ∧
      (SchemaCall.performAll looseSession [namingAll]).content 0 = looseContent ∧
      (namingArtists.perform (SchemaCall.performAll looseSession [namingAll])).1.isOk = true ∧
      looseContent.Grown ((SchemaCall.performAll looseSession [namingAll, namingArtists]).content 0) := by
  have keeps : ∀ call ∈ [namingAll, namingArtists], call.policy.contains .drop = false := by
    intro call listed
    simp only [List.mem_cons, List.not_mem_nil, or_false] at listed
    rcases listed with rfl | rfl <;> rfl
  have distinct : (looseContent.tables.map fun t => foldCase t.name).Nodup := by decide
  have resting : ∀ call ∈ [namingAll, namingArtists], looseSession.Resting call.handle := by
    intro call listed
    simp only [List.mem_cons, List.not_mem_nil, or_false] at listed
    rcases listed with rfl | rfl <;> exact ⟨rfl, rfl, rfl, distinct⟩
  have start : SchemaCall.performAll looseSession [] = looseSession := rfl
  have content : looseSession.content 0 = looseContent := rfl
  obtain ⟨grown, -, undone⟩ := SchemaCall.performAll_grown looseSession [namingAll, namingArtists] keeps resting
  have first := undone [] namingAll [namingArtists] rfl
  rw [start, List.nil_append] at first
  have fails := exists_of_not_isOk naming_outcomes.1
  refine ⟨keeps, resting, fails, ?_, naming_outcomes.2, content ▸ grown 0⟩
  rw [first fails 0, content]

end Shelf

end RecordMapper
