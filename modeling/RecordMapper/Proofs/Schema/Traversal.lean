import RecordMapper.Proofs.Schema.Growth
import RecordMapper.Proofs.Schema.Preorder
import RecordMapper.Proofs.Unit.Asking
import RecordMapper.Proofs.Unit.Invariance

namespace RecordMapper

open RecordMapper.Store RecordMapper.Text

section Contents

variable {before c : Content} {names : String → Prop} {t : Table} {own : StoredTable}

def Sql.Command.Defines (names : String → Prop) : Sql.Command → Prop
  | .tableExists _ | .tableInfo _ => True
  | .createTable table _ => names table.name
  | .dropTable name | .addColumn name _ => names name
  | _ => False

def OneSpelling (names : String → Prop) : Prop :=
  ∀ name other, names name → names other → sameIgnoringCase name other = true → name = other

/-- A content that has tables and indexes of other names as an earlier one has, and these names as they are spelled. -/
structure Store.Content.Beside (c : Content) (names : String → Prop) (before : Content) : Prop where
  spelled : ∀ own ∈ c.tables, ∀ name, names name → sameIgnoringCase own.name name = true → own.name = name
  tables : ∀ own : StoredTable, ¬names own.name → (own ∈ c.tables ↔ own ∈ before.tables)
  indexes : ∀ index : StoredIndex, (∀ name, names name → sameIgnoringCase index.table name = false) →
    (index ∈ c.indexes ↔ index ∈ before.indexes)

theorem Store.Content.Beside.createTable {table : Sql.TableDefinition} (distinct : OneSpelling names)
    (beside : c.Beside names before) (named : names table.name) : (createTable c table).Beside names before := by
  constructor
  · intro own member name listed same
    rcases List.mem_append.1 member with old | new
    · exact beside.spelled own old name listed same
    · obtain rfl := List.mem_singleton.1 new
      exact distinct _ _ named listed same
  · intro own other
    rw [← beside.tables own other, Store.createTable, List.mem_append, List.mem_singleton, or_iff_left]
    rintro rfl
    exact other named
  · exact beside.indexes

theorem Store.Content.Beside.dropTable {name : String} (beside : c.Beside names before) (named : names name) :
    (dropTable c name).Beside names before := by
  constructor
  · intro own member
    exact beside.spelled own (List.mem_filter.1 member).1
  · intro own other
    rw [← beside.tables own other, Store.dropTable, List.mem_filter, and_iff_left_of_imp]
    intro listed
    rw [Bool.not_eq_true', Bool.eq_false_iff]
    intro same
    exact other (beside.spelled own listed name named same ▸ named)
  · intro index apart
    rw [← beside.indexes index apart, Store.dropTable, List.mem_filter, and_iff_left]
    rw [apart name named, Bool.not_false]

theorem Store.Content.Beside.replace (beside : c.Beside names before) (named : names own.name)
    (distinct : OneSpelling names) : (c.replace own).Beside names before := by
  have kept (old : StoredTable) (listed : old ∈ c.tables) (other : ¬names old.name) :
      ¬sameIgnoringCase old.name own.name = true :=
    fun same => other (beside.spelled old listed _ named same ▸ named)
  constructor
  · intro other member name listed same
    obtain ⟨old, stands, rfl⟩ := List.mem_map.1 member
    split at same
    · rw [if_pos (by assumption)]
      exact distinct _ _ named listed same
    · rw [if_neg (by assumption)]
      exact beside.spelled old stands name listed same
  · intro other apart
    rw [← beside.tables other apart, Content.replace, List.mem_map]
    constructor
    · rintro ⟨old, stands, replaced⟩
      split at replaced
      · exact absurd (replaced ▸ named) apart
      · exact replaced ▸ stands
    · intro stands
      exact ⟨other, stands, if_neg (kept other stands apart)⟩
  · exact beside.indexes

theorem kept_beside (distinct : OneSpelling names) (before : Content) :
    Content.KeptBy (Sql.Command.Defines names) fun c => c.Beside names before := by
  intro c enforces command effect beside defines _ done
  cases command with
  | createTable table mark =>
    cases done
    exact beside.createTable distinct defines
  | dropTable name =>
    rcases dropEffect_content done with same | same <;> rw [same]
    · exact beside
    · exact beside.dropTable defines
  | addColumn name column =>
    cases done
    show (Store.addColumn c name column).Beside names before
    unfold Store.addColumn
    split
    · exact beside
    · rename_i own found
      obtain ⟨listed, same⟩ := Content.table?_mem found
      have named : names own.name := beside.spelled own listed name defines same ▸ defines
      exact beside.replace named distinct
  | tableExists | tableInfo =>
    cases done
    exact beside
  | _ => cases defines

theorem kept_table? (name : String) (good : StoredTable → Prop) :
    Content.KeptBy (Sql.Command.Defines fun other => sameIgnoringCase other name = false)
      fun c => ∃ own, c.table? name = some own ∧ good own := by
  intro c enforces command effect stands defines _ done
  obtain ⟨own, found, holds⟩ := stands
  refine ⟨own, ?_, holds⟩
  cases command with
  | createTable table mark =>
    cases done
    exact (table?_createTable_other defines).trans found
  | dropTable dropped =>
    rcases dropEffect_content done with same | same <;> rw [same]
    · exact found
    · exact (table?_dropTable c ((sameIgnoringCase_comm _ _).trans defines)).trans found
  | addColumn table column =>
    cases done
    show (Store.addColumn c table column).table? name = some own
    unfold Store.addColumn
    split
    · exact found
    · rename_i other here
      have same := (sameIgnoringCase_iff _ _).1 (Content.table?_mem here).2
      rw [table?_replace_other, found]
      rw [sameIgnoringCase, same]
      exact defines
  | tableExists | tableInfo =>
    cases done
    exact found
  | _ => cases defines

structure Table.Anew (t : Table) (own : StoredTable) : Prop where
  name : own.name = t.name
  columns : List.Forall₂ (fun (column : Column) (stored : StoredColumn) => stored.name = column.name ∧
    stored.declared = column.dataType.declared ∧ stored.required = !column.nullable ∧
      (0 < stored.keyPosition ↔ column.key = true)) t.columns own.columns
  rows : own.rows = []

theorem keptType_declared (d : DataType) : keptType d.declared = d.declared := by
  cases d <;> decide

theorem Table.anew_newTable (distinct : (t.columnNames.map foldCase).Nodup) : t.Anew (newTable t.definition) := by
  constructor
  · rfl
  · simp only [newTable, definition, List.map_map, List.forall₂_map_right_iff, List.forall₂_same]
    intro column listed
    exact ⟨rfl, keptType_declared column.dataType, rfl, keyPlace_pos distinct listed⟩
  · rfl

end Contents

namespace ShapeGraph

variable {g : ShapeGraph} {policy : Policy} {i j root : Fin g.size} {d : Descriptor g.size}
  {order : List (Descriptor g.size)} {met : List String}

section Linking

def Links (g : ShapeGraph) (i j : Fin g.size) : Prop :=
  ∃ f ∈ (g.shape i).fields, f.kind = .toMany j

def Describes (g : ShapeGraph) (i : Fin g.size) (d : Descriptor g.size) : Prop :=
  ∃ key, (g.shape i).descriptorKeyedBy key = .ok d

/-- No two shapes have names that differ in letter case at most, and no stored table has a shape's name in other
    letters. -/
structure WellSpelled (g : ShapeGraph) (c : Content) : Prop where
  shapes : ∀ i j, foldCase (g.shape i).table = foldCase (g.shape j).table → i = j
  stored : ∀ i, ∀ own ∈ c.tables, foldCase own.name = foldCase (g.shape i).table → own.name = (g.shape i).table

theorem Describes.name (describes : g.Describes i d) : d.table.name = (g.shape i).table := by
  obtain ⟨_, resolved⟩ := describes
  exact (Descriptor.resolve_eq_ok resolved).1

theorem Describes.links_iff (describes : g.Describes i d) : g.Links i j ↔ ∃ r ∈ d.relations, r.child = j := by
  obtain ⟨_, resolved⟩ := describes
  rw [(Descriptor.resolve_eq_ok resolved).2.2]
  constructor
  · rintro ⟨f, listed, toMany⟩
    refine ⟨⟨f.name, j⟩, List.mem_filterMap.2 ⟨f, listed, ?_⟩, rfl⟩
    rw [Field.relation?, toMany]
  · rintro ⟨r, kept, rfl⟩
    obtain ⟨f, listed, relation⟩ := List.mem_filterMap.1 kept
    refine ⟨f, listed, ?_⟩
    unfold Field.relation? at relation
    split at relation
    · rename_i child toMany
      cases relation
      exact toMany
    · cases relation

theorem Describes.below {e : Descriptor g.size} (describes : g.Describes i d) (leads : .ok e ∈ g.below policy d) :
    ∃ j, g.Links i j ∧ (g.shape j).descriptor = .ok e := by
  obtain ⟨r, listed, described⟩ := relation_of_below leads
  exact ⟨r.child, describes.links_iff.2 ⟨r, listed, rfl⟩, described⟩

theorem Describes.leads (describes : g.Describes i d) (deep : policy.contains .shallowOnly = false)
    (link : g.Links i j) : (g.shape j).descriptor ∈ g.below policy d := by
  obtain ⟨r, listed, rfl⟩ := describes.links_iff.1 link
  rw [ShapeGraph.below, deep, if_neg (by decide)]
  exact List.mem_map_of_mem listed

variable {c : Content}

theorem WellSpelled.same {e e' : Descriptor g.size} (spelled : g.WellSpelled c) (one : g.Describes i e)
    (two : g.Describes j e') (named : foldCase e.table.name = foldCase e'.table.name) : i = j := by
  rw [one.name, two.name] at named
  exact spelled.shapes i j named

namespace Preorder

theorem linked (preorder : Preorder g policy [] [.ok d] order met) (describes : g.Describes root d) :
    ∀ e ∈ order, ∃ i, Relation.ReflTransGen g.Links root i ∧ g.Describes i e := by
  intro e member
  obtain ⟨_, pending, path⟩ := preorder.reachable e member
  cases List.mem_singleton.1 pending
  clear member
  induction path with
  | refl => exact ⟨root, .refl, describes⟩
  | tail _ leads ih =>
    obtain ⟨i, path, described⟩ := ih
    obtain ⟨j, link, same⟩ := described.below leads
    exact ⟨j, path.tail link, _, same⟩

theorem keyed (preorder : Preorder g policy [] [.ok d] order met) :
    ∀ e ∈ order, e = d ∨ ∃ i, (g.shape i).descriptor = .ok e := by
  intro e member
  obtain ⟨_, pending, path⟩ := preorder.reachable e member
  cases List.mem_singleton.1 pending
  rcases path.cases_tail with same | ⟨e', path, leads⟩
  · exact .inl same
  · obtain ⟨r, -, described⟩ := relation_of_below leads
    exact .inr ⟨r.child, described⟩

variable (spelled : g.WellSpelled c)

include spelled

theorem of_met (preorder : Preorder g policy [] [.ok d] order met) (describes : g.Describes root d)
    {e : Descriptor g.size} (described : g.Describes i e) (known : e.table.name ∈ met) : ∃ e ∈ order, g.Describes i e := by
  rcases (preorder.mem_met _).1 known with none | ⟨e', member, named⟩
  · cases none
  · obtain ⟨j, -, described'⟩ := preorder.linked describes e' member
    exact ⟨e', member, spelled.same described' described (congrArg foldCase named) ▸ described'⟩

/-- Unless the policy is shallow, the order has each shape that links lead to, and no other. -/
theorem linked_iff (preorder : Preorder g policy [] [.ok d] order met) (describes : g.Describes root d)
    (deep : policy.contains .shallowOnly = false) :
    (∃ e ∈ order, g.Describes i e) ↔ Relation.ReflTransGen g.Links root i := by
  constructor
  · rintro ⟨e, member, described⟩
    obtain ⟨j, path, described'⟩ := preorder.linked describes e member
    exact spelled.same described' described rfl ▸ path
  · intro path
    -- On the way from the root, a descriptor of each shape stands in the order, and all that it leads to has been met.
    induction path with
    | refl =>
      obtain ⟨_, same, known⟩ := preorder.met_pending _ List.mem_cons_self
      cases same
      exact preorder.of_met spelled describes describes known
    | tail _ link ih =>
      obtain ⟨e, member, described⟩ := ih
      obtain ⟨e', same, known⟩ := preorder.met_below e member _ (described.leads deep link)
      exact preorder.of_met spelled describes ⟨_, same⟩ known

theorem oneSpelling (preorder : Preorder g policy [] [.ok d] order met) (describes : g.Describes root d) :
    OneSpelling fun name => ∃ e ∈ order, e.table.name = name := by
  rintro _ _ ⟨e, member, rfl⟩ ⟨e', member', rfl⟩ same
  obtain ⟨i, -, one⟩ := preorder.linked describes e member
  obtain ⟨j, -, two⟩ := preorder.linked describes e' member'
  obtain rfl := spelled.same one two ((sameIgnoringCase_iff _ _).1 same)
  exact one.name.trans two.name.symm

theorem apart (preorder : Preorder g policy [] [.ok d] order met) (describes : g.Describes root d) :
    (order.map Descriptor.table).Pairwise fun t t' => sameIgnoringCase t'.name t.name = false := by
  rw [List.pairwise_map]
  refine (List.pairwise_map.1 preorder.nodup.1).imp_of_mem fun {e e'} member member' other => ?_
  rw [Bool.eq_false_iff]
  intro same
  exact other (preorder.oneSpelling spelled describes _ _ ⟨e', member', rfl⟩ ⟨e, member, rfl⟩ same).symm

theorem beside (preorder : Preorder g policy [] [.ok d] order met) (describes : g.Describes root d) :
    c.Beside (fun name => ∃ e ∈ order, e.table.name = name) c := by
  constructor
  · rintro own listed _ ⟨e, member, rfl⟩ same
    obtain ⟨i, -, described⟩ := preorder.linked describes e member
    rw [sameIgnoringCase_iff, described.name] at same
    rw [described.name]
    exact spelled.stored i own listed same
  · exact fun _ _ => .rfl
  · exact fun _ _ => .rfl

end Preorder

end Linking

/-- A traversal from a root: the descriptors whose tables are brought in line, in order, and what that leaves. -/
structure Traversed (g : ShapeGraph) (policy : Policy) (root : Fin g.size) (d : Descriptor g.size)
    (order : List (Descriptor g.size)) (before after : Content) : Prop where
  preorder : ∃ met, Preorder g policy [] [.ok d] order met
  once : (order.map fun e => e.table.name).Nodup
  keyed : ∀ e ∈ order, e = d ∨ ∃ i, (g.shape i).descriptor = .ok e
  shallow : policy.contains .shallowOnly = true → order = [d]
  deep : policy.contains .shallowOnly = false →
    ∀ i, (∃ e ∈ order, g.Describes i e) ↔ Relation.ReflTransGen g.Links root i
  tables : ∀ own : StoredTable, (∀ e ∈ order, e.table.name ≠ own.name) → (own ∈ after.tables ↔ own ∈ before.tables)
  indexes : ∀ index : StoredIndex, (∀ e ∈ order, sameIgnoringCase index.table e.table.name = false) →
    (index ∈ after.indexes ↔ index ∈ before.indexes)
  anew : policy.contains .drop = true → ∀ e ∈ order, ∃ own, after.table? e.table.name = some own ∧ e.table.Anew own

end ShapeGraph

namespace Database

open ShapeGraph

variable {policy : Policy} {t : Table} {enforces : Bool}

theorem does_align_defines {names : String → Prop} (named : names t.name) :
    Does (Sql.Command.Defines names) (align policy t) :=
  Asking.does ⟨trivial, trivial, named, fun _ => named, fun _ _ => named⟩

theorem does_alignAll_defines {names : String → Prop} {tables : List Table} (named : ∀ t ∈ tables, names t.name) :
    Does (Sql.Command.Defines names) (alignAll policy (tables.map .ok)) := by
  refine does_forM fun entry member => Does.of_known fun t same => does_align_defines ?_
  obtain ⟨t', listed, rfl⟩ := List.mem_map.1 member
  exact Except.ok.inj same ▸ named t' listed

theorem ensures_align_anew (drops : policy.contains .drop = true) :
    Ensures enforces (align policy t) fun _ _ c' => ∃ own, c'.table? t.name = some own ∧ t.Anew own := by
  unfold align
  rw [if_pos drops]
  refine Ensures.mono ((ensures_define rfl).bind fun _ => ensures_created.bind fun _ => ensures_note _) fun c _ c' post => ?_
  obtain ⟨_, _, -, _, _, ⟨⟨_, checked⟩, rfl⟩, rfl⟩ := post
  have unrepeated := (checkCreate_eq_ok checked).2
  rw [definition_names] at unrepeated
  exact ⟨_, table?_createTable checked, t.anew_newTable (nodup_of_repeated? unrepeated).1⟩

theorem ensures_alignAll_anew (drops : policy.contains .drop = true) {tables : List Table}
    (apart : tables.Pairwise fun t t' => sameIgnoringCase t'.name t.name = false) :
    Ensures enforces (alignAll policy (tables.map .ok)) fun _ _ c' =>
      ∀ t ∈ tables, ∃ own, c'.table? t.name = some own ∧ t.Anew own := by
  induction apart with
  | nil => exact (ensures_pure _).mono fun _ _ _ _ t none => absurd none List.not_mem_nil
  | cons other apart ih =>
    rename_i t tables
    -- The later tables have other names, so what the first has become stands through all that they do.
    have kept : Ensures enforces (alignAll policy (tables.map .ok)) _ :=
      (does_alignAll_defines other).ensures (kept_table? t.name t.Anew)
    refine Ensures.mono ((ensures_align_anew drops).bind fun _ => kept.and ih) fun c _ c' post => ?_
    obtain ⟨_, _, own, stays, rest⟩ := post
    intro t' member
    rcases List.mem_cons.1 member with rfl | listed
    · exact stays own
    · exact rest t' listed

variable {g : ShapeGraph} {root : Fin g.size} {d : Descriptor g.size} {order : List (Descriptor g.size)}
  {met : List String}

theorem ensures_traversed {before : Content} (spelled : g.WellSpelled before) (describes : g.Describes root d)
    (preorder : Preorder g policy [] [.ok d] order met) :
    Ensures enforces (alignAll policy (reached g policy d)) fun c _ c' =>
      c = before → Traversed g policy root d order before c' := by
  rw [preorder.reached]
  have named : ∀ t ∈ order.map Descriptor.table, ∃ e ∈ order, e.table.name = t.name := by
    intro t member
    obtain ⟨e, listed, rfl⟩ := List.mem_map.1 member
    exact ⟨e, listed, rfl⟩
  have kept : Ensures enforces (alignAll policy ((order.map Descriptor.table).map .ok)) _ :=
    (does_alignAll_defines named).ensures (kept_beside (preorder.oneSpelling spelled describes) before)
  intro db a after sound done
  obtain ⟨stays, beside⟩ := kept db a after sound done
  refine ⟨stays, fun same => ?_⟩
  rw [same] at beside
  have stands := beside (preorder.beside spelled describes)
  constructor
  · exact ⟨met, preorder⟩
  · exact preorder.nodup.1
  · exact preorder.keyed
  · exact preorder.eq_singleton
  · exact fun deep i => preorder.linked_iff spelled describes deep
  · exact fun own other => stands.tables own fun ⟨e, member, same⟩ => other e member same
  · exact fun index other => stands.indexes index fun _ ⟨e, member, same⟩ => same ▸ other e member
  · intro drops e member
    have anew := ensures_alignAll_anew drops (preorder.apart spelled describes) db a after sound done
    exact anew.2 e.table (List.mem_map_of_mem member)

/-- The traversal ends, from whatever root and on whatever database. Where names differ beyond letter case and it
    succeeds, it has dealt once with each table that links lead to, or with the root's alone if the policy is shallow,
    and with no other. -/
theorem reconcile_traverses (g : ShapeGraph) (policy : Policy) (d : Descriptor g.size) :
    reconcile g policy d = atomically (alignAll policy (reached g policy d)) ∧
    (∀ db, ∃ order outcome after, Visit g policy [] [.ok d] db order outcome after ∧
      (alignAll policy (reached g policy d)).run db = (outcome.map fun _ => (), after)) ∧
    ∀ (enforces : Bool) (root : Fin g.size) (db after : Database), g.Describes root d → Sound enforces db →
      g.WellSpelled db.engine.store.content → (reconcile g policy d).run db = (.ok (), after) →
      ∃ start order met finish, host.entry? db = some start ∧ Visit g policy [] [.ok d] start order (.ok met) finish ∧
        Traversed g policy root d order db.engine.store.content after.engine.store.content := by
  refine ⟨rfl, fun db => ?_, fun enforces root db after describes sound spelled done => ?_⟩
  · obtain ⟨order, outcome, after, visit⟩ := exists_visit g policy d db
    exact ⟨order, outcome, after, visit, visit.run_reached⟩
  · obtain ⟨start, finish, began, ran⟩ := UnitHost.run_eq_ok done
    obtain ⟨order, outcome, left, visit⟩ := exists_visit g policy d start
    obtain ⟨succeeded, rfl⟩ := Prod.mk.inj (visit.run_reached.symm.trans ran)
    cases outcome with
    | error failure => cases succeeded
    | ok met =>
      obtain ⟨-, traversed, -⟩ := atomically_eq_ok (ensures_traversed spelled describes (visit.preorder rfl)) sound done
      exact ⟨start, order, met, left, began, visit, traversed rfl⟩

end Database

section Circle

def circle : ShapeGraph where
  size := 2
  shape
    | 0 => .ofFields "Artist" "artist" []
      [⟨"id", .column ⟨.int64, false⟩⟩, ⟨"albums", .toMany ⟨1, by decide⟩⟩, ⟨"pupils", .toMany ⟨0, by decide⟩⟩]
    | 1 => .ofFields "Album" "album" []
      [⟨"id", .column ⟨.int64, false⟩⟩, ⟨"artist", .column ⟨.int64, false⟩⟩, ⟨"guests", .toMany ⟨0, by decide⟩⟩]

def circleArtists : Descriptor circle.size :=
  ⟨artistTable, [⟨"albums", ⟨1, by decide⟩⟩, ⟨"pupils", ⟨0, by decide⟩⟩]⟩

def circleAlbums : Descriptor circle.size :=
  ⟨albumTable, [⟨"guests", ⟨0, by decide⟩⟩]⟩

theorem circle_preorder : ShapeGraph.Preorder circle .drop [] [.ok circleArtists] [circleArtists, circleAlbums]
    ["album", "artist"] := by
  have again : ShapeGraph.Preorder circle .drop ["album", "artist"] [.ok circleArtists] [] ["album", "artist"] :=
    .again (List.mem_cons_of_mem _ (List.mem_singleton_self _)) .nil
  have unmet : circleAlbums.table.name ∉ ["artist"] := by decide
  have below : ShapeGraph.Preorder circle .drop ["artist"] (circle.below .drop circleArtists) [circleAlbums]
      ["album", "artist"] :=
    .first unmet again again
  exact .first (d := circleArtists) List.not_mem_nil below .nil

theorem circle_reached : Database.reached circle .drop circleArtists = [.ok artistTable, .ok albumTable] :=
  circle_preorder.reached

theorem circle_wellSpelled : circle.WellSpelled shelfContent := by
  constructor
  · decide
  · decide

theorem recreate_circle : ∃ after, (Database.reconcile circle .drop circleArtists).run shelfDatabase = (.ok (), after) := by
  obtain ⟨after, done⟩ := recreate_shelf
  have same : Database.reached circle .drop circleArtists = Database.reached shelf .drop ⟨artistTable, [albums]⟩ :=
    circle_reached.trans shelf_reach.symm
  refine ⟨after, ?_⟩
  show (Database.atomically (Database.alignAll .drop (Database.reached circle .drop circleArtists))).run _ = _
  rw [same]
  exact done

theorem reconcile_traverses_circle : circle.Describes ⟨0, by decide⟩ circleArtists ∧
    Database.Sound true shelfDatabase ∧ circle.WellSpelled shelfDatabase.engine.store.content ∧
    ∃ after order, (Database.reconcile circle .drop circleArtists).run shelfDatabase = (.ok (), after) ∧
      circle.Traversed .drop ⟨0, by decide⟩ circleArtists order shelfDatabase.engine.store.content
        after.engine.store.content ∧ order.map Descriptor.table = [artistTable, albumTable] := by
  have describes : circle.Describes ⟨0, by decide⟩ circleArtists := ⟨[], rfl⟩
  obtain ⟨after, done⟩ := recreate_circle
  obtain ⟨_, order, _, _, -, -, traversed⟩ := (Database.reconcile_traverses circle .drop circleArtists).2.2 true _
    shelfDatabase after describes shelf_sound circle_wellSpelled done
  refine ⟨describes, shelf_sound, circle_wellSpelled, after, order, done, traversed, ?_⟩
  obtain ⟨_, preorder⟩ := traversed.preorder
  exact List.map_injective_iff.2 (fun _ _ => Except.ok.inj) (preorder.reached.symm.trans circle_reached)

end Circle

end RecordMapper
