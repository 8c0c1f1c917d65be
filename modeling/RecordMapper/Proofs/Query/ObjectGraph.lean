import RecordMapper.Proofs.Hydration.Loading
import RecordMapper.Proofs.Query.Built
import RecordMapper.Proofs.Query.Identity
import RecordMapper.Proofs.Query.Running

namespace RecordMapper

open RecordMapper.Store

variable {g : ShapeGraph} {s : Fin g.size} {q : Query g s} {c : Content}

def Combination.child? (k : Combination) (position : Nat) : Option StoredRow :=
  k.matched[position]?.map Match.child

def Plan.IsChild (p : Plan) (c : Content) (row : StoredRow) (position : Nat) (child : StoredRow) : Prop :=
  ∃ k : Combination, k.Satisfies c p ∧ k.root = row ∧ k.child? position = some child

/-- The child rows that the root rows of one identity are combined with. -/
def Plan.IsKin (p : Plan) (c : Content) (row : StoredRow) (position : Nat) (child : StoredRow) : Prop :=
  ∃ k : Combination, k.Satisfies c p ∧
    p.root.identityKey (c.valuesOf p.root k.root) = p.root.identityKey (c.valuesOf p.root row) ∧
    k.child? position = some child

def Children.Holds (c : Content) (t : Table) (rows : List StoredRow) (children : Children g) : Prop :=
  List.Forall₂ (fun row record => t.read (g.shape children.child).read (c.valuesOf t row) = .ok record) rows
    children.records

/-- A record is that of a root row, and each joined relation has a child row of each identity that there is among the
    child rows of the root rows of its own identity. -/
structure Loaded.Gathers (c : Content) (q : Query g s) (row : StoredRow) (l : Loaded g s) : Prop where
  record : q.plan.root.read (g.shape s).read (c.valuesOf q.plan.root row) = .ok l.record
  names : l.relations.map Prod.fst = q.plan.joins.map Join.relation
  relations : ∀ position join, q.plan.joins[position]? = some join →
    ∃ children rows, l.relations[position]? = some (join.relation, children) ∧
      (g.shape s).relation? join.relation = some ⟨join.relation, children.child⟩ ∧
      c.Represents join.child (q.plan.IsKin c row position) rows ∧ children.Holds c join.child rows

/-- A record is that of a root row: the joined relations, and no others, have the child rows of the row's
    combinations, each once. -/
structure Loaded.Shows (c : Content) (q : Query g s) (row : StoredRow) (l : Loaded g s) : Prop where
  record : q.plan.root.read (g.shape s).read (c.valuesOf q.plan.root row) = .ok l.record
  names : l.relations.map Prod.fst = q.plan.joins.map Join.relation
  relations : ∀ position join, q.plan.joins[position]? = some join →
    ∃ children rows, l.relations[position]? = some (join.relation, children) ∧
      (g.shape s).relation? join.relation = some ⟨join.relation, children.child⟩ ∧
      rows.Nodup ∧ (∀ child, child ∈ rows ↔ q.plan.IsChild c row position child) ∧
      children.Holds c join.child rows

section Spans

variable {p : Plan} {k : Combination}

theorem Combination.Satisfies.child_stored (satisfies : k.Satisfies c p) {position : Nat} {join : Join}
    (here : p.joins[position]? = some join) :
    ∃ row, k.child? position = some row ∧ row ∈ (c.stored join.child).rows := by
  obtain ⟨m, found, links⟩ := forall₂_getElem? satisfies.linked here
  exact ⟨m.child, by rw [Combination.child?, found]; rfl, links.1⟩

theorem Combination.Satisfies.part {loaders : List (Loader g.size)} (satisfies : k.Satisfies c p)
    (loads : List.Forall₂ Loader.Loads loaders p.joins) {position : Nat} {span : Loader g.size × Nat}
    (here : (Hydration.spans p.root.width loaders)[position]? = some span) {row : StoredRow}
    (child : k.child? position = some row) :
    part (k.row c p) span.2 span.1.table.width = c.valuesOf span.1.table row := by
  obtain ⟨-, -, spans⟩ := Combination.parts_row loads satisfies.linked
  obtain ⟨m, found, values⟩ := forall₂_getElem? spans here
  rw [Combination.child?, found] at child
  obtain rfl := Option.some.inj child
  exact values

theorem Combination.Satisfies.rootKey {loaders : List (Loader g.size)} (satisfies : k.Satisfies c p)
    (loads : List.Forall₂ Loader.Loads loaders p.joins) :
    Hydration.rootKey p.root (k.row c p) = p.root.identityKey (c.valuesOf p.root k.root) := by
  rw [Hydration.rootKey, (Combination.parts_row loads satisfies.linked).2.1]

end Spans

section Graph

variable {all : List Combination} {k : Combination} {l : Loaded g s}

theorem mem_sharing (fits : q.Fits) (satisfy : ∀ k, k ∈ all ↔ k.Satisfies c q.plan) (known : k ∈ all)
    (other : Combination) :
    other ∈ all.filter (fun other => Hydration.rootKey q.plan.root (other.row c q.plan) =
      Hydration.rootKey q.plan.root (k.row c q.plan)) ↔ other.Satisfies c q.plan ∧
        q.plan.root.identityKey (c.valuesOf q.plan.root other.root) =
          q.plan.root.identityKey (c.valuesOf q.plan.root k.root) := by
  have mine := (satisfy k).1 known
  rw [List.mem_filter, satisfy]
  refine and_congr_right fun satisfies => ?_
  rw [decide_eq_true_iff, satisfies.rootKey fits.loads, mine.rootKey fits.loads]

theorem Loader.Reads.names {spans : List (Loader g.size × Nat)} {parts : Loader g.size × Nat → List (List Value)}
    {entries : List (String × Children g)}
    (reads : List.Forall₂ (fun span entry => Loader.Reads span.1 (parts span) entry) spans entries) :
    entries.map Prod.fst = spans.map fun span => span.1.relation := by
  induction reads with
  | nil => rfl
  | cons read rest ih =>
    obtain ⟨records, -, rfl⟩ := read
    rw [List.map_cons, List.map_cons, ih]

theorem Loader.Reads.children {mine : List Combination} {row : StoredRow} {position : Nat} {join : Join}
    {span : Loader g.size × Nat} {entry : String × Children g} (fits : q.Fits)
    (share : ∀ k, k ∈ mine ↔ k.Satisfies c q.plan ∧ q.plan.root.identityKey (c.valuesOf q.plan.root k.root) =
      q.plan.root.identityKey (c.valuesOf q.plan.root row))
    (here : q.plan.joins[position]? = some join)
    (at' : (Hydration.spans q.plan.root.width q.loaders)[position]? = some span) (table : span.1.table = join.child)
    (read : Loader.Reads span.1 (RecordMapper.firsts span.1.table.identityKey
      (Hydration.childParts (mine.map fun k => k.row c q.plan) span)) entry) :
    entry.1 = span.1.relation ∧ entry.2.child = span.1.child ∧
      ∃ rows, c.Represents join.child (q.plan.IsKin c row position) rows ∧ entry.2.Holds c join.child rows := by
  obtain ⟨records, read, rfl⟩ := read
  let childOf (k : Combination) : StoredRow := (k.child? position).getD ⟨0, []⟩
  have child : ∀ k ∈ mine, k.child? position = some (childOf k) := by
    intro k member
    obtain ⟨row, found, -⟩ := ((share k).1 member).1.child_stored here
    simp only [childOf, found, Option.getD_some]
  have values : ∀ k ∈ mine, part (k.row c q.plan) span.2 join.child.width = c.valuesOf join.child (childOf k) := by
    intro k member
    have held := ((share k).1 member).1.part fits.loads at' (child k member)
    rwa [table] at held
  have kin : ∀ child, q.plan.IsKin c row position child ↔ ∃ k ∈ mine, childOf k = child := by
    intro row'
    constructor
    · rintro ⟨k, satisfies, root, found⟩
      have member := (share k).2 ⟨satisfies, root⟩
      exact ⟨k, member, Option.some.inj ((child k member).symm.trans found)⟩
    · rintro ⟨k, member, rfl⟩
      obtain ⟨satisfies, root⟩ := (share k).1 member
      exact ⟨k, satisfies, root, child k member⟩
  have represents := represents_firsts (fun k member => congrArg join.child.identityKey (values k member)) kin
  rw [Hydration.childParts, List.map_map, firsts_map, table, mapM_eq_ok] at read
  have parts := List.map_congr_left fun k member => values k (mem_of_mem_firsts
    (fun k => join.child.identityKey (part (k.row c q.plan) span.2 join.child.width)) member)
  refine ⟨rfl, rfl, _, represents, ?_⟩
  simp only [Function.comp_def] at read
  rw [parts, List.forall₂_map_left_iff] at read
  exact List.forall₂_map_left_iff.2 read

theorem Hydration.Group.Read.gathers (fits : q.Fits) (satisfy : ∀ k, k ∈ all ↔ k.Satisfies c q.plan) (known : k ∈ all)
    (read : Hydration.Group.Read q.plan.root q.loaders
      ((all.map fun k => k.row c q.plan).filter fun row => Hydration.rootKey q.plan.root row =
        Hydration.rootKey q.plan.root (k.row c q.plan)) (k.row c q.plan) l) : l.Gathers c q k.root := by
  have mine := (satisfy k).1 known
  have share := mem_sharing fits satisfy known
  obtain ⟨record, relations⟩ := read
  rw [List.filter_map] at relations
  refine ⟨?_, ?_, ?_⟩
  · rw [← record, (Combination.parts_row fits.loads mine.linked).2.1]
  · have loaders := congrArg (List.map Loader.relation) (Hydration.map_spans q.plan.root.width q.loaders)
    rw [List.map_map] at loaders
    rw [Loader.Reads.names relations, ← fits.relation_names, ← loaders]
    rfl
  · intro position join here
    obtain ⟨loader, loaded, loads⟩ := forall₂_getElem? fits.loads.flip here
    have place := congrArg (·[position]?) (Hydration.map_spans q.plan.root.width q.loaders)
    simp only [loaded, List.getElem?_map, Option.map_eq_some_iff] at place
    obtain ⟨span, at', rfl⟩ := place
    obtain ⟨entry, found, read⟩ := forall₂_getElem? relations at'
    obtain ⟨name, shape, rows, represents, holds⟩ := read.children fits share here at' loads.table
    have known := fits.known span.1 (List.mem_of_getElem? loaded)
    refine ⟨entry.2, rows, ?_, ?_, represents, holds⟩
    · rw [found, ← loads.relation, ← name]
    · rw [← loads.relation, known.declared, shape]

/-- A joined query has a record for each identity of the root rows that take part in a combination. -/
theorem Database.select_gathers (q : Query g s) (built : q.Built) (joined : q.plan.joins ≠ []) (db : Database)
    (records : List (Loaded g s)) (selected : ((Database.select q).run db).1 = .ok records) :
    ∃ rows all, db.engine.store.content.Represents q.plan.root
        (fun row => ∃ k : Combination, k.Satisfies db.engine.store.content q.plan ∧ k.root = row) rows ∧
      List.Forall₂ (fun row l => l.Gathers db.engine.store.content q row) rows all ∧
      records = match q.plan.heldPaging? with
        | some paging => paging.apply all
        | none => all := by
  have fits := built.fits
  have loading : q.loaders.isEmpty = false := by
    rw [fits.loaders_isEmpty, List.isEmpty_eq_false_iff]
    exact joined
  obtain ⟨rows, order, hydration, read, compiled, taken, finished, held⟩ := select_joined_eq_ok loading selected
  have window : windowOf q = none := by
    rw [windowOf, if_neg (by simpa using joined)]
  obtain ⟨all, satisfy, selection⟩ := exists_combinations order compiled
  rw [window, selection] at taken
  have widths : ∀ row ∈ all.map (fun k => k.row db.engine.store.content q.plan),
      row.length = Hydration.widthFrom q.plan.root.width q.loaders := by
    intro row member
    obtain ⟨k, known, rfl⟩ := List.mem_map.1 member
    exact (Combination.parts_row fits.loads ((satisfy k).1 known).linked).1
  have groups := Hydration.finish_taken fits.relations widths taken finished
  have roots (row : StoredRow) : (∃ k : Combination, k.Satisfies db.engine.store.content q.plan ∧ k.root = row) ↔
      ∃ k ∈ all, k.root = row := exists_congr fun k => and_congr_left fun _ => (satisfy k).symm
  refine ⟨_, read, represents_firsts (fun k known => ((satisfy k).1 known).rootKey fits.loads) roots, ?_, held⟩
  rw [firsts_map, List.forall₂_map_left_iff] at groups
  have known := (List.forall₂_and_left _ _).2 ⟨fun k member => mem_of_mem_firsts _ member, groups⟩
  rw [List.forall₂_map_left_iff]
  exact known.imp fun k l both => both.2.gathers fits satisfy both.1

theorem Plan.IsChild.stored {p : Plan} {row child : StoredRow} {position : Nat} {join : Join}
    (isChild : p.IsChild c row position child) (here : p.joins[position]? = some join) :
    child ∈ (c.stored join.child).rows := by
  obtain ⟨k, satisfies, -, found⟩ := isChild
  obtain ⟨own, found', stored⟩ := satisfies.child_stored here
  rwa [Option.some.inj (found.symm.trans found')]

theorem Loaded.Gathers.shows {row : StoredRow} (gathers : l.Gathers c q row)
    (keyed : ∀ t, t = q.plan.root ∨ t ∈ q.plan.joins.map Join.child → Keyed c t)
    (root : row ∈ (c.stored q.plan.root).rows) : l.Shows c q row := by
  refine ⟨gathers.record, gathers.names, ?_⟩
  intro position join here
  have own := keyed join.child (.inr (List.mem_map_of_mem (List.mem_of_getElem? here)))
  obtain ⟨children, rows, found, shape, represents, holds⟩ := gathers.relations position join here
  have kin (child : StoredRow) : q.plan.IsKin c row position child ↔ q.plan.IsChild c row position child := by
    refine exists_congr fun k => and_congr_right fun satisfies => and_congr_left fun _ => ?_
    constructor
    · exact List.inj_on_of_nodup_map (keyed _ (.inl rfl)).nodup_identities satisfies.root root
    · exact fun same => by rw [same]
  refine ⟨children, rows, found, shape, represents.nodup, ?_, holds⟩
  intro child
  rw [own.mem_iff represents fun child isKin => ((kin child).1 isKin).stored here, kin]

/-- A joined query over tables with keys gives the object graph: a record for every root row that takes part in a
    combination, with the child rows of its combinations. -/
theorem Database.select_object_graph (q : Query g s) (built : q.Built) (joined : q.plan.joins ≠ [])
    (unpaged : q.plan.paging = none) (db : Database)
    (keyed : ∀ t, t = q.plan.root ∨ t ∈ q.plan.joins.map Join.child → Keyed db.engine.store.content t)
    (records : List (Loaded g s)) (selected : ((Database.select q).run db).1 = .ok records) :
    ∃ rows : List StoredRow, rows.Nodup ∧
      (∀ row, row ∈ rows ↔ ∃ k : Combination, k.Satisfies db.engine.store.content q.plan ∧ k.root = row) ∧
      List.Forall₂ (fun row l => l.Shows db.engine.store.content q row) rows records := by
  obtain ⟨rows, all, represents, gathers, held⟩ := select_gathers q built joined db records selected
  have whole : q.plan.heldPaging? = none := by
    rw [Plan.heldPaging?, unpaged]
    split <;> rfl
  rw [whole] at held
  subst held
  have stored : ∀ row, (∃ k : Combination, k.Satisfies db.engine.store.content q.plan ∧ k.root = row) →
      row ∈ (db.engine.store.content.stored q.plan.root).rows := by
    rintro row ⟨k, satisfies, rfl⟩
    exact satisfies.root
  refine ⟨rows, represents.nodup, (keyed _ (.inl rfl)).mem_iff represents stored, ?_⟩
  have known := (List.forall₂_and_left _ _).2 ⟨represents.sound, gathers⟩
  exact known.imp fun row l both => both.2.shows keyed (stored row both.1)

end Graph

section Shelf

def shelf : ShapeGraph where
  size := 2
  shape
    | 0 => .ofFields "Artist" "artist" [] [⟨"id", .column ⟨.int64, false⟩⟩, ⟨"albums", .toMany 1⟩]
    | 1 => .ofFields "Album" "album" [] [⟨"id", .column ⟨.int64, false⟩⟩, ⟨"artist", .column ⟨.int64, false⟩⟩]

def artists : Fin shelf.size := ⟨0, by decide⟩

def artistTable : Table := ⟨"artist", [⟨"id", .integer, false, true⟩], by decide⟩

def albumTable : Table := ⟨"album", [⟨"id", .integer, false, true⟩, ⟨"artist", .integer, false, false⟩], by decide⟩

def albums : Relation shelf.size := ⟨"albums", ⟨1, by decide⟩⟩

def artistsWithAlbums : Query shelf artists :=
  ⟨⟨artistTable, [⟨"albums", albumTable, .direct "id" "artist"⟩], none, [], none⟩, [⟨"albums", albums.child, albumTable, 0⟩]⟩

def shelfContent : Content :=
  ⟨[⟨"artist", [⟨"id", "INTEGER", true, 1, none⟩], [⟨1, [.integer 1]⟩, ⟨2, [.integer 2]⟩]⟩,
    ⟨"album", [⟨"id", "INTEGER", true, 1, none⟩, ⟨"artist", "INTEGER", true, 0, none⟩],
      [⟨5, [.integer 5, .integer 1]⟩, ⟨7, [.integer 7, .integer 1]⟩]⟩], []⟩

def shelfDatabase : Database :=
  .opened ⟨⟨⟨shelfContent, 0, none⟩, .make 0 true shelfContent⟩, .collecting⟩

theorem artistsWithAlbums_built : artistsWithAlbums.Built := by
  have described : (shelf.shape artists).descriptor = .ok ⟨artistTable, [albums]⟩ := rfl
  have joined : (Query.ofTable artistTable).join albums "id" "artist" = .ok artistsWithAlbums := rfl
  exact .join (.table described) rfl joined

theorem shelf_keyed (t : Table)
    (member : t = artistsWithAlbums.plan.root ∨ t ∈ artistsWithAlbums.plan.joins.map Join.child) :
    Keyed shelfContent t := by
  rcases member with rfl | child
  · exact ⟨by decide, by decide, by decide, by decide⟩
  · rw [List.mem_singleton.1 child]
    exact ⟨by decide, by decide, by decide, by decide⟩

def albumsCommand : Sql.Command :=
  .select [⟨"t0", "id"⟩, ⟨"t1", "id"⟩, ⟨"t1", "artist"⟩]
    ⟨⟨"artist", "t0"⟩, [⟨⟨"album", "t1"⟩, ⟨"t0", "id"⟩, ⟨"t1", "artist"⟩⟩], none⟩ [] none

theorem albumsCommand_text : albumsCommand.text = "SELECT t0.\"id\" AS \"t0.id\", t1.\"id\" AS \"t1.id\", " ++
    "t1.\"artist\" AS \"t1.artist\" FROM \"artist\" AS t0 JOIN \"album\" AS t1 ON t0.\"id\" = t1.\"artist\"" := by
  decide +kernel

theorem albumsCommand_readable : shelfDatabase.engine.Readable albumsCommand := by
  have ready := Engine.ready_of_text albumsCommand_text (by decide +kernel) (by decide +kernel)
  exact ⟨rfl, fun _ => rfl, ready.1, ready.2, rfl, rfl, rfl⟩

theorem mergeSort_unordered (all : List Bindings) : all.mergeSort (inOrder []) = all :=
  List.mergeSort_of_pairwise (List.pairwise_of_forall fun _ _ => rfl)

theorem albumsCommand_rows : rowsOf shelfContent albumsCommand =
    given [[.integer 1, .integer 5, .integer 1], [.integer 1, .integer 7, .integer 1]] := by
  simp only [rowsOf, albumsCommand, Store.select, mergeSort_unordered, windowed]
  rfl

theorem select_object_graph_shelf : artistsWithAlbums.Built ∧ artistsWithAlbums.plan.joins ≠ [] ∧
    artistsWithAlbums.plan.paging = none ∧
    (∀ t, t = artistsWithAlbums.plan.root ∨ t ∈ artistsWithAlbums.plan.joins.map Join.child →
      Keyed shelfDatabase.engine.store.content t) ∧
    ∃ records, ((Database.select artistsWithAlbums).run shelfDatabase).1 = .ok records ∧ records.length = 1 ∧
      ∃ rows : List StoredRow, rows.Nodup ∧
        (∀ row, row ∈ rows ↔ ∃ k : Combination,
          k.Satisfies shelfDatabase.engine.store.content artistsWithAlbums.plan ∧ k.root = row) ∧
        List.Forall₂ (fun row l => l.Shows shelfDatabase.engine.store.content artistsWithAlbums row) rows records := by
  have made : artistsWithAlbums.selectStatement = .ok albumsCommand.statement := rfl
  have selected := Database.select_joined_runs rfl made albumsCommand_readable albumsCommand_rows rfl rfl
  exact ⟨artistsWithAlbums_built, List.cons_ne_nil _ _, rfl, shelf_keyed, _, selected, rfl,
    Database.select_object_graph artistsWithAlbums artistsWithAlbums_built (List.cons_ne_nil _ _) rfl shelfDatabase
      shelf_keyed _ selected⟩

end Shelf

end RecordMapper
