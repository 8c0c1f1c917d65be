import RecordMapper.Proofs.Query.Columns
import RecordMapper.Proofs.Query.ObjectGraph
import RecordMapper.Proofs.Query.Paging

namespace RecordMapper

open RecordMapper.Store

section Identities

variable {c : Content} {t : Table} {a b : StoredRow}

def Table.identityNames (t : Table) : List String :=
  if t.keyColumns.isEmpty then t.columnNames else t.keyNames

theorem Table.identity_valuesOf (t : Table) (row : StoredRow) :
    t.identity (c.valuesOf t row) = t.identityNames.map fun name => (c.cell t row name).value := by
  by_cases keyless : t.keyColumns = []
  · rw [identity_keyless keyless, identityNames, keyless]
    rfl
  · rw [Content.valuesOf, identity_keyed keyless, identityNames, if_neg]
    rwa [List.isEmpty_iff]

theorem Table.exists_identityColumn {name : String} (known : name ∈ t.identityNames) :
    ∃ column ∈ t.columns, column.name = name := by
  unfold identityNames at known
  split at known
  · exact List.mem_map.1 known
  · obtain ⟨column, key, same⟩ := List.mem_map.1 known
    exact ⟨column, (List.mem_filter.1 key).1, same⟩

/-- A row whose identity has null or values of the columns' classes. -/
def Store.Content.Classed (c : Content) (t : Table) (row : StoredRow) : Prop :=
  ∀ column ∈ t.columns, column.name ∈ t.identityNames →
    (c.cell t row column.name).value = .null ∨
      (c.cell t row column.name).value.storageClass = column.dataType.storageClass

theorem Store.Content.Classed.of_identityKey (classed : c.Classed t b)
    (same : t.identityKey (c.valuesOf t a) = t.identityKey (c.valuesOf t b)) : c.Classed t a := by
  intro column listed known
  have all := same
  rw [Table.identityKey, Table.identityKey, Table.identity_valuesOf, Table.identity_valuesOf, List.map_map,
    List.map_map] at all
  have normal : (c.cell t a column.name).value.normal = (c.cell t b column.name).value.normal :=
    List.map_inj_left.1 all column.name known
  have kept : ∀ v : Value, v.normal.storageClass = v.storageClass := by
    intro v
    cases v <;> rfl
  rw [← normal_eq_null, ← kept, normal, normal_eq_null, kept]
  exact classed column listed known

theorem Store.Content.Conforms.alike (conforms : c.Conforms t) (first : a ∈ (c.stored t).rows)
    (second : b ∈ (c.stored t).rows) (classed : c.Classed t a) (classed' : c.Classed t b) :
    List.Forall₂ Alike (t.identity (c.valuesOf t a)) (t.identity (c.valuesOf t b)) := by
  rw [Table.identity_valuesOf, Table.identity_valuesOf, List.forall₂_map_left_iff, List.forall₂_map_right_iff,
    List.forall₂_same]
  intro name known
  obtain ⟨column, listed, rfl⟩ := Table.exists_identityColumn known
  refine ⟨?_, ?_, ?_⟩
  · exact Affinity.admitted_of_stored (conforms.stored_value first listed)
  · exact Affinity.admitted_of_stored (conforms.stored_value second listed)
  · intro given given'
    have mine := (classed column listed known).resolve_left given
    have other := (classed' column listed known).resolve_left given'
    rw [mine, other]

theorem Store.Content.Conforms.sameValues_identity (conforms : c.Conforms t) (first : a ∈ (c.stored t).rows)
    (second : b ∈ (c.stored t).rows) (classed : c.Classed t a) (classed' : c.Classed t b) :
    sameValues (t.identity (c.valuesOf t a)) (t.identity (c.valuesOf t b)) = true ↔
      t.identityKey (c.valuesOf t a) = t.identityKey (c.valuesOf t b) := by
  constructor
  · exact normal_of_sameValues (conforms.alike first second classed classed')
  · exact sameValues_of_normal

end Identities

section Bindings

variable {c : Content} {p : Plan} {k : Combination}

theorem Combination.values_identityColumns (c : Content) (p : Plan) (k : Combination) :
    p.identityColumns.map (Bindings.value ((k.placed c p).map Placed.binding)) =
      p.root.identity (c.valuesOf p.root k.root) := by
  rw [Table.identity_valuesOf, Plan.identityColumns, List.map_map]
  refine List.map_congr_left fun name _ => ?_
  have found : Bindings.cell ((k.placed c p).map Placed.binding) ⟨Sql.rootLabel, name⟩ = c.cell p.root k.root name :=
    cell_of_find? (List.find?_cons_of_pos (beq_self_eq_true Sql.rootLabel))
  exact congrArg Cell.value found

theorem length_combinations {rows : Sql.Rows} (compiled : p.rows = .ok rows) (unjoined : p.joins = []) :
    (combinations c rows).length ≤ (c.stored p.root).rows.length := by
  simp only [Plan.rows, bind_eq_ok, pure_eq_ok] at compiled
  obtain ⟨condition, -, rfl⟩ := compiled
  unfold combinations linkedRows Content.stored
  rw [unjoined, rootSource]
  rcases c.table? p.root.name with _ | t
  · exact Nat.zero_le _
  · have kept := List.length_filter_le (fun b => keeps b condition)
      ((bindingsOf ⟨p.root.name, Sql.rootLabel⟩ t).map fun e => [e])
    rwa [List.length_map, bindingsOf, List.length_map] at kept

end Bindings

namespace Database

variable {g : ShapeGraph} {s : Fin g.size} {q : Query g s} {c : Content} {rows : Sql.Rows}

def unordered (c : Content) (q : Query g s) (rows : Sql.Rows) : List (List Value) :=
  (combinations c rows).map fun b => q.plan.scope.columns.map b.value

theorem select_perm (order : List Sql.OrderTerm) :
    (Store.select c q.plan.scope.columns rows order none).Perm (unordered c q rows) :=
  (List.mergeSort_perm _ _).map _

theorem exists_combination (fits : q.Fits) (compiled : q.plan.rows = .ok rows) {b : Bindings}
    (member : b ∈ combinations c rows) :
    ∃ row ∈ (c.stored q.plan.root).rows,
      part (q.plan.scope.columns.map b.value) 0 q.plan.root.width = c.valuesOf q.plan.root row ∧
      q.plan.identityColumns.map b.value = q.plan.root.identity (c.valuesOf q.plan.root row) ∧
      (q.plan.scope.columns.map b.value).length = Hydration.widthFrom q.plan.root.width q.loaders := by
  obtain ⟨k, satisfies, rfl⟩ := (mem_combinations compiled).1 member
  obtain ⟨width, root, -⟩ := Combination.parts_row fits.loads satisfies.linked
  rw [Combination.values_row satisfies.linked]
  exact ⟨k.root, satisfies.root, root, Combination.values_identityColumns c q.plan k, width⟩

theorem classed_of_groups {key : List String} {d : Descriptor g.size} {ordered others : List (List Value)}
    {records : List (Loaded g s)} (root : q.plan.root = d.table)
    (described : (g.shape s).descriptorKeyedBy key = .ok d) (reads : (g.shape s).ReadsColumns)
    (conforms : c.Conforms q.plan.root)
    (stored : ∀ values ∈ ordered, ∃ row ∈ (c.stored q.plan.root).rows,
      part values 0 q.plan.root.width = c.valuesOf q.plan.root row)
    (groups : List.Forall₂ (fun first l => Hydration.Group.Read q.plan.root q.loaders
      (others.filter fun row => Hydration.rootKey q.plan.root row = Hydration.rootKey q.plan.root first) first l)
      (firsts (Hydration.rootKey q.plan.root) ordered) records)
    {values : List Value} (member : values ∈ ordered) {row : StoredRow}
    (held : part values 0 q.plan.root.width = c.valuesOf q.plan.root row) : c.Classed q.plan.root row := by
  obtain ⟨first, kept, same⟩ := exists_first (Hydration.rootKey q.plan.root) member
  obtain ⟨firstRow, known, firstHeld⟩ := stored first (mem_of_mem_firsts _ kept)
  obtain ⟨position, inside, at'⟩ := List.mem_iff_getElem.1 kept
  obtain ⟨l, -, read⟩ := forall₂_getElem? groups (List.getElem?_eq_some_iff.2 ⟨inside, at'⟩)
  -- Only the first row of an identity is decoded. The others have its key, and a key tells the classes.
  have record := read.record
  rw [firstHeld] at record
  have classed : c.Classed q.plan.root firstRow := by
    intro column listed _
    rw [root] at conforms known record listed ⊢
    exact class_of_read conforms described reads known record listed
  apply classed.of_identityKey
  rw [Hydration.rootKey, Hydration.rootKey, held, firstHeld] at same
  exact same.symm

theorem length_distinct_identities {ordered : List (List Value)} (fits : q.Fits) (compiled : q.plan.rows = .ok rows)
    (conforms : c.Conforms q.plan.root) (perm : ordered.Perm (unordered c q rows))
    (classed : ∀ values ∈ ordered, ∀ row, part values 0 q.plan.root.width = c.valuesOf q.plan.root row →
      c.Classed q.plan.root row) :
    (distinctRows ((combinations c rows).map fun b => q.plan.identityColumns.map b.value)).length =
        (firsts (Hydration.rootKey q.plan.root) ordered).length ∧
      (firsts (Hydration.rootKey q.plan.root) ordered).length ≤ (c.stored q.plan.root).rows.length := by
  have keys : (ordered.map (Hydration.rootKey q.plan.root)).Perm
      (((combinations c rows).map fun b => q.plan.identityColumns.map b.value).map fun row => row.map Value.normal) := by
    have same : (unordered c q rows).map (Hydration.rootKey q.plan.root) =
        ((combinations c rows).map fun b => q.plan.identityColumns.map b.value).map fun row => row.map Value.normal := by
      rw [unordered, List.map_map, List.map_map]
      refine List.map_congr_left fun b member => ?_
      obtain ⟨row, -, held, identity, -⟩ := exists_combination fits compiled member
      simp only [Function.comp_apply, Hydration.rootKey, held, identity, Table.identityKey]
    exact same ▸ perm.map _
  have mine : ∀ b ∈ combinations c rows, ∃ row ∈ (c.stored q.plan.root).rows, c.Classed q.plan.root row ∧
      q.plan.identityColumns.map b.value = q.plan.root.identity (c.valuesOf q.plan.root row) := by
    intro b member
    obtain ⟨row, known, held, identity, -⟩ := exists_combination fits compiled member
    have listed : q.plan.scope.columns.map b.value ∈ ordered := perm.mem_iff.2 (List.mem_map.2 ⟨b, member, rfl⟩)
    exact ⟨row, known, classed _ listed row held, identity⟩
  constructor
  -- Rows are told apart by their keys here and by SQL equality there, which agree on rows of one class.
  · rw [length_firsts, keys.dedup.length_eq]
    apply length_distinctRows
    intro x first y second
    obtain ⟨b, member, rfl⟩ := List.mem_map.1 first
    obtain ⟨b', member', rfl⟩ := List.mem_map.1 second
    obtain ⟨row, known, fine, identity⟩ := mine b member
    obtain ⟨row', known', fine', identity'⟩ := mine b' member'
    rw [identity, identity']
    exact conforms.sameValues_identity known known' fine fine'
  · have covered : (ordered.map (Hydration.rootKey q.plan.root)).dedup ⊆
        (c.stored q.plan.root).rows.map fun row => q.plan.root.identityKey (c.valuesOf q.plan.root row) := by
      intro key member
      rw [List.mem_dedup, keys.mem_iff, List.map_map] at member
      obtain ⟨b, known, rfl⟩ := List.mem_map.1 member
      obtain ⟨row, stored, -, identity⟩ := mine b known
      exact List.mem_map.2 ⟨row, stored, by rw [Function.comp_apply, identity]; rfl⟩
    have short := List.Nodup.length_le_of_subset (List.nodup_dedup _) covered
    rwa [← length_firsts, List.length_map] at short

theorem numberOf_unjoined {order : List Sql.OrderTerm} {records : List (Loaded g s)} (unjoined : q.plan.joins = [])
    (compiled : q.plan.rows = .ok rows)
    (read : (Store.select c q.plan.scope.columns rows order (windowOf q)).mapM (Loaded.readOne g s q.plan.root) =
      .ok records) :
    numberOf c q rows = records.length ∧ numberOf c q rows ≤ (c.stored q.plan.root).rows.length := by
  have ordered : ((combinations c rows).mergeSort (inOrder order)).length = (combinations c rows).length :=
    List.length_mergeSort _
  have number : numberOf c q rows = (windowed (windowOf q) (combinations c rows)).length := by
    rw [windowOf, numberOf, unjoined]
    simp only [List.isEmpty_nil, if_true]
    rcases q.plan.paging with _ | paging
    · rfl
    · rfl
  have one : (Store.select c q.plan.scope.columns rows order (windowOf q)).length = records.length :=
    (mapM_eq_ok.1 read).length_eq
  rw [number, ← one, Store.select, List.length_map]
  refine ⟨(length_windowed_congr _ ordered).symm, ?_⟩
  exact Nat.le_trans (length_windowed_le _ _) (length_combinations compiled unjoined)

theorem numberOf_joined {order : List Sql.OrderTerm} {hydration : Hydration g.size} {records : List (Loaded g s)}
    (fits : q.Fits) (reads : (g.shape s).ReadsColumns) (conforms : c.Conforms q.plan.root)
    (few : (c.stored q.plan.root).rows.length < 2 ^ 63) (joined : q.plan.joins ≠ [])
    (compiled : q.plan.rows = .ok rows)
    (taken : (Store.select c q.plan.scope.columns rows order none).foldlM Hydration.taking
      (Hydration.empty q.plan.root q.loaders) = .ok hydration)
    (finished : hydration.finish = .ok records) :
    numberOf c q rows =
        (match q.plan.heldPaging? with
          | some paging => paging.apply records
          | none => records).length ∧
      numberOf c q rows ≤ (c.stored q.plan.root).rows.length := by
  have perm : (Store.select c q.plan.scope.columns rows order none).Perm (unordered c q rows) := select_perm order
  have stored : ∀ values ∈ Store.select c q.plan.scope.columns rows order none,
      ∃ row ∈ (c.stored q.plan.root).rows, part values 0 q.plan.root.width = c.valuesOf q.plan.root row ∧
        values.length = Hydration.widthFrom q.plan.root.width q.loaders := by
    intro values member
    obtain ⟨b, known, rfl⟩ := List.mem_map.1 (perm.mem_iff.1 member)
    obtain ⟨row, kept, held, -, width⟩ := exists_combination fits compiled known
    exact ⟨row, kept, held, width⟩
  have widths : ∀ values ∈ Store.select c q.plan.scope.columns rows order none,
      values.length = Hydration.widthFrom q.plan.root.width q.loaders := by
    intro values member
    obtain ⟨row, -, -, width⟩ := stored values member
    exact width
  have groups := Hydration.finish_taken fits.relations widths taken finished
  obtain ⟨key, d, described, root⟩ := fits.root
  have classed : ∀ values ∈ Store.select c q.plan.scope.columns rows order none, ∀ row,
      part values 0 q.plan.root.width = c.valuesOf q.plan.root row → c.Classed q.plan.root row := by
    intro values member row held
    exact classed_of_groups root described reads conforms
      (fun values member => (stored values member).imp fun row both => ⟨both.1, both.2.1⟩) groups member held
  obtain ⟨distinct, bound⟩ := length_distinct_identities fits compiled conforms perm classed
  have some' : ¬q.plan.joins.isEmpty = true := by simpa using joined
  rw [numberOf, if_neg some', Plan.heldPaging?, if_neg some']
  constructor
  · have long := distinct.trans groups.length_eq
    rcases q.plan.paging with _ | paging
    · exact long
    · rw [Option.map_some, countDistinct, windowed_window paging (by omega)]
      exact length_apply_congr paging long
  · exact Nat.le_trans (length_windowed_le _ _) (distinct ▸ bound)

/-- Whenever both succeed, counting gives the number of the records that selecting gives. A table has fewer rows than
    a count can number. -/
theorem count_eq_length (q : Query g s) (built : q.Built) (reads : (g.shape s).ReadsColumns) (db db' : Database)
    (same : db'.engine.store.content = db.engine.store.content)
    (conforms : db.engine.store.content.Conforms q.plan.root)
    (few : (db.engine.store.content.stored q.plan.root).rows.length < 2 ^ 63)
    (records : List (Loaded g s)) (selected : ((select q).run db).1 = .ok records)
    (n : Nat) (counted : ((count q).run db').1 = .ok n) : n = records.length := by
  have fits := built.fits
  obtain ⟨rows, compiled, value⟩ := count_eq_ok counted
  rw [same] at value
  have number : numberOf db.engine.store.content q rows = records.length ∧
      numberOf db.engine.store.content q rows ≤ (db.engine.store.content.stored q.plan.root).rows.length := by
    by_cases joined : q.plan.joins = []
    · have plain : q.loaders.isEmpty = true := by
        rw [fits.loaders_isEmpty, joined]
        rfl
      obtain ⟨rows', order, compiled', read⟩ := select_plain_eq_ok plain selected
      obtain rfl := Except.ok.inj (compiled.symm.trans compiled')
      exact numberOf_unjoined joined compiled read
    · have loading : q.loaders.isEmpty = false := by
        rw [fits.loaders_isEmpty, List.isEmpty_eq_false_iff]
        exact joined
      obtain ⟨rows', order, hydration, all, compiled', taken, finished, held⟩ := select_joined_eq_ok loading selected
      obtain rfl := Except.ok.inj (compiled.symm.trans compiled')
      rw [windowOf, if_neg (by simpa using joined)] at taken
      rw [held]
      exact numberOf_joined fits reads conforms few joined compiled taken finished
  rw [value, Int64.toInt_ofNat_of_lt (Nat.lt_of_le_of_lt number.2 few), Int.toNat_natCast, number.1]

end Database

section Shelf

theorem shelf_conforms : shelfContent.Conforms artistTable where
  columns := by
    intro column listed
    rw [show column = ⟨"id", .integer, false, true⟩ from List.mem_singleton.1 listed]
    exact ⟨⟨"id", "INTEGER", true, 1, none⟩, by decide, by decide⟩
  settled := by
    intro row stored i column here
    cases i with
    | zero =>
      obtain rfl := Option.some.inj here
      rcases List.mem_pair.1 stored with rfl | rfl
      · decide
      · decide
    | succ i => cases here

def pagedArtists : Query shelf artists :=
  artistsWithAlbums.limit 5 0

def identitiesCommand : Sql.Command :=
  .countDistinct [⟨"t0", "id"⟩] ⟨⟨"artist", "t0"⟩, [⟨⟨"album", "t1"⟩, ⟨"t0", "id"⟩, ⟨"t1", "artist"⟩⟩], none⟩
    (some (Paging.window ⟨some 5, 0⟩))

theorem identitiesCommand_text : identitiesCommand.text = "SELECT COUNT(*) FROM (SELECT DISTINCT t0.\"id\" FROM " ++
    "\"artist\" AS t0 JOIN \"album\" AS t1 ON t0.\"id\" = t1.\"artist\" LIMIT ? OFFSET ?)" := by
  decide +kernel

theorem identitiesCommand_readable : shelfDatabase.engine.Readable identitiesCommand := by
  have ready := Engine.ready_of_text identitiesCommand_text (by decide +kernel) (by decide +kernel)
  exact ⟨rfl, fun _ => rfl, ready.1, ready.2, rfl, rfl, rfl⟩

theorem count_eq_length_shelf : pagedArtists.Built ∧ (shelf.shape artists).ReadsColumns ∧
    shelfDatabase.engine.store.content.Conforms pagedArtists.plan.root ∧
    (shelfDatabase.engine.store.content.stored pagedArtists.plan.root).rows.length < 2 ^ 63 ∧
    ∃ records n, ((Database.select pagedArtists).run shelfDatabase).1 = .ok records ∧
      ((Database.count pagedArtists).run shelfDatabase).1 = .ok n ∧ n = 1 ∧ n = records.length := by
  have built : pagedArtists.Built := .limit 5 0 artistsWithAlbums_built
  have reads : (shelf.shape artists).ReadsColumns := Shape.readsColumns_ofFields "Artist" "artist" [] _
  have selected : ((Database.select pagedArtists).run shelfDatabase).1 = .ok _ :=
    Database.select_joined_runs rfl rfl albumsCommand_readable albumsCommand_rows rfl rfl
  have counted : ((Database.count pagedArtists).run shelfDatabase).1 = .ok _ :=
    Database.count_runs rfl identitiesCommand_readable rfl (by decide)
  exact ⟨built, reads, shelf_conforms, by decide, _, _, selected, counted, by decide,
    Database.count_eq_length pagedArtists built reads shelfDatabase shelfDatabase rfl shelf_conforms (by decide)
      _ selected _ counted⟩

end Shelf

end RecordMapper
