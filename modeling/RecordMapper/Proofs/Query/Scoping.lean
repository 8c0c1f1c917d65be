import RecordMapper.Proofs.Predicate.Conjunction
import RecordMapper.Proofs.Query.Layout
import RecordMapper.Proofs.Query.Selecting

namespace RecordMapper

open RecordMapper.Sql

section Sources

def Sql.Rows.sources (r : Rows) : List Source :=
  r.source :: r.links.map Link.source

/-- Each link goes from a label that is known by then to its own, which the links behind it know as well. -/
def LinksInOrder (known : List String) : List Link → Prop
  | [] => True
  | l :: rest =>
    l.left.label ∈ known ∧ l.right.label = l.source.label ∧ LinksInOrder (known ++ [l.source.label]) rest

def Sql.Command.from? : Command → Option Rows
  | .select _ rows _ _ | .count rows | .countWindow rows _ | .countDistinct _ rows _ => some rows
  | _ => none

theorem sources_positioned (start : Nat) (joins : List Join) :
    (positioned Join.links start joins).map (fun l => (l.source.label, l.source.table)) =
      (positioned Join.entries start joins).map fun e => (e.label, e.table.name) := by
  induction joins generalizing start with
  | nil => rfl
  | cons j joins ih =>
    have own : (j.links start).map (fun l => (l.source.label, l.source.table)) =
        (j.entries start).map fun e => (e.label, e.table.name) := by
      rcases j with ⟨relation, child, _ | _⟩ <;> rfl
    rw [positioned, positioned, List.map_append, List.map_append, own, ih]

theorem linksInOrder_positioned {known : List String} (root : rootLabel ∈ known) (start : Nat) (joins : List Join) :
    LinksInOrder known (positioned Join.links start joins) := by
  induction joins generalizing known start with
  | nil => trivial
  | cons j joins ih =>
    rcases j with ⟨relation, child, _ | _⟩
    · exact ⟨root, rfl, ih (List.mem_append_left _ root) _⟩
    · refine ⟨root, rfl, List.mem_append_right _ (List.mem_singleton_self _), rfl, ih ?_ _⟩
      exact List.mem_append_left _ (List.mem_append_left _ root)

end Sources

section References

def Scope.Holds (s : Scope) (c : ColumnName) : Prop :=
  ∃ e ∈ s.entries, e.label = c.label ∧ e.table.hasColumn c.name = true

/-- What a reference stands for: a column of the root, or of the one table of the name given. -/
structure Scope.Denotes (s : Scope) (ref : ColumnRef) (c : ColumnName) (e : ScopedTable) : Prop where
  entry : e ∈ s.entries
  label : c.label = e.label
  name : c.name = ref.column
  column : e.table.hasColumn c.name = true
  root : ref.table = none → e = ⟨rootLabel, s.root⟩
  named : ∀ table, ref.table = some table →
    e.table.name = table ∧ ∀ other ∈ s.entries, other.table.name = table → other = e

variable {s : Scope} {ref : ColumnRef} {c : ColumnName}

theorem Scope.holds_of_resolve (found : s.resolve ref = .ok c) : s.Holds c := by
  obtain ⟨e, entry, has, rfl⟩ := resolve_eq_ok.1 found
  exact ⟨e, entry_mem entry, rfl, has⟩

theorem Scope.denotes_of_resolve (distinct : (s.entries.map fun e => e.table.name).Nodup)
    (found : s.resolve ref = .ok c) :
    ∃ e, s.Denotes ref c e := by
  obtain ⟨e, entry, has, rfl⟩ := resolve_eq_ok.1 found
  have member := entry_mem entry
  refine ⟨e, member, rfl, rfl, has, ?_, ?_⟩
  · intro plain
    rw [plain] at entry
    exact (Except.ok.inj entry).symm
  · intro table given
    rw [given, Scope.entry] at entry
    split at entry
    · rename_i hit
      cases entry
      have named : e.table.name = table := by simpa using List.find?_some hit
      exact ⟨named, fun other known same => List.inj_on_of_nodup_map distinct known member (same.trans named.symm)⟩
    · cases entry

end References

section Columns

theorem columnsOf_nil : columnsOf [] = [] := rfl

theorem columnsOf_raw_cons (text : String) (rest : List Piece) : columnsOf (.raw text :: rest) = columnsOf rest := rfl

theorem columnsOf_links (links : List Link) :
    columnsOf (links.flatMap Link.pieces) = links.flatMap fun l => [l.left, l.right] := by
  induction links with
  | nil => rfl
  | cons l links ih =>
    rw [List.flatMap_cons, List.flatMap_cons, columnsOf_append, ih]
    rfl

theorem columnsOf_rows (r : Rows) :
    columnsOf r.pieces = (r.links.flatMap fun l => [l.left, l.right]) ++ columnsOf (filterPieces r.filter) := by
  rw [Rows.pieces, columnsOf_append, Rows.fromPieces]
  exact congrArg (· ++ _) (columnsOf_links r.links)

theorem columnsOf_filter (filter : Option Condition) :
    columnsOf (filterPieces filter) = filter.elim [] fun f => columnsOf f.pieces := by
  cases filter <;> rfl

theorem columnsOf_order (order : List Sql.OrderTerm) :
    columnsOf (orderPieces order) = order.map Sql.OrderTerm.column := by
  unfold orderPieces
  split
  · rename_i none
    rw [List.isEmpty_iff.1 none]
    rfl
  · show columnsOf (Piece.separated ", " (order.map Sql.OrderTerm.pieces)) = _
    rw [columnsOf_separated, List.flatMap_map]
    exact List.map_eq_flatMap.symm

theorem columnsOf_window (window : Option Window) : columnsOf (windowPieces window) = [] := by
  cases window <;> rfl

theorem columnsOf_columnList (columns : List ColumnName) : columnsOf (columnListPieces columns) = columns := by
  rw [columnListPieces, columnsOf_separated, List.flatMap_map]
  exact List.flatMap_singleton' columns

end Columns

section Keys

def Join.keys (j : Join) (root : Table) : List (Table × String) :=
  match j.kind with
  | .direct parentKey childKey => [(root, parentKey), (j.child, childKey)]
  | .pivot pivot parentKey pivotParentKey childKey pivotChildKey =>
    [(root, parentKey), (pivot, pivotParentKey), (j.child, childKey), (pivot, pivotChildKey)]

variable {j : Join} {root : Table} {joins : List Join}

theorem Join.require_eq_ok {t : Table} {column : String} : j.require t column = .ok () ↔ t.hasColumn column = true := by
  unfold Join.require
  split
  · rename_i has
    exact ⟨fun _ => has, fun _ => rfl⟩
  · rename_i lacks
    exact ⟨fun failed => (nomatch failed), fun has => absurd has lacks⟩

theorem Join.validate_eq_ok (valid : j.validate root = .ok ()) : ∀ key ∈ j.keys root, key.1.hasColumn key.2 = true := by
  rcases j with ⟨relation, child, _ | _⟩
  · simp only [validate, bind_eq_ok, require_eq_ok] at valid
    obtain ⟨_, parent, own⟩ := valid
    simp only [keys, List.forall_mem_cons]
    exact ⟨require_eq_ok.1 parent, own, fun _ none => absurd none List.not_mem_nil⟩
  · simp only [validate, bind_eq_ok, require_eq_ok] at valid
    obtain ⟨_, parent, _, pivotParent, _, own, pivotChild⟩ := valid
    simp only [keys, List.forall_mem_cons]
    exact ⟨require_eq_ok.1 parent, require_eq_ok.1 pivotParent, require_eq_ok.1 own, pivotChild,
      fun _ none => absurd none List.not_mem_nil⟩

theorem Scope.Holds.mono {joined joined' : List ScopedTable} {c : ColumnName} (more : joined ⊆ joined')
    (held : Scope.Holds ⟨root, joined⟩ c) : Scope.Holds ⟨root, joined'⟩ c := by
  obtain ⟨e, known, has⟩ := held
  exact ⟨e, List.cons_subset_cons _ more known, has⟩

theorem Join.holds_links (valid : ∀ key ∈ j.keys root, key.1.hasColumn key.2 = true) (position : Nat) :
    ∀ l ∈ j.links position, ∀ c ∈ [l.left, l.right], Scope.Holds ⟨root, j.entries position⟩ c := by
  have rooted {column : String} (has : root.hasColumn column = true) :
      Scope.Holds ⟨root, j.entries position⟩ ⟨rootLabel, column⟩ :=
    ⟨_, List.mem_cons_self, rfl, has⟩
  have joined {e : ScopedTable} (own : e ∈ j.entries position) {column : String} (has : e.table.hasColumn column = true) :
      Scope.Holds ⟨root, j.entries position⟩ ⟨e.label, column⟩ :=
    ⟨e, List.mem_cons_of_mem _ own, rfl, has⟩
  rcases j with ⟨relation, child, ⟨parentKey, childKey⟩ | ⟨pivot, parentKey, pivotParentKey, childKey, pivotChildKey⟩⟩
  · simp only [keys, links, List.forall_mem_cons, List.not_mem_nil, false_implies, implies_true, and_true] at valid ⊢
    obtain ⟨parent, own⟩ := valid
    exact ⟨rooted parent, joined List.mem_cons_self own⟩
  · simp only [keys, links, List.forall_mem_cons, List.not_mem_nil, false_implies, implies_true, and_true] at valid ⊢
    obtain ⟨parent, pivotParent, own, pivotChild⟩ := valid
    have second : ScopedTable.mk (childLabel position) child ∈
        entries position ⟨relation, child, .pivot pivot parentKey pivotParentKey childKey pivotChildKey⟩ :=
      List.mem_cons_of_mem _ List.mem_cons_self
    exact ⟨⟨rooted parent, joined List.mem_cons_self pivotParent⟩, joined List.mem_cons_self pivotChild,
      joined second own⟩

theorem holds_links (valid : ∀ j ∈ joins, ∀ key ∈ j.keys root, key.1.hasColumn key.2 = true) (start : Nat) :
    ∀ l ∈ positioned Join.links start joins, ∀ c ∈ [l.left, l.right],
      Scope.Holds ⟨root, positioned Join.entries start joins⟩ c := by
  induction joins generalizing start with
  | nil => exact fun l none => absurd none List.not_mem_nil
  | cons j joins ih =>
    rw [List.forall_mem_cons] at valid
    intro l member c side
    rcases List.mem_append.1 member with here | later
    · exact (j.holds_links valid.1 start l here c side).mono (List.subset_append_left _ _)
    · exact (ih valid.2 (start + 1) l later c side).mono (List.subset_append_right _ _)

end Keys

section Statements

/-- A statement on a plan's tables, all of whose columns are in scope where they are named. -/
structure Plan.Scoped (p : Plan) (command : Command) (rows : Rows) : Prop where
  reads : command.from? = some rows
  sources : rows.sources.map (fun s => (s.label, s.table)) = p.scope.entries.map fun e => (e.label, e.table.name)
  links : LinksInOrder [rows.source.label] rows.links
  columns : ∀ c ∈ columnsOf command.pieces, (rows.sources.map Source.label).count c.label = 1 ∧
    p.scope.Holds c
  filter : List.Forall₂ (fun ref c => ∃ e, p.scope.Denotes ref c e) (p.filter.elim [] Predicate.references)
    (columnsOf (filterPieces rows.filter))

/-- A plan whose tables have different names and whose joins link columns that are there. -/
structure Plan.Sound (p : Plan) : Prop where
  tables : (p.scope.entries.map fun e => e.table.name).Nodup
  keys : ∀ j ∈ p.joins, ∀ key ∈ j.keys p.root, key.1.hasColumn key.2 = true

variable {p : Plan} {rows : Rows} {command : Command}

theorem Scope.holds_columns {s : Scope} : ∀ c ∈ s.columns, s.Holds c := by
  intro c listed
  obtain ⟨e, known, written⟩ := List.mem_flatMap.1 listed
  obtain ⟨name, has, rfl⟩ := List.mem_map.1 written
  exact ⟨e, known, rfl, (e.table.hasColumn_iff name).2 has⟩

theorem Plan.holds_identity : ∀ c ∈ p.identityColumns, p.scope.Holds c := by
  intro c listed
  obtain ⟨name, known, rfl⟩ := List.mem_map.1 listed
  refine ⟨⟨rootLabel, p.root⟩, List.mem_cons_self, rfl, (p.root.hasColumn_iff name).2 ?_⟩
  split at known
  · exact known
  · obtain ⟨column, kept, rfl⟩ := List.mem_map.1 known
    exact List.mem_map_of_mem (List.mem_of_mem_filter kept)

theorem Plan.rows_sources (made : p.rows = .ok rows) :
    rows.sources.map (fun s => (s.label, s.table)) = p.scope.entries.map fun e => (e.label, e.table.name) := by
  simp only [Plan.rows, bind_eq_ok, pure_eq_ok] at made
  obtain ⟨filter, -, rfl⟩ := made
  rw [Rows.sources, Plan.scope, scopeOf, Scope.entries, List.map_cons, List.map_cons, List.map_map]
  exact congrArg (_ :: ·) (sources_positioned 0 p.joins)

theorem Plan.count_label (made : p.rows = .ok rows) {c : ColumnName} (held : p.scope.Holds c) :
    (rows.sources.map Source.label).count c.label = 1 := by
  have labels : rows.sources.map Source.label = p.scope.entries.map ScopedTable.label := by
    simpa [Function.comp_def] using congrArg (List.map Prod.fst) (rows_sources made)
  obtain ⟨e, known, same, -⟩ := held
  rw [labels, ← same]
  exact List.count_eq_one_of_mem (nodup_labels p) (List.mem_map_of_mem known)

theorem Plan.rows_filter (made : p.rows = .ok rows) :
    p.scope.Resolves (p.filter.elim [] Predicate.references) (columnsOf (filterPieces rows.filter)) := by
  simp only [Plan.rows, bind_eq_ok, pure_eq_ok] at made
  obtain ⟨condition, compiled, rfl⟩ := made
  rw [columnsOf_filter]
  cases filter : p.filter with
  | none =>
    rw [filter] at compiled
    cases compiled
    exact .nil
  | some own =>
    rw [filter] at compiled
    simp only [Predicate.conditionOf, bind_eq_ok, pure_eq_ok] at compiled
    obtain ⟨written, compiled, rfl⟩ := compiled
    exact own.condition_references compiled

theorem Scope.Resolves.denotes {s : Scope} {refs : List ColumnRef} {columns : List ColumnName}
    (distinct : (s.entries.map fun e => e.table.name).Nodup) (resolved : s.Resolves refs columns) :
    List.Forall₂ (fun ref c => ∃ e, s.Denotes ref c e) refs columns :=
  resolved.imp fun _ _ => denotes_of_resolve distinct

theorem Scope.Resolves.holds {s : Scope} {refs : List ColumnRef} {columns : List ColumnName}
    (resolved : s.Resolves refs columns) : ∀ c ∈ columns, s.Holds c := by
  intro c listed
  obtain ⟨i, here⟩ := List.getElem?_of_mem listed
  obtain ⟨ref, -, found⟩ := forall₂_getElem? resolved.flip here
  exact holds_of_resolve found

theorem Plan.order_resolves {order : List Sql.OrderTerm} (made : p.orderTerms = .ok order) :
    p.scope.Resolves (p.order.map OrderTerm.column) (order.map Sql.OrderTerm.column) := by
  unfold Scope.Resolves
  rw [List.forall₂_map_left_iff, List.forall₂_map_right_iff]
  refine (mapM_eq_ok.1 made).imp fun term own found => ?_
  simp only [bind_eq_ok, pure_eq_ok] at found
  obtain ⟨column, found, rfl⟩ := found
  exact found

theorem Plan.Sound.holds_rows (sound : p.Sound) (made : p.rows = .ok rows) :
    ∀ c ∈ columnsOf rows.pieces, p.scope.Holds c := by
  have filtered := (rows_filter made).holds
  simp only [Plan.rows, bind_eq_ok, pure_eq_ok] at made
  obtain ⟨condition, -, rfl⟩ := made
  rw [columnsOf_rows, List.forall_mem_append]
  refine ⟨fun c linked => ?_, filtered⟩
  obtain ⟨l, member, side⟩ := List.mem_flatMap.1 linked
  exact holds_links sound.keys 0 l member c side

theorem Plan.Sound.keeps_scope (sound : p.Sound) (made : p.rows = .ok rows) (reads : command.from? = some rows)
    (columns : ∀ c ∈ columnsOf command.pieces, c ∈ columnsOf rows.pieces ∨ p.scope.Holds c) :
    p.Scoped command rows where
  reads := reads
  sources := rows_sources made
  links := by
    simp only [Plan.rows, bind_eq_ok, pure_eq_ok] at made
    obtain ⟨condition, -, rfl⟩ := made
    exact linksInOrder_positioned (List.mem_singleton_self _) 0 p.joins
  columns c named := by
    have held := (columns c named).elim (sound.holds_rows made c) id
    exact ⟨count_label made held, held⟩
  filter := (rows_filter made).denotes sound.tables

theorem Plan.Sound.select (sound : p.Sound) (made : p.select = .ok command) :
    ∃ rows order window, command = .select p.scope.columns rows order window ∧ p.Scoped command rows ∧
      List.Forall₂ (fun ref c => ∃ e, p.scope.Denotes ref c e) (p.order.map OrderTerm.column)
        (order.map Sql.OrderTerm.column) := by
  simp only [Plan.select, bind_eq_ok, pure_eq_ok] at made
  obtain ⟨rows, read, order, ordered, rfl⟩ := made
  have terms := order_resolves ordered
  refine ⟨rows, order, _, rfl, sound.keeps_scope read rfl fun c named => ?_, terms.denotes sound.tables⟩
  have parts : c ∈ p.scope.columns ∨ c ∈ columnsOf rows.pieces ∨ c ∈ order.map Sql.OrderTerm.column := by
    simpa [Command.pieces, columnsOf_append, columnsOf_raw_cons, columnsOf_list, columnsOf_order, columnsOf_window] using
      named
  rcases parts with listed | read | ordered
  · exact .inr (Scope.holds_columns c listed)
  · exact .inl read
  · exact .inr (terms.holds c ordered)

theorem Plan.Sound.count (sound : p.Sound) (made : p.count = .ok command) :
    ∃ rows, p.Scoped command rows ∧
      ∀ columns window, command = .countDistinct columns rows window → columns = p.identityColumns := by
  simp only [Plan.count, bind_eq_ok] at made
  obtain ⟨rows, read, made⟩ := made
  split at made
  · split at made
    · obtain rfl := pure_eq_ok.1 made
      refine ⟨rows, sound.keeps_scope read rfl fun c named => .inl ?_, fun _ _ same => by cases same⟩
      simpa [Command.pieces, columnsOf_raw_cons] using named
    · obtain rfl := pure_eq_ok.1 made
      refine ⟨rows, sound.keeps_scope read rfl fun c named => .inl ?_, fun _ _ same => by cases same⟩
      simpa [Command.pieces, columnsOf_append, columnsOf_raw_cons, columnsOf_window, columnsOf_nil] using named
  · obtain rfl := pure_eq_ok.1 made
    refine ⟨rows, sound.keeps_scope read rfl fun c named => ?_,
      fun columns window same => (Command.countDistinct.inj same).1.symm⟩
    have parts : c ∈ p.identityColumns ∨ c ∈ columnsOf rows.pieces := by
      simpa [Command.pieces, columnsOf_append, columnsOf_raw_cons, columnsOf_columnList, columnsOf_window, columnsOf_nil]
        using named
    exact parts.symm.imp_right (holds_identity c)

end Statements

section Queries

variable {g : ShapeGraph} {s : Fin g.size}

namespace Query

theorem push_sound {q after : Query g s} {join : Join} {loader : Loader g.size} (sound : q.plan.Sound)
    (pushed : q.push join loader = .ok after) : after.plan.Sound := by
  have tables := push_tables sound.tables pushed
  obtain ⟨valid, -, rfl⟩ := push_eq_ok pushed
  refine ⟨tables, fun j member => ?_⟩
  rcases List.mem_append.1 member with before | last
  · exact sound.keys j before
  · rw [List.mem_singleton.1 last]
    exact join.validate_eq_ok valid

/-- Every refinement keeps the tables of a query apart and its links on columns that are there. -/
theorem Joined.sound {root : Table} {q : Query g s} (joined : q.Joined root) : q.plan.Sound := by
  induction joined with
  | root => exact ⟨List.nodup_singleton _, fun j none => absurd none List.not_mem_nil⟩
  | join joined made ih =>
    simp only [Query.join, bind_eq_ok] at made
    obtain ⟨child, -, pushed⟩ := made
    exact push_sound ih pushed
  | joinPivot joined made ih =>
    simp only [Query.joinPivot, bind_eq_ok] at made
    obtain ⟨between, -, child, -, pushed⟩ := made
    exact push_sound ih pushed
  | filter p joined ih => exact ⟨ih.tables, ih.keys⟩
  | order column descending joined ih => exact ⟨ih.tables, ih.keys⟩
  | limit limit skip joined ih => exact ⟨ih.tables, ih.keys⟩
  | skip skip joined ih => exact ⟨ih.tables, ih.keys⟩

/-- What holds of the statements that read and count a query's records. -/
structure Scoped (q : Query g s) : Prop where
  sound : q.plan.Sound
  selects : ∀ command, q.plan.select = .ok command → ∃ rows order window,
    command = .select q.plan.scope.columns rows order window ∧ q.plan.Scoped command rows ∧
    List.Forall₂ (fun ref c => ∃ e, q.plan.scope.Denotes ref c e) (q.plan.order.map OrderTerm.column)
      (order.map Sql.OrderTerm.column)
  counts : ∀ command, q.plan.count = .ok command → ∃ rows, q.plan.Scoped command rows ∧
    ∀ columns window, command = .countDistinct columns rows window → columns = q.plan.identityColumns

/-- The tables of a query have different names, and its joins link columns that are there. In the statements that read or
    count its records, FROM gives the tables the labels that they have in scope. Each label is introduced once, and
    before a link uses it. Every column named is one of the table that its label stands for; those of the filter and of
    the order are the ones that were referred to. -/
theorem Joined.scoped {root : Table} {q : Query g s} (joined : q.Joined root) : q.Scoped where
  sound := joined.sound
  selects _ made := joined.sound.select made
  counts _ made := joined.sound.count made

end Query

def liveSingers : Query catalogue singers :=
  let live : Predicate := .compare (.column ⟨some "tag", "word"⟩) .eq (.value (.text "live"))
  ((singersWithSongs.filter live).order "id" true).limit 2 1

def liveRows : Rows :=
  ⟨⟨"singer", "t0"⟩,
    [⟨⟨"tagging", "p1"⟩, ⟨"t0", "id"⟩, ⟨"p1", "singer"⟩⟩, ⟨⟨"tag", "t1"⟩, ⟨"p1", "word"⟩, ⟨"t1", "word"⟩⟩,
      ⟨⟨"song", "t2"⟩, ⟨"t0", "id"⟩, ⟨"t2", "singer"⟩⟩],
    some (.value ⟨"t1", "word"⟩ .eq (.text "live"))⟩

theorem scoped_live : liveSingers.Joined singerTable ∧ liveSingers.Scoped ∧
    liveSingers.plan.select = .ok (.select liveSingers.plan.scope.columns liveRows [⟨⟨"t2", "id"⟩, true⟩] none) ∧
    liveSingers.plan.count = .ok (.countDistinct [⟨"t0", "id"⟩] liveRows (some ⟨2, 1⟩)) := by
  have tagged : (Query.ofTable singerTable).joinPivot ⟨1, by decide⟩ tags "id" "singer" "word" "word" =
      .ok singersWithTags := rfl
  have sung : singersWithTags.join songs "id" "singer" = .ok singersWithSongs := rfl
  have joined : liveSingers.Joined singerTable :=
    .limit 2 1 (.order "id" true (.filter _ (.join (.joinPivot .root tagged) sung)))
  exact ⟨joined, joined.scoped, rfl, rfl⟩

end Queries

end RecordMapper
