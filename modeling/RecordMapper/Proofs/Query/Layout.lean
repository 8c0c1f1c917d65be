import Mathlib.Algebra.GroupWithZero.Nat
import RecordMapper.Proofs.Hydration.Pushing
import RecordMapper.Proofs.Predicate.ConditionText
import RecordMapper.Proofs.Query.Built

namespace RecordMapper

open RecordMapper.Sql

section Columns

def ScopedTable.listed (e : ScopedTable) : List ColumnName :=
  e.table.columnNames.map fun name => ⟨e.label, name⟩

theorem ScopedTable.length_listed (e : ScopedTable) : e.listed.length = e.table.width := by
  rw [listed, List.length_map, Table.columnNames, List.length_map, Table.width]

def Join.gap (j : Join) : Nat :=
  (j.pivot?.map Table.width).getD 0

def Join.span (j : Join) : Nat :=
  j.gap + j.child.width

def joinedColumns (start : Nat) (joins : List Join) : List ColumnName :=
  (positioned Join.entries start joins).flatMap ScopedTable.listed

theorem scope_columns (p : Plan) :
    p.scope.columns = ScopedTable.listed ⟨rootLabel, p.root⟩ ++ joinedColumns 0 p.joins :=
  List.flatMap_cons

theorem joinedColumns_append (start : Nat) (joins others : List Join) :
    joinedColumns start (joins ++ others) = joinedColumns start joins ++ joinedColumns (start + joins.length) others := by
  rw [joinedColumns, Query.positioned_append, List.flatMap_append, joinedColumns, joinedColumns]

theorem joinedColumns_cons (start : Nat) (j : Join) (joins : List Join) :
    ∃ between, between.length = j.gap ∧
      joinedColumns start (j :: joins) =
        between ++ ScopedTable.listed ⟨Join.childLabel start, j.child⟩ ++ joinedColumns (start + 1) joins := by
  rw [joinedColumns, positioned, List.flatMap_append, Join.entries, Join.gap]
  rcases j.pivot? with _ | pivot
  · refine ⟨[], rfl, ?_⟩
    rw [List.flatMap_cons, List.flatMap_nil, List.append_nil, List.nil_append, joinedColumns]
  · refine ⟨ScopedTable.listed ⟨Join.pivotLabel start, pivot⟩, ScopedTable.length_listed _, ?_⟩
    rw [List.flatMap_cons, List.flatMap_cons, List.flatMap_nil, List.append_nil, joinedColumns]

theorem length_joinedColumns (start : Nat) (joins : List Join) :
    (joinedColumns start joins).length = (joins.map Join.span).sum := by
  induction joins generalizing start with
  | nil => rfl
  | cons j joins ih =>
    obtain ⟨between, gap, listed⟩ := joinedColumns_cons start j joins
    rw [listed, List.length_append, List.length_append, gap, ScopedTable.length_listed, ih, List.map_cons,
      List.sum_cons, Join.span]

theorem length_scope_columns (p : Plan) :
    p.scope.columns.length = p.root.width + (p.joins.map Join.span).sum := by
  rw [scope_columns, List.length_append, ScopedTable.length_listed, length_joinedColumns]

theorem take_scope_columns (p : Plan) :
    p.scope.columns.take p.root.width = ScopedTable.listed ⟨rootLabel, p.root⟩ := by
  rw [scope_columns]
  exact List.take_left' (ScopedTable.length_listed _)

theorem child_scope_columns (p : Plan) {before after : List Join} {j : Join} (joins : p.joins = before ++ j :: after) :
    (p.scope.columns.drop (p.root.width + (before.map Join.span).sum + j.gap)).take j.child.width =
      ScopedTable.listed ⟨Join.childLabel before.length, j.child⟩ := by
  obtain ⟨between, gap, listed⟩ := joinedColumns_cons before.length j after
  have columns : p.scope.columns =
      ScopedTable.listed ⟨rootLabel, p.root⟩ ++ joinedColumns 0 before ++ between ++
        (ScopedTable.listed ⟨Join.childLabel before.length, j.child⟩ ++ joinedColumns (before.length + 1) after) := by
    rw [scope_columns, joins, joinedColumns_append, Nat.zero_add, listed]
    simp only [List.append_assoc]
  have place : (ScopedTable.listed ⟨rootLabel, p.root⟩ ++ joinedColumns 0 before ++ between).length =
      p.root.width + (before.map Join.span).sum + j.gap := by
    rw [List.length_append, List.length_append, ScopedTable.length_listed, length_joinedColumns, gap]
  rw [columns, List.drop_left' place]
  exact List.take_left' (ScopedTable.length_listed _)

end Columns

section Names

theorem isWordPart_digits (n : Nat) : ∀ d ∈ Nat.toDigits 10 n, isWordPart d = true := by
  intro d written
  have digit := Nat.isDigit_of_mem_toDigits (by decide) (by decide) written
  have same : Text.isDigit d = true := by simpa [Text.isDigit, Char.isDigit, Char.le_def] using digit
  simp [isWordPart, same]

theorem plain_numbered {letter : Char} (small : letter = 't' ∨ letter = 'p') (n : Nat) :
    IsPlainLabel (String.ofList [letter] ++ toString n) where
  word := by
    have start : isWordStart letter = true := by rcases small with rfl | rfl <;> decide
    have digits := isWordPart_digits n
    simpa [isWord, start] using digits
  free := by
    rw [keyword?, Option.map_eq_none_iff, List.find?_eq_none]
    intro e spelled same
    have letters := congrArg (fun text => text.toList.head?) ((Text.sameIgnoringCase_iff _ _).1 same)
    have first : (Text.foldCase (String.ofList [letter] ++ toString n)).toList.head? = some letter := by
      rcases small with rfl | rfl <;> simp [Text.foldCase]
    have others : ∀ e ∈ Keyword.spellings,
        (Text.foldCase e.1).toList.head? ≠ some 't' ∧ (Text.foldCase e.1).toList.head? ≠ some 'p' := by decide
    rcases small with rfl | rfl
    · exact (others e spelled).1 (letters.symm.trans first)
    · exact (others e spelled).2 (letters.symm.trans first)

theorem plain_labels (p : Plan) : ∀ e ∈ p.scope.entries, IsPlainLabel e.label := by
  intro e member
  rcases List.mem_cons.1 member with rfl | joined
  · exact plain_numbered (.inl rfl) 0
  · obtain ⟨position, -, child | pivot⟩ := (labels_positioned 0 p.joins).1 e joined
    · exact child ▸ plain_numbered (.inl rfl) (position + 1)
    · exact pivot ▸ plain_numbered (.inr rfl) (position + 1)

def Sql.ColumnName.outputName (c : ColumnName) : String :=
  c.label ++ "." ++ c.name

theorem isWordPart_of_isWord {text : String} (spelled : isWord text = true) : ∀ d ∈ text.toList, isWordPart d = true := by
  unfold isWord at spelled
  cases letters : text.toList with
  | nil => simp
  | cons c rest =>
    simp only [letters, Bool.and_eq_true, List.all_eq_true] at spelled
    rw [List.forall_mem_cons]
    exact ⟨by simp [isWordPart, spelled.1], spelled.2⟩

/-- A word has no dot, so what stands before the first dot of an output name is the label. -/
theorem outputName_inj {a b : ColumnName} (word : isWord a.label = true) (also : isWord b.label = true)
    (same : a.outputName = b.outputName) : a = b := by
  have before (c : ColumnName) (word : isWord c.label = true) :
      c.outputName.toList.takeWhile (· != '.') = c.label.toList := by
    have letters : c.outputName.toList = c.label.toList ++ '.' :: c.name.toList := by
      simp [ColumnName.outputName]
    rw [letters]
    refine (takeWhile_run (fun d member => ?_) (by simp)).1
    have part := isWordPart_of_isWord word d member
    rw [bne_iff_ne]
    rintro rfl
    exact absurd part (by decide)
  have labels : a.label = b.label := by
    rw [← String.toList_inj, ← before a word, ← before b also, same]
  have names : a.name = b.name := by
    rw [ColumnName.outputName, ColumnName.outputName, labels] at same
    exact (String.append_right_inj _).1 same
  exact congrArg₂ ColumnName.mk labels names

theorem nodup_scope_columns (p : Plan) : p.scope.columns.Nodup := by
  have labels := nodup_labels p
  rw [List.Nodup, List.pairwise_map] at labels
  rw [Scope.columns, List.nodup_flatMap]
  constructor
  · intro e _
    exact e.table.distinct.map fun a b same => congrArg ColumnName.name same
  · refine labels.imp fun {e other} apart => ?_
    intro column first second
    obtain ⟨_, -, rfl⟩ := List.mem_map.1 first
    obtain ⟨_, -, same⟩ := List.mem_map.1 second
    exact apart (congrArg ColumnName.label same).symm

theorem nodup_outputNames (p : Plan) : (p.scope.columns.map ColumnName.outputName).Nodup := by
  refine (nodup_scope_columns p).map_on fun a first b second same => ?_
  have word (c : ColumnName) (listed : c ∈ p.scope.columns) : isWord c.label = true := by
    obtain ⟨e, member, written⟩ := List.mem_flatMap.1 listed
    obtain ⟨_, -, rfl⟩ := List.mem_map.1 written
    exact (plain_labels p e member).word
  exact outputName_inj (word a first) (word b second) same

end Names

section Places

variable {n : Nat}

namespace Hydration

theorem getElem?_spans (offset : Nat) (before after : List (Loader n)) (l : Loader n) :
    (spans offset (before ++ l :: after))[before.length]? =
      some (l, offset + (before.map Loader.span).sum + l.gap) := by
  induction before generalizing offset with
  | nil => rfl
  | cons first before ih =>
    have place : offset + first.gap + first.table.width + (before.map Loader.span).sum + l.gap =
        offset + ((first :: before).map Loader.span).sum + l.gap := by
      rw [List.map_cons, List.sum_cons, Loader.span]
      omega
    rw [List.cons_append, spans, List.length_cons, List.getElem?_cons_succ, ih, place]

end Hydration

end Places

section Joined

variable {g : ShapeGraph} {s : Fin g.size}

namespace Query

/-- Queries on a root table that joins lead to, and other refinements between them. -/
inductive Joined (root : Table) : Query g s → Prop where
  | root : Joined root (.ofTable root)
  | join {q after : Query g s} {r : Relation g.size} {on equals : String} (joined : q.Joined root)
    (made : q.join r on equals = .ok after) : Joined root after
  | joinPivot {q after : Query g s} {pivot : Fin g.size} {r : Relation g.size} {on equals and is : String}
    (joined : q.Joined root) (made : q.joinPivot pivot r on equals and is = .ok after) : Joined root after
  | filter {q : Query g s} (p : Predicate) (joined : q.Joined root) : Joined root (q.filter p)
  | order {q : Query g s} (column : String) (descending : Bool) (joined : q.Joined root) :
    Joined root (q.order column descending)
  | limit {q : Query g s} (limit skip : UInt64) (joined : q.Joined root) : Joined root (q.limit limit skip)
  | skip {q : Query g s} (skip : UInt64) (joined : q.Joined root) : Joined root (q.skip skip)

/-- A query whose loaders go in step with the joins of its plan. -/
structure InStep (root : Table) (q : Query g s) : Prop where
  root : q.plan.root = root
  loads : List.Forall₂ Loader.Loads q.loaders q.plan.joins

theorem push_inStep {root : Table} {q after : Query g s} {join : Join} {loader : Loader g.size}
    (inStep : q.InStep root) (loads : loader.Loads join) (pushed : q.push join loader = .ok after) :
    after.InStep root := by
  obtain ⟨-, -, rfl⟩ := push_eq_ok pushed
  exact ⟨inStep.root, List.rel_append inStep.loads (.cons loads .nil)⟩

theorem Joined.inStep {root : Table} {q : Query g s} (joined : q.Joined root) : q.InStep root := by
  induction joined with
  | root => exact ⟨rfl, .nil⟩
  | join joined made ih =>
    simp only [Query.join, bind_eq_ok] at made
    obtain ⟨child, -, pushed⟩ := made
    exact push_inStep ih ⟨rfl, rfl, rfl⟩ pushed
  | joinPivot joined made ih =>
    simp only [Query.joinPivot, bind_eq_ok] at made
    obtain ⟨between, -, child, -, pushed⟩ := made
    exact push_inStep ih ⟨rfl, rfl, rfl⟩ pushed
  | filter p joined ih => exact ⟨ih.root, ih.loads⟩
  | order column descending joined ih => exact ⟨ih.root, ih.loads⟩
  | limit limit skip joined ih => exact ⟨ih.root, ih.loads⟩
  | skip skip joined ih => exact ⟨ih.root, ih.loads⟩

theorem InStep.spans {root : Table} {q : Query g s} (inStep : q.InStep root) :
    q.loaders.map Loader.span = q.plan.joins.map Join.span :=
  map_loads inStep.loads fun l j loads => by rw [Loader.span, Join.span, loads.gap, loads.table, Join.gap]

theorem InStep.place {root : Table} {q : Query g s} (inStep : q.InStep root) {before after : List Join} {j : Join}
    (joins : q.plan.joins = before ++ j :: after) :
    ∃ l, l.Loads j ∧ (Hydration.spans root.width q.loaders)[before.length]? =
      some (l, root.width + (before.map Join.span).sum + j.gap) := by
  have loads := inStep.loads
  rw [joins] at loads
  have earlier := List.forall₂_take_append _ _ _ loads
  rcases later : q.loaders.drop before.length with _ | ⟨l, rest⟩
  · have none := List.forall₂_drop_append _ _ _ loads
    rw [later] at none
    cases none
  · have own := List.forall₂_drop_append _ _ _ loads
    rw [later, List.forall₂_cons] at own
    have loaders : q.loaders = q.loaders.take before.length ++ l :: rest := by rw [← later, List.take_append_drop]
    have spans : (q.loaders.take before.length).map Loader.span = before.map Join.span :=
      map_loads earlier fun l j loads => by rw [Loader.span, Join.span, loads.gap, loads.table, Join.gap]
    refine ⟨l, own.1, ?_⟩
    have found := Hydration.getElem?_spans root.width (q.loaders.take before.length) rest l
    rwa [← loaders, earlier.length_eq, spans, own.1.gap] at found

/-- The select list and hydration go by one layout: first the root's columns, then for each join its pivot's and its
    child's. -/
structure Layout (root : Table) (q : Query g s) : Prop where
  selected : ∀ command, q.plan.select = .ok command →
    ∃ rows order window, command = .select q.plan.scope.columns rows order window
  selects : q.plan.filter = none → q.plan.order = [] → ∃ command, q.plan.select = .ok command
  rootColumns : q.plan.scope.columns.take root.width = root.columnNames.map fun name => ⟨rootLabel, name⟩
  children : ∀ before j after, q.plan.joins = before ++ j :: after → ∃ l place,
    (Hydration.spans root.width q.loaders)[before.length]? = some (l, place) ∧ l.table = j.child ∧
    place = root.width + (before.map Join.span).sum + j.gap ∧
    (q.plan.scope.columns.drop place).take l.table.width =
      j.child.columnNames.map fun name => ⟨Join.childLabel before.length, name⟩
  width : q.plan.scope.columns.length = root.width + (q.plan.joins.map Join.span).sum
  /-- The groups hold the rows' parts at the loaders' spans. -/
  taken : ∀ rows : List (List Value), (∀ row ∈ rows, row.length = q.plan.scope.columns.length) →
    rows.foldlM Hydration.taking (.empty root q.loaders) =
      .ok ⟨root, q.loaders, Hydration.groupsOf root q.loaders rows⟩
  accepts : ∀ rows row, (Hydration.push ⟨root, q.loaders, Hydration.groupsOf root q.loaders rows⟩ row).1 = .ok () ↔
    row.length = q.plan.scope.columns.length
  names : (q.plan.scope.columns.map ColumnName.outputName).Nodup

theorem Joined.layout {root : Table} {q : Query g s} (joined : q.Joined root) : q.Layout root := by
  have inStep := joined.inStep
  have width : q.plan.scope.columns.length = Hydration.widthFrom root.width q.loaders := by
    rw [length_scope_columns, Hydration.widthFrom_eq_sum, inStep.root, inStep.spans]
  constructor
  case selected =>
    intro command made
    simp only [Plan.select, bind_eq_ok, pure_eq_ok] at made
    obtain ⟨rows, -, order, -, rfl⟩ := made
    exact ⟨rows, order, _, rfl⟩
  case selects =>
    intro unfiltered unordered
    have made : ∃ window, q.plan.select =
        .ok (.select q.plan.scope.columns ⟨rootSource q.plan.root, linksOf q.plan.joins, none⟩ [] window) := by
      rw [Plan.select, Plan.rows, Plan.orderTerms, unfiltered, unordered]
      exact ⟨_, rfl⟩
    obtain ⟨window, made⟩ := made
    exact ⟨_, made⟩
  case rootColumns =>
    rw [← inStep.root]
    exact take_scope_columns q.plan
  case children =>
    intro before j after joins
    obtain ⟨l, loads, found⟩ := inStep.place joins
    refine ⟨l, _, found, loads.table, rfl, ?_⟩
    rw [loads.table, ← inStep.root]
    exact child_scope_columns q.plan joins
  case width => rw [length_scope_columns, inStep.root]
  case taken =>
    intro rows fit
    exact Hydration.foldlM_taking root q.loaders rows [] fun row member => (fit row member).trans width
  case accepts =>
    intro rows row
    rw [Hydration.push_groupsOf_iff, width]
  case names => exact nodup_outputNames q.plan

end Query

end Joined

section Catalogue

def catalogue : ShapeGraph where
  size := 4
  shape
    | 0 => .ofFields "Singer" "singer" []
      [⟨"id", .column ⟨.int64, false⟩⟩, ⟨"name", .column ⟨.string, false⟩⟩, ⟨"tags", .toMany 2⟩, ⟨"songs", .toMany 3⟩]
    | 1 => .ofFields "Tagging" "tagging" []
      [⟨"singer", .column ⟨.int64, false⟩⟩, ⟨"word", .column ⟨.string, false⟩⟩, ⟨"note", .column ⟨.string, true⟩⟩]
    | 2 => .ofFields "Tag" "tag" ["word"] [⟨"word", .column ⟨.string, false⟩⟩]
    | 3 => .ofFields "Song" "song" [] [⟨"id", .column ⟨.int64, false⟩⟩, ⟨"singer", .column ⟨.int64, false⟩⟩]

def singers : Fin catalogue.size := ⟨0, by decide⟩

def singerTable : Table := ⟨"singer", [⟨"id", .integer, false, true⟩, ⟨"name", .text, false, false⟩], by decide⟩

def taggingTable : Table :=
  ⟨"tagging", [⟨"singer", .integer, false, false⟩, ⟨"word", .text, false, false⟩, ⟨"note", .text, true, false⟩],
    by decide⟩

def tagTable : Table := ⟨"tag", [⟨"word", .text, false, true⟩], by decide⟩

def songTable : Table := ⟨"song", [⟨"id", .integer, false, true⟩, ⟨"singer", .integer, false, false⟩], by decide⟩

def tags : Relation catalogue.size := ⟨"tags", ⟨2, by decide⟩⟩

def songs : Relation catalogue.size := ⟨"songs", ⟨3, by decide⟩⟩

def singersWithTags : Query catalogue singers :=
  ⟨⟨singerTable, [⟨"tags", tagTable, .pivot taggingTable "id" "singer" "word" "word"⟩], none, [], none⟩,
    [⟨"tags", tags.child, tagTable, 3⟩]⟩

def singersWithSongs : Query catalogue singers :=
  ⟨⟨singerTable, singersWithTags.plan.joins ++ [⟨"songs", songTable, .direct "id" "singer"⟩], none, [], none⟩,
    singersWithTags.loaders ++ [⟨"songs", songs.child, songTable, 0⟩]⟩

theorem layout_songs : singersWithSongs.Joined singerTable ∧ singersWithSongs.Layout singerTable ∧
    (singersWithSongs.plan.scope.columns.drop 6).take 2 = [⟨"t2", "id"⟩, ⟨"t2", "singer"⟩] := by
  have tagged : (Query.ofTable singerTable).joinPivot ⟨1, by decide⟩ tags "id" "singer" "word" "word" =
      .ok singersWithTags := rfl
  have sung : singersWithTags.join songs "id" "singer" = .ok singersWithSongs := rfl
  have joined : singersWithSongs.Joined singerTable := .join (.joinPivot .root tagged) sung
  exact ⟨joined, joined.layout, by decide⟩

end Catalogue

end RecordMapper
