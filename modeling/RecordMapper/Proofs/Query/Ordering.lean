import RecordMapper.Proofs.Hydration.Reordering
import RecordMapper.Proofs.Query.Precedence

namespace RecordMapper

open RecordMapper.Sql

namespace Hydration

variable {n : Nat} {root : Table} {loaders : List (Loader n)} {rows : List (List Value)}

theorem length_spans (offset : Nat) (loaders : List (Loader n)) : (spans offset loaders).length = loaders.length := by
  rw [← List.length_map Prod.fst, map_spans]

/-- All combinations of the children are there: for rows chosen one for each relation, there is one with each of their
    children. -/
def IsProduct (root : Table) (loaders : List (Loader n)) (rows : List (List Value)) : Prop :=
  ∀ chosen : Nat → List Value, (∀ i, chosen i ∈ rows) →
    ∃ row ∈ rows, ∀ i (span : Loader n × Nat), (spans root.width loaders)[i]? = some span →
      span.1.table.identityKey (childPart span row) = span.1.table.identityKey (childPart span (chosen i))

/-- Of two rows of one root there is a third that has the child of one relation from the one, and all other children from
    the other. -/
theorem Coherent.exists_exchanged (coherent : Coherent root loaders rows) {first a b : List Value}
    (full : loaders.length = 1 ∨ IsProduct root loaders (sharing root rows first))
    (mine : a ∈ sharing root rows first) (also : b ∈ sharing root rows first) {k : Nat} (here : k < loaders.length) :
    ∃ row ∈ sharing root rows first, ∀ i (span : Loader n × Nat), (spans root.width loaders)[i]? = some span →
      childPart span row = childPart span (if i = k then b else a) := by
  rcases full with single | product
  · refine ⟨b, also, fun i span listed => ?_⟩
    have inside := (List.getElem?_eq_some_iff.1 listed).1
    rw [length_spans] at inside
    have one : i = k := by omega
    rw [if_pos one]
  · have chosen (i : Nat) : (if i = k then b else a) ∈ sharing root rows first := by
      split
      · exact also
      · exact mine
    obtain ⟨row, shares, same⟩ := product _ chosen
    refine ⟨row, shares, fun i span listed => ?_⟩
    have near := mem_sharing_iff.1 shares
    have far := mem_sharing_iff.1 (chosen i)
    apply coherent.children row near.1 _ far.1 (near.2.trans far.2.symm) span (List.mem_of_getElem? listed)
    exact same i span listed

end Hydration

def ScopedTable.ReadInOrder {α : Type} (e : ScopedTable) (order : List Sql.OrderTerm) (reader : Reader α)
    (parts : List (List Value)) (records : List α) : Prop :=
  ∃ values, values.mapM (e.table.read reader) = .ok records ∧ values ⊆ parts ∧ e.Sorted order values

namespace Query

open Hydration

variable {g : ShapeGraph} {s : Fin g.size} {q : Query g s} {order : List Sql.OrderTerm} {rows : List (List Value)}

theorem InStep.child_place {root : Table} (inStep : q.InStep root) {i : Nat} {j : Join}
    (here : q.plan.joins[i]? = some j) :
    ∃ span, (Hydration.spans root.width q.loaders)[i]? = some span ∧ span.1.Loads j ∧
      (q.plan.scope.columns.drop span.2).take span.1.table.width = ScopedTable.listed ⟨Join.childLabel i, j.child⟩ := by
  obtain ⟨inside, rfl⟩ := List.getElem?_eq_some_iff.1 here
  have joins : q.plan.joins = q.plan.joins.take i ++ q.plan.joins[i] :: q.plan.joins.drop (i + 1) := by
    rw [← List.drop_eq_getElem_cons inside, List.take_append_drop]
  obtain ⟨l, loads, found⟩ := inStep.place joins
  have columns := child_scope_columns q.plan joins
  rw [List.length_take, Nat.min_eq_left (Nat.le_of_lt inside)] at found columns
  refine ⟨_, found, loads, ?_⟩
  rw [loads.table, ← inStep.root]
  exact columns

theorem valueUnder_root (row : List Value) {c : ColumnName} (listed : c ∈ ScopedTable.listed ⟨rootLabel, q.plan.root⟩) :
    valueUnder (ScopedTable.listed ⟨rootLabel, q.plan.root⟩) (part row 0 q.plan.root.width) c =
      valueUnder q.plan.scope.columns row c :=
  valueUnder_part (nodup_scope_columns q.plan) (take_scope_columns q.plan) listed row

theorem valueUnder_child {span : Loader g.size × Nat} {e : ScopedTable} (row : List Value) {c : ColumnName}
    (placed : (q.plan.scope.columns.drop span.2).take span.1.table.width = e.listed) (listed : c ∈ e.listed) :
    valueUnder e.listed (childPart span row) c = valueUnder q.plan.scope.columns row c :=
  valueUnder_part (nodup_scope_columns q.plan) placed listed row

theorem sorted_roots (first : q.plan.RootFirst order)
    (sorted : SortedUnder q.plan.scope.columns order rows) :
    ScopedTable.Sorted ⟨rootLabel, q.plan.root⟩ order
      ((firsts (rootKey q.plan.root) rows).map fun row => part row 0 q.plan.root.width) := by
  rw [ScopedTable.Sorted, SortedUnder, List.pairwise_map]
  apply (List.Pairwise.sublist (firsts_sublist _ rows) sorted).imp
  intro a b comes
  obtain ⟨others, begins⟩ := first.begins
  have listed : ∀ t ∈ order.filter fun t => t.column.label == rootLabel,
      t.column ∈ ScopedTable.listed ⟨rootLabel, q.plan.root⟩ := by
    intro t member
    rw [List.mem_filter, beq_iff_eq] at member
    exact first.listed_root member.1 member.2
  rw [Store.precedes_congr (fun t member => valueUnder_root a (listed t member))
    (fun t member => valueUnder_root b (listed t member))]
  rw [begins] at comes
  exact Store.precedes_of_append comes

theorem precedes_child (first : q.plan.RootFirst order) (inStep : q.InStep q.plan.root) {a b : List Value}
    (comes : Store.precedes (valueUnder q.plan.scope.columns) order a b = true)
    (roots : part a 0 q.plan.root.width = part b 0 q.plan.root.width) {i : Nat} {j : Join} {span : Loader g.size × Nat}
    (here : q.plan.joins[i]? = some j)
    (placed : (q.plan.scope.columns.drop span.2).take span.1.table.width = ScopedTable.listed ⟨Join.childLabel i, j.child⟩)
    (others : ∀ k (span : Loader g.size × Nat), (spans q.plan.root.width q.loaders)[k]? = some span → k ≠ i →
      childPart span a = childPart span b) :
    Store.precedes (valueUnder (ScopedTable.listed ⟨Join.childLabel i, j.child⟩))
      (order.filter fun t => t.column.label == Join.childLabel i) (childPart span a) (childPart span b) = true := by
  have listed : ∀ t ∈ order.filter fun t => t.column.label == Join.childLabel i,
      t.column ∈ ScopedTable.listed ⟨Join.childLabel i, j.child⟩ := by
    intro t member
    rw [List.mem_filter, beq_iff_eq] at member
    exact first.listed_child member.1 here member.2
  rw [Store.precedes_congr (fun t member => valueUnder_child a placed (listed t member))
    (fun t member => valueUnder_child b placed (listed t member)), Store.precedes_filter]
  · exact comes
  · intro t member other
    rcases first.listed member with root | ⟨k, sibling, there, child⟩
    · rw [← valueUnder_root a root, ← valueUnder_root b root, roots]
    · obtain ⟨span, found, -, place⟩ := inStep.child_place there
      have apart : k ≠ i := by
        rintro rfl
        rw [beq_eq_false_iff_ne] at other
        exact other (ScopedTable.label_of_listed child)
      rw [← valueUnder_child a place child, ← valueUnder_child b place child, others k span found apart]

/-- The children of a root are in the order of the terms on them: a child that is new comes in a row that differs from an
    earlier row in this child only. -/
theorem sorted_children (first : q.plan.RootFirst order) (inStep : q.InStep q.plan.root)
    (sorted : SortedUnder q.plan.scope.columns order rows)
    (coherent : Coherent q.plan.root q.loaders rows) {row : List Value}
    (full : q.loaders.length = 1 ∨ IsProduct q.plan.root q.loaders (sharing q.plan.root rows row)) {i : Nat} {j : Join}
    (here : q.plan.joins[i]? = some j) :
    ∃ span, (spans q.plan.root.width q.loaders)[i]? = some span ∧ span.1.Loads j ∧
      ScopedTable.Sorted ⟨Join.childLabel i, j.child⟩ order
        (firsts span.1.table.identityKey (childParts (sharing q.plan.root rows row) span)) := by
  obtain ⟨span, found, loads, placed⟩ := inStep.child_place here
  refine ⟨span, found, loads, ?_⟩
  have inside : i < q.loaders.length := by
    rw [← length_spans q.plan.root.width]
    exact (List.getElem?_eq_some_iff.1 found).1
  have mine : SortedUnder q.plan.scope.columns order (sharing q.plan.root rows row) :=
    List.Pairwise.sublist List.filter_sublist sorted
  have kept : firsts span.1.table.identityKey (childParts (sharing q.plan.root rows row) span) =
      (firsts (fun other => span.1.table.identityKey (childPart span other)) (sharing q.plan.root rows row)).map
        (childPart span) := firsts_map _ _ _
  rw [ScopedTable.Sorted, SortedUnder, kept, List.pairwise_map]
  apply pairwise_firsts
  intro before b after split new a earlier
  have shares : a ∈ sharing q.plan.root rows row ∧ b ∈ sharing q.plan.root rows row := by
    rw [split]
    exact ⟨List.mem_append_left _ earlier, List.mem_append_right _ List.mem_cons_self⟩
  obtain ⟨exchanged, member, same⟩ := coherent.exists_exchanged full shares.1 shares.2 inside
  have own := same i span found
  rw [if_pos rfl] at own
  have later : exchanged ∈ b :: after := by
    rw [split, List.mem_append] at member
    apply member.resolve_left
    intro early
    apply new
    exact List.mem_map.2 ⟨exchanged, early, congrArg span.1.table.identityKey own⟩
  have comes : Store.precedes (valueUnder q.plan.scope.columns) order a exchanged = true := by
    rw [split, SortedUnder, List.pairwise_append] at mine
    exact mine.2.2 a earlier exchanged later
  rw [← own]
  apply precedes_child first inStep comes _ here placed
  · intro k other found' apart
    have rest := same k other found'
    rw [if_neg apart] at rest
    exact rest.symm
  · rw [mem_sharing_iff] at shares member
    exact coherent.roots a shares.1.1 exchanged member.1 (shares.1.2.trans member.2.symm)

/-- The roots are in the order of the terms on them, and so are the children of each root in every relation, that are
    read from the rows of this root. -/
structure InOrder (q : Query g s) (order : List Sql.OrderTerm) (rows : List (List Value)) (records : List (Loaded g s)) :
    Prop where
  roots : ScopedTable.ReadInOrder ⟨rootLabel, q.plan.root⟩ order (g.shape s).read
    (rows.map fun row => part row 0 q.plan.root.width) (records.map Loaded.record)
  children : ∀ l ∈ records, ∃ row ∈ rows,
    q.plan.root.read (g.shape s).read (part row 0 q.plan.root.width) = .ok l.record ∧
    ∀ i j, q.plan.joins[i]? = some j → ∃ span, (spans q.plan.root.width q.loaders)[i]? = some span ∧
      ∃ children, l.relations[i]? = some (j.relation, ⟨span.1.child, children⟩) ∧
        ScopedTable.ReadInOrder ⟨Join.childLabel i, j.child⟩ order (g.shape span.1.child).read
          (childParts (sharing q.plan.root rows row) span) children

/-- Rows in the order that a query asks for give records in this order, the roots by the terms on the root and the
    children of each by the terms on them. With more than one relation, each root's rows are to be all the combinations
    of its children. -/
theorem Built.hydrates_in_order (built : q.Built) (made : q.plan.orderTerms = .ok order)
    (fit : ∀ row ∈ rows, row.length = q.plan.scope.columns.length)
    (sorted : SortedUnder q.plan.scope.columns order rows)
    (coherent : Coherent q.plan.root q.loaders rows)
    (full : q.plan.joins.length = 1 ∨ ∀ row ∈ rows, IsProduct q.plan.root q.loaders (sharing q.plan.root rows row)) :
    ∃ hydration, rows.foldlM taking (.empty q.plan.root q.loaders) = .ok hydration ∧
      ∀ records : List (Loaded g s), hydration.finish = .ok records → q.InOrder order rows records := by
  have inStep : q.InStep q.plan.root := ⟨rfl, built.fits.loads⟩
  have width : q.plan.scope.columns.length = widthFrom q.plan.root.width q.loaders := by
    rw [length_scope_columns, widthFrom_eq_sum, inStep.spans]
  rw [width] at fit
  have taken := foldlM_taking q.plan.root q.loaders rows [] fit
  refine ⟨_, taken, fun records finished => ?_⟩
  have read := finish_taken built.fits.relations fit taken finished
  have first := built.rootFirst made
  constructor
  · refine ⟨_, ?_, ?_, sorted_roots first sorted⟩
    · rw [mapM_eq_ok, List.forall₂_map_left_iff]
      apply List.forall₂_map_right_iff.2
      exact read.imp fun row l own => own.record
    · exact List.map_subset _ (firsts_sublist _ rows).subset
  · intro l member
    obtain ⟨n, at'⟩ := List.getElem?_of_mem member
    obtain ⟨row, kept, own⟩ := forall₂_getElem? read.flip at'
    have known : row ∈ rows := mem_of_mem_firsts _ (List.mem_of_getElem? kept)
    refine ⟨row, known, own.record, fun i j here => ?_⟩
    have whole : q.loaders.length = 1 ∨ IsProduct q.plan.root q.loaders (sharing q.plan.root rows row) := by
      rw [built.fits.loads.length_eq]
      exact full.imp_right fun all => all row known
    obtain ⟨span, found, loads, inOrder⟩ := sorted_children first inStep sorted coherent whole here
    obtain ⟨entry, related, children, loaded, rfl⟩ := forall₂_getElem? own.relations found
    rw [loads.relation] at related
    refine ⟨span, found, children, related, _, ?_, ?_, inOrder⟩
    · rw [← loads.table]
      exact loaded
    · exact (firsts_sublist _ _).subset

end Query

section Catalogue

def singersByName : Query catalogue singers :=
  ⟨⟨singerTable, [], none, [⟨⟨some "singer", "name"⟩, false⟩], none⟩, []⟩

def tagsByWord : Query catalogue singers :=
  ⟨⟨singerTable, singersWithTags.plan.joins, none,
    [⟨⟨some "singer", "name"⟩, false⟩, ⟨⟨some "tag", "word"⟩, true⟩], none⟩, singersWithTags.loaders⟩

def singersInOrder : Query catalogue singers :=
  ⟨⟨singerTable, singersWithSongs.plan.joins, none,
    [⟨⟨some "singer", "name"⟩, false⟩, ⟨⟨some "tag", "word"⟩, true⟩, ⟨⟨some "song", "id"⟩, false⟩], none⟩,
    singersWithSongs.loaders⟩

def singersOrder : List Sql.OrderTerm :=
  [⟨⟨"t0", "name"⟩, false⟩, ⟨⟨"t1", "word"⟩, true⟩, ⟨⟨"t2", "id"⟩, false⟩]

def orderedRows : List (List Value) :=
  [[.integer 2, .text "Ann", .integer 2, .text "rock", .null, .text "rock", .integer 10, .integer 2],
    [.integer 2, .text "Ann", .integer 2, .text "rock", .null, .text "rock", .integer 11, .integer 2],
    [.integer 2, .text "Ann", .integer 2, .text "jazz", .null, .text "jazz", .integer 10, .integer 2],
    [.integer 2, .text "Ann", .integer 2, .text "jazz", .null, .text "jazz", .integer 11, .integer 2],
    [.integer 1, .text "Bo", .integer 1, .text "rock", .text "loud", .text "rock", .integer 9, .integer 1]]

theorem singersInOrder_built : singersInOrder.Built := by
  have described : (catalogue.shape singers).descriptor = .ok ⟨singerTable, [tags, songs]⟩ := rfl
  have named : singersByName.Built := .order "name" false (.table described)
  have tagged : singersByName.joinPivot ⟨1, by decide⟩ tags "id" "singer" "word" "word" =
      .ok ⟨⟨singerTable, singersWithTags.plan.joins, none, singersByName.plan.order, none⟩, singersWithTags.loaders⟩ := rfl
  have worded : tagsByWord.Built := .order "word" true (.joinPivot named rfl tagged)
  have sung : tagsByWord.join songs "id" "singer" =
      .ok ⟨⟨singerTable, singersWithSongs.plan.joins, none, tagsByWord.plan.order, none⟩, singersWithSongs.loaders⟩ := rfl
  exact .order "id" false (.join worded rfl sung)

theorem product_orderedRows : ∀ row ∈ orderedRows,
    Hydration.IsProduct singerTable singersInOrder.loaders (Hydration.sharing singerTable orderedRows row) := by
  intro row member chosen drawn
  have pairs : ∀ row ∈ orderedRows, ∀ a ∈ Hydration.sharing singerTable orderedRows row,
      ∀ b ∈ Hydration.sharing singerTable orderedRows row, ∃ other ∈ Hydration.sharing singerTable orderedRows row,
        part other 5 1 = part a 5 1 ∧ part other 6 2 = part b 6 2 := by decide
  obtain ⟨other, shares, tag, song⟩ := pairs row member _ (drawn 0) _ (drawn 1)
  refine ⟨other, shares, fun i span found => ?_⟩
  match i with
  | 0 =>
    cases found
    exact congrArg tagTable.identityKey tag
  | 1 =>
    cases found
    exact congrArg songTable.identityKey song
  | i + 2 => cases found

theorem hydrates_in_order_singers : singersInOrder.Built ∧ singersInOrder.plan.orderTerms = .ok singersOrder ∧
    (∀ row ∈ orderedRows, row.length = singersInOrder.plan.scope.columns.length) ∧
    SortedUnder singersInOrder.plan.scope.columns singersOrder orderedRows ∧
    Hydration.Coherent singerTable singersInOrder.loaders orderedRows ∧
    (∀ row ∈ orderedRows,
      Hydration.IsProduct singerTable singersInOrder.loaders (Hydration.sharing singerTable orderedRows row)) ∧
    ∃ hydration records, orderedRows.foldlM Hydration.taking (.empty singerTable singersInOrder.loaders) = .ok hydration ∧
      hydration.finish (s := singers) = .ok records ∧ singersInOrder.InOrder singersOrder orderedRows records ∧
      (records.map fun l => l.relations.map fun entry => entry.2.records.length) = [[2, 2], [1, 1]] := by
  have made : singersInOrder.plan.orderTerms = .ok singersOrder := rfl
  have fit : ∀ row ∈ orderedRows, row.length = singersInOrder.plan.scope.columns.length := by decide
  have sorted : SortedUnder singersInOrder.plan.scope.columns singersOrder orderedRows := by
    unfold SortedUnder
    decide +kernel
  have coherent : Hydration.Coherent singerTable singersInOrder.loaders orderedRows := ⟨by decide, by decide⟩
  obtain ⟨hydration, taken, all⟩ :=
    singersInOrder_built.hydrates_in_order made fit sorted coherent (.inr product_orderedRows)
  have left : orderedRows.foldlM Hydration.taking (.empty singerTable singersInOrder.loaders) =
      .ok (.pushAll (.empty singerTable singersInOrder.loaders) orderedRows) := rfl
  obtain rfl := Except.ok.inj (left.symm.trans taken)
  exact ⟨singersInOrder_built, made, fit, sorted, coherent, product_orderedRows, _, _, left, rfl, all _ rfl, rfl⟩

end Catalogue

end RecordMapper
