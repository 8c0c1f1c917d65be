import RecordMapper.Proofs.Hydration.Grouping
import RecordMapper.Proofs.Query.Combination

namespace RecordMapper

open RecordMapper.Store

variable {c : Content} {p : Plan} {k : Combination}

theorem Store.Content.length_valuesOf (t : Table) (row : StoredRow) : (c.valuesOf t row).length = t.width := by
  rw [Content.valuesOf, List.length_map, Table.columnNames, List.length_map, Table.width]

section Values

def Placed.values (c : Content) (placed : List Placed) : List Value :=
  placed.flatMap fun q => c.valuesOf q.entry.table q.row

def Combination.row (c : Content) (p : Plan) (k : Combination) : List Value :=
  Placed.values c (k.placed c p)

theorem placedFrom_stored {start : Nat} {joins : List Join} {matched : List Match} :
    ∀ q ∈ placedFrom c start joins matched, q.table = c.stored q.entry.table := by
  induction joins generalizing start matched with
  | nil => simp [placedFrom]
  | cons j joins ih =>
    cases matched with
    | nil => simp [placedFrom]
    | cons m matched =>
      intro q member
      rw [placedFrom, List.mem_append] at member
      rcases member with here | later
      · unfold Match.placed at here
        split at here
        · rcases List.mem_pair.1 here with rfl | rfl
          · rfl
          · rfl
        · rw [List.mem_singleton.1 here]
          rfl
      · exact ih q later

theorem Combination.values_row (linked : List.Forall₂ (Join.Links c p.root k.root) p.joins k.matched) :
    p.scope.columns.map (Bindings.value ((k.placed c p).map Placed.binding)) = k.row c p := by
  have all := Combination.placed_entries linked
  have labels : ((k.placed c p).map fun q => q.entry.label).Nodup := by
    have distinct := nodup_labels p
    rwa [← all, List.map_map] at distinct
  rw [Scope.columns, ← all, List.flatMap_map, List.map_flatMap, Combination.row, Placed.values]
  refine List.flatMap_congr fun q member => ?_
  have stored : q.table = c.stored q.entry.table := by
    rcases List.mem_cons.1 member with rfl | later
    · rfl
    · exact placedFrom_stored q later
  rw [List.map_map, Content.valuesOf]
  refine List.map_congr_left fun name _ => ?_
  rw [Function.comp_apply, Bindings.value, Bindings.cell, find?_label labels member, Content.cell, Placed.cell,
    Content.place, ← stored]
  rfl

end Values

section Spans

variable {n : Nat}

structure Loader.Loads (l : Loader n) (j : Join) : Prop where
  relation : l.relation = j.relation
  table : l.table = j.child
  gap : l.gap = (j.pivot?.map Table.width).getD 0

theorem part_append (before values after : List Value) :
    part (before ++ values ++ after) before.length values.length = values := by
  rw [part, List.append_assoc, List.drop_left, List.take_left]

theorem values_placed {l : Loader n} {j : Join} {m : Match} {root : Table} {row : StoredRow} (loads : l.Loads j)
    (links : j.Links c root row m) (position : Nat) :
    ∃ between, between.length = l.gap ∧
      Placed.values c (m.placed c position j) = between ++ c.valuesOf l.table m.child := by
  obtain ⟨-, table, gap⟩ := loads
  rcases j with ⟨relation, child, _ | ⟨pivot, parentKey, pivotParentKey, childKey, pivotChildKey⟩⟩
  · refine ⟨[], gap.symm, ?_⟩
    rw [table, List.nil_append]
    exact List.append_nil _
  · obtain ⟨-, between, -, same, -⟩ := links
    refine ⟨c.valuesOf pivot between, ?_, ?_⟩
    · rw [Content.length_valuesOf, gap]
      rfl
    · rw [Match.placed, same, table]
      show _ ++ (_ ++ []) = _
      rw [List.append_nil]
      rfl

theorem parts_spans {loaders : List (Loader n)} {joins : List Join} {matched : List Match} {root : Table}
    {row : StoredRow} (loads : List.Forall₂ Loader.Loads loaders joins)
    (linked : List.Forall₂ (Join.Links c root row) joins matched) (start : Nat) (before : List Value) :
    (before ++ Placed.values c (placedFrom c start joins matched)).length =
        Hydration.widthFrom before.length loaders ∧
      List.Forall₂ (fun span m => part (before ++ Placed.values c (placedFrom c start joins matched)) span.2
          span.1.table.width = c.valuesOf span.1.table m.child)
        (Hydration.spans before.length loaders) matched := by
  induction loads generalizing start before matched with
  | nil =>
    cases linked
    exact ⟨by simp [placedFrom, Placed.values, Hydration.widthFrom], .nil⟩
  | cons loads rest ih =>
    rename_i l j loaders joins
    cases linked with
    | cons links linked =>
      rename_i m matched
      obtain ⟨between, gap, values⟩ := values_placed loads links start
      have later := ih linked (start + 1) (before ++ between ++ c.valuesOf l.table m.child)
      have split : before ++ Placed.values c (placedFrom c start (j :: joins) (m :: matched)) =
          before ++ between ++ c.valuesOf l.table m.child ++
            Placed.values c (placedFrom c (start + 1) joins matched) := by
        rw [placedFrom, Placed.values, List.flatMap_append, ← Placed.values, ← Placed.values, values]
        simp only [List.append_assoc]
      have width : (before ++ between ++ c.valuesOf l.table m.child).length =
          before.length + l.gap + l.table.width := by
        rw [List.length_append, List.length_append, gap, Content.length_valuesOf]
      rw [width] at later
      rw [split]
      refine ⟨later.1, .cons ?_ later.2⟩
      have mine := part_append (before ++ between) (c.valuesOf l.table m.child)
        (Placed.values c (placedFrom c (start + 1) joins matched))
      rwa [List.length_append, gap, Content.length_valuesOf] at mine

/-- Each combination's row has the width of the loaders' spans, which hold the children's values. -/
theorem Combination.parts_row {loaders : List (Loader n)} (loads : List.Forall₂ Loader.Loads loaders p.joins)
    (linked : List.Forall₂ (Join.Links c p.root k.root) p.joins k.matched) :
    (k.row c p).length = Hydration.widthFrom p.root.width loaders ∧
      part (k.row c p) 0 p.root.width = c.valuesOf p.root k.root ∧
      List.Forall₂ (fun span m => part (k.row c p) span.2 span.1.table.width = c.valuesOf span.1.table m.child)
        (Hydration.spans p.root.width loaders) k.matched := by
  have spans := parts_spans loads linked 0 (c.valuesOf p.root k.root)
  have root := part_append [] (c.valuesOf p.root k.root) (Placed.values c (placedFrom c 0 p.joins k.matched))
  rw [Content.length_valuesOf] at spans root
  exact ⟨spans.1, root, spans.2⟩

end Spans

section All

theorem exists_preimages {α β : Type} {f : α → β} {good : α → Prop} {images : List β}
    (all : ∀ b ∈ images, ∃ a, good a ∧ b = f a) :
    ∃ origins : List α, (∀ a ∈ origins, good a) ∧ images = origins.map f := by
  induction images with
  | nil => exact ⟨[], by simp, rfl⟩
  | cons b images ih =>
    obtain ⟨a, holds, rfl⟩ := all b List.mem_cons_self
    obtain ⟨origins, others, rfl⟩ := ih fun b member => all b (List.mem_cons_of_mem _ member)
    refine ⟨a :: origins, ?_, rfl⟩
    simpa using ⟨holds, others⟩

theorem placed_inj {root : Table} {row : StoredRow} {j : Join} {m other : Match} (links : j.Links c root row m)
    (also : j.Links c root row other) {position : Nat}
    (same : (m.placed c position j).map Placed.row = (other.placed c position j).map Placed.row) : m = other := by
  obtain ⟨pivot, child⟩ := m
  obtain ⟨pivot', child'⟩ := other
  rcases j with ⟨relation, child, _ | _⟩
  · obtain ⟨-, none, -⟩ := links
    obtain ⟨-, none', -⟩ := also
    have children := List.head_eq_of_cons_eq same
    exact congrArg₂ Match.mk (none.trans none'.symm) children
  · obtain ⟨-, between, -, rfl, -⟩ := links
    obtain ⟨-, between', -, rfl, -⟩ := also
    have pivots : between = between' := List.head_eq_of_cons_eq same
    have children := List.head_eq_of_cons_eq (List.tail_eq_of_cons_eq same)
    exact congrArg₂ Match.mk (congrArg some pivots) children

theorem placedFrom_inj {root : Table} {row : StoredRow} {joins : List Join} {matched others : List Match}
    (linked : List.Forall₂ (Join.Links c root row) joins matched)
    (also : List.Forall₂ (Join.Links c root row) joins others) {start : Nat}
    (same : (placedFrom c start joins matched).map Placed.row = (placedFrom c start joins others).map Placed.row) :
    matched = others := by
  induction linked generalizing start others with
  | nil =>
    cases also
    rfl
  | cons links linked ih =>
    rename_i j m joins matched
    cases also with
    | cons also rest =>
      rename_i m' others
      have long : ((m.placed c start j).map Placed.row).length = ((m'.placed c start j).map Placed.row).length := by
        have entries := congrArg List.length ((placed_entries links start).trans (placed_entries also start).symm)
        simpa using entries
      rw [placedFrom, placedFrom, List.map_append, List.map_append] at same
      obtain ⟨here, later⟩ := List.append_inj same long
      rw [placed_inj links also here, ih rest later]

theorem Combination.placed_inj {k' : Combination}
    (linked : List.Forall₂ (Join.Links c p.root k.root) p.joins k.matched)
    (also : List.Forall₂ (Join.Links c p.root k'.root) p.joins k'.matched)
    (same : (k.placed c p).map Placed.binding = (k'.placed c p).map Placed.binding) : k = k' := by
  have rows : (k.placed c p).map Placed.row = (k'.placed c p).map Placed.row := by
    have mapped := congrArg (List.map Binding.row) same
    rwa [List.map_map, List.map_map] at mapped
  obtain ⟨root, matched⟩ := k
  obtain ⟨root', matched'⟩ := k'
  have roots : root = root' := List.head_eq_of_cons_eq rows
  subst roots
  exact congrArg (Combination.mk root) (placedFrom_inj linked also (List.tail_eq_of_cons_eq rows))

theorem exists_combinations {rows : Sql.Rows} (order : List Sql.OrderTerm) (compiled : p.rows = .ok rows) :
    ∃ all : List Combination, (∀ k, k ∈ all ↔ k.Satisfies c p) ∧
      Store.select c p.scope.columns rows order none = all.map fun k => k.row c p := by
  have sorted : ∀ b, b ∈ (combinations c rows).mergeSort (inOrder order) ↔
      ∃ k : Combination, k.Satisfies c p ∧ b = (k.placed c p).map Placed.binding := by
    intro b
    rw [List.mem_mergeSort, mem_combinations compiled]
  obtain ⟨all, satisfy, bindings⟩ := exists_preimages fun b member => (sorted b).1 member
  refine ⟨all, fun k => ⟨satisfy k, fun satisfies => ?_⟩, ?_⟩
  · have member := (sorted _).2 ⟨k, satisfies, rfl⟩
    rw [bindings] at member
    obtain ⟨k', known, same⟩ := List.mem_map.1 member
    rwa [← Combination.placed_inj (satisfy k' known).linked satisfies.linked same]
  · rw [Store.select, windowed, bindings, List.map_map]
    refine List.map_congr_left fun k known => ?_
    exact Combination.values_row (satisfy k known).linked

end All

end RecordMapper
