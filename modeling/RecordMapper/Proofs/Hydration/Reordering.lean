import Mathlib.Data.List.Perm.Basic
import RecordMapper.Proofs.Hydration.Records

namespace RecordMapper

variable {g : ShapeGraph} {s : Fin g.size}

inductive Children.Reordered : Children g → Children g → Prop where
  | intro {child : Fin g.size} {records others : List (g.shape child).Record} (perm : records.Perm others) :
    Reordered ⟨child, records⟩ ⟨child, others⟩

structure Loaded.Reordered (l other : Loaded g s) : Prop where
  record : l.record = other.record
  relations : List.Forall₂ (fun a b => a.1 = b.1 ∧ a.2.Reordered b.2) l.relations other.relations

theorem forall₂_beside {α β γ : Type} {R : α → β → Prop} {S : α → γ → Prop} {as : List α} {bs : List β} {cs : List γ}
    (first : List.Forall₂ R as bs) (second : List.Forall₂ S as cs) :
    List.Forall₂ (fun b c => ∃ a ∈ as, R a b ∧ S a c) bs cs := by
  induction first generalizing cs with
  | nil =>
    cases second
    exact .nil
  | cons here rest ih =>
    cases second with
    | cons also others =>
      apply List.Forall₂.cons
      · exact ⟨_, List.mem_cons_self, here, also⟩
      · apply (ih others).imp
        rintro b c ⟨a, member, related⟩
        exact ⟨a, List.mem_cons_of_mem _ member, related⟩

namespace Hydration

variable {root : Table} {loaders : List (Loader g.size)} {rows others : List (List Value)}

def childPart {n : Nat} (span : Loader n × Nat) (row : List Value) : List Value :=
  part row span.2 span.1.table.width

/-- Rows of one root identity have one root part, and for each child identity among them there is one child part. -/
structure Coherent {n : Nat} (root : Table) (loaders : List (Loader n)) (rows : List (List Value)) : Prop where
  roots : ∀ a ∈ rows, ∀ b ∈ rows, rootKey root a = rootKey root b → part a 0 root.width = part b 0 root.width
  children : ∀ a ∈ rows, ∀ b ∈ rows, rootKey root a = rootKey root b → ∀ span ∈ spans root.width loaders,
    span.1.table.identityKey (childPart span a) = span.1.table.identityKey (childPart span b) →
    childPart span a = childPart span b

theorem Coherent.mono (coherent : Coherent root loaders rows) (fewer : ∀ row ∈ others, row ∈ rows) :
    Coherent root loaders others :=
  ⟨fun a first b second => coherent.roots a (fewer a first) b (fewer b second),
    fun a first b second => coherent.children a (fewer a first) b (fewer b second)⟩

theorem rootKey_eq_of_part {a b : List Value} (same : part a 0 root.width = part b 0 root.width) :
    rootKey root a = rootKey root b := by
  rw [rootKey, same, rootKey]

theorem mem_sharing_iff {first row : List Value} :
    row ∈ sharing root rows first ↔ row ∈ rows ∧ rootKey root row = rootKey root first := by
  rw [sharing, List.mem_filter, decide_eq_true_iff]

theorem mem_childParts_sharing (same : ∀ row, row ∈ rows ↔ row ∈ others) {first other : List Value}
    (key : rootKey root first = rootKey root other) (span : Loader g.size × Nat) (values : List Value) :
    values ∈ childParts (sharing root rows first) span ↔ values ∈ childParts (sharing root others other) span := by
  simp only [childParts, List.mem_map, mem_sharing_iff, same, key]

theorem Coherent.firsts_childParts (coherent : Coherent root loaders rows) (same : ∀ row, row ∈ rows ↔ row ∈ others)
    {first other : List Value} (key : rootKey root first = rootKey root other) {span : Loader g.size × Nat}
    (listed : span ∈ spans root.width loaders) :
    (firsts span.1.table.identityKey (childParts (sharing root rows first) span)).Perm
      (firsts span.1.table.identityKey (childParts (sharing root others other) span)) := by
  apply firsts_perm
  · exact mem_childParts_sharing same key span
  · intro values first second also
    obtain ⟨a, mine, rfl⟩ := List.mem_map.1 first
    obtain ⟨b, alike, rfl⟩ := List.mem_map.1 also
    rw [mem_sharing_iff] at mine alike
    exact coherent.children a mine.1 b alike.1 (mine.2.trans alike.2.symm) span listed

theorem Coherent.firsts_roots (coherent : Coherent root loaders rows) (same : ∀ row, row ∈ rows ↔ row ∈ others) :
    ((firsts (rootKey root) rows).map fun row => part row 0 root.width).Perm
      ((firsts (rootKey root) others).map fun row => part row 0 root.width) := by
  have parts (rows : List (List Value)) : ((firsts (rootKey root) rows).map fun row => part row 0 root.width) =
      firsts root.identityKey (rows.map fun row => part row 0 root.width) :=
    (firsts_map root.identityKey (fun row => part row 0 root.width) rows).symm
  rw [parts, parts]
  apply firsts_perm
  · intro values
    simp only [List.mem_map, same]
  · intro values first second also
    obtain ⟨a, mine, rfl⟩ := List.mem_map.1 first
    obtain ⟨b, alike, rfl⟩ := List.mem_map.1 also
    exact coherent.roots a mine b alike

theorem Coherent.unread (coherent : Coherent root loaders rows) (same : ∀ row, row ∈ rows ↔ row ∈ others)
    {first other : List Value} (here : first ∈ rows) (there : other ∈ rows)
    (key : rootKey root first = rootKey root other)
    (unread : Group.Unread s root loaders (sharing root others other) other) :
    Group.Unread s root loaders (sharing root rows first) first := by
  rcases unread with misfit | ⟨span, listed, values, kept, misfit⟩
  · rw [← coherent.roots first here other there key] at misfit
    exact .inl misfit
  · have also := (coherent.firsts_childParts same key listed).mem_iff.2 kept
    exact .inr ⟨span, listed, values, also, misfit⟩

theorem Coherent.reordered (coherent : Coherent root loaders rows) (same : ∀ row, row ∈ rows ↔ row ∈ others)
    {first other : List Value} {l l' : Loaded g s} (values : part first 0 root.width = part other 0 root.width)
    (read : Group.Read root loaders (sharing root rows first) first l)
    (also : Group.Read root loaders (sharing root others other) other l') : l.Reordered l' := by
  have key := rootKey_eq_of_part values
  constructor
  · have record := read.record
    rw [values] at record
    exact Except.ok.inj (record.symm.trans also.record)
  · apply (forall₂_beside read.relations also.relations).imp
    rintro _ _ ⟨span, listed, ⟨records, loaded, rfl⟩, ⟨records', loaded', rfl⟩⟩
    constructor
    · rfl
    · apply Children.Reordered.intro
      exact mapM_perm (coherent.firsts_childParts same key listed) loaded loaded'

theorem exists_finish_iff (s : Fin g.size) (root : Table) (loaders : List (Loader g.size)) (rows : List (List Value)) :
    (∃ records, finish (s := s) ⟨root, loaders, groupsOf root loaders rows⟩ = .ok records) ↔
      ∀ first ∈ firsts (rootKey root) rows, ¬Group.Unread s root loaders (sharing root rows first) first := by
  rw [finish, exists_mapM_iff]
  simp only [← isOk_iff, ← readGroup_fails (groupsOf root loaders rows), Bool.not_eq_false]
  exact List.forall_mem_map

theorem Coherent.finishes (coherent : Coherent root loaders rows) (same : ∀ row, row ∈ rows ↔ row ∈ others)
    (finishes : ∃ records, finish (s := s) ⟨root, loaders, groupsOf root loaders rows⟩ = .ok records) :
    ∃ records, finish (s := s) ⟨root, loaders, groupsOf root loaders others⟩ = .ok records := by
  rw [exists_finish_iff] at finishes ⊢
  intro other kept unread
  have there := (same other).2 (mem_of_mem_firsts _ kept)
  obtain ⟨first, mine, key⟩ := exists_first (rootKey root) there
  apply finishes first mine
  exact coherent.unread same (mem_of_mem_firsts _ mine) there key unread

theorem read_byRoot {kept : List (List Value)} {records : List (Loaded g s)}
    (read : List.Forall₂ (fun first l => Group.Read root loaders (sharing root rows first) first l) kept records) :
    List.Forall₂ (fun values l => ∃ first, part first 0 root.width = values ∧
      Group.Read root loaders (sharing root rows first) first l)
      (kept.map fun row => part row 0 root.width) records := by
  rw [List.forall₂_map_left_iff]
  exact read.imp fun first l own => ⟨first, rfl, own⟩

/-- What comes out of rows depends neither on their order nor on how often each of them comes: records come out of both
    lists or of neither, and they are the same up to the order of the roots and of the children. -/
theorem finish_unordered (s : Fin g.size) (root : Table) (loaders : List (Loader g.size))
    (distinct : (loaders.map Loader.relation).Nodup) (rows others : List (List Value))
    (fit : ∀ row ∈ rows, row.length = root.width + (loaders.map Loader.span).sum)
    (same : ∀ row, row ∈ rows ↔ row ∈ others) (coherent : Coherent root loaders rows) :
    ∃ hydration other, rows.foldlM taking (empty root loaders) = .ok hydration ∧
      others.foldlM taking (empty root loaders) = .ok other ∧
      ((∃ records, hydration.finish (s := s) = .ok records) ↔ ∃ records, other.finish (s := s) = .ok records) ∧
      ∀ records records', hydration.finish (s := s) = .ok records → other.finish = .ok records' →
        ∃ reordered, List.Forall₂ Loaded.Reordered records reordered ∧ reordered.Perm records' := by
  simp only [← widthFrom_eq_sum] at fit
  have also : ∀ row ∈ others, row.length = widthFrom root.width loaders := fun row member => fit row ((same row).2 member)
  have taken := foldlM_taking root loaders rows [] fit
  have taken' := foldlM_taking root loaders others [] also
  rw [List.nil_append] at taken taken'
  refine ⟨_, _, taken, taken', ?_, ?_⟩
  · constructor
    · exact coherent.finishes same
    · exact (coherent.mono fun row => (same row).2).finishes fun row => (same row).symm
  · intro records records' finished finished'
    have read := finish_taken distinct fit taken finished
    have read' := finish_taken distinct also taken' finished'
    -- Both lists of records go by root parts, and those are the same up to their order.
    obtain ⟨reordered, here, perm⟩ := List.perm_comp_forall₂ (coherent.firsts_roots same) (read_byRoot read')
    refine ⟨reordered, ?_, perm⟩
    apply (forall₂_beside (read_byRoot read) here).imp
    rintro l l' ⟨_, -, ⟨first, rfl, own⟩, ⟨other, values, own'⟩⟩
    exact coherent.reordered same values.symm own own'

end Hydration

theorem finish_unordered_singers :
    (singersWithSongs.loaders.map Loader.relation).Nodup ∧
    (∀ row ∈ singersRows, row.length = singerTable.width + (singersWithSongs.loaders.map Loader.span).sum) ∧
    (∀ row, row ∈ singersRows ↔ row ∈ singersRows.drop 1 ++ singersRows) ∧
    Hydration.Coherent singerTable singersWithSongs.loaders singersRows ∧
    ∃ hydration other records records',
      singersRows.foldlM Hydration.taking (.empty singerTable singersWithSongs.loaders) = .ok hydration ∧
      (singersRows.drop 1 ++ singersRows).foldlM Hydration.taking (.empty singerTable singersWithSongs.loaders) =
        .ok other ∧
      hydration.finish (s := singers) = .ok records ∧ other.finish = .ok records' ∧
      (∃ reordered, List.Forall₂ Loaded.Reordered records reordered ∧ reordered.Perm records') ∧
      (records.map fun l => l.relations.map fun entry => entry.2.records.length) = [[2, 2], [1, 1]] ∧
      (records'.map fun l => l.relations.map fun entry => entry.2.records.length) = [[1, 1], [2, 2]] := by
  have distinct : (singersWithSongs.loaders.map Loader.relation).Nodup := by decide
  have fit : ∀ row ∈ singersRows,
      row.length = singerTable.width + (singersWithSongs.loaders.map Loader.span).sum := by decide
  have same : ∀ row, row ∈ singersRows ↔ row ∈ singersRows.drop 1 ++ singersRows := by
    intro row
    rw [List.mem_append]
    exact ⟨.inr, fun either => either.elim List.mem_of_mem_drop id⟩
  have coherent : Hydration.Coherent singerTable singersWithSongs.loaders singersRows := ⟨by decide, by decide⟩
  obtain ⟨hydration, other, taken, taken', -, all⟩ :=
    Hydration.finish_unordered singers singerTable singersWithSongs.loaders distinct singersRows _ fit same coherent
  have first : singersRows.foldlM Hydration.taking (.empty singerTable singersWithSongs.loaders) =
      .ok (.pushAll (.empty singerTable singersWithSongs.loaders) singersRows) := rfl
  have second : (singersRows.drop 1 ++ singersRows).foldlM Hydration.taking
      (.empty singerTable singersWithSongs.loaders) =
      .ok (.pushAll (.empty singerTable singersWithSongs.loaders) (singersRows.drop 1 ++ singersRows)) := rfl
  obtain rfl := Except.ok.inj (first.symm.trans taken)
  obtain rfl := Except.ok.inj (second.symm.trans taken')
  exact ⟨distinct, fit, same, coherent, _, _, _, _, first, second, rfl, rfl, all _ _ rfl rfl, rfl, rfl⟩

end RecordMapper
