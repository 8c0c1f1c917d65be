import RecordMapper.Proofs.Hydration.Loading
import RecordMapper.Proofs.Query.Layout

namespace RecordMapper

variable {g : ShapeGraph} {s : Fin g.size}

namespace Hydration

theorem isOk_load (l : Loaded g s) (loader : Loader g.size) (seen : Seen (List Value)) :
    (load l loader seen).isOk =
      (seen.map Prod.snd).all fun values => (loader.table.read (g.shape loader.child).read values).isOk := by
  rw [← isOk_mapM, load]
  cases (seen.map Prod.snd).mapM (loader.table.read (g.shape loader.child).read) <;> rfl

theorem isOk_foldlM_load (parts : List (Loader g.size × Seen (List Value))) (l : Loaded g s) :
    (parts.foldlM (fun l part => load l part.1 part.2) l).isOk =
      parts.all fun part => (part.2.map Prod.snd).all fun values =>
        (part.1.table.read (g.shape part.1.child).read values).isOk := by
  induction parts generalizing l with
  | nil => rfl
  | cons part parts ih =>
    rw [List.foldlM_cons, List.all_cons, ← isOk_load l]
    cases load l part.1 part.2 with
    | error misfit => rfl
    | ok next => exact ih next

variable {root : Table} {loaders : List (Loader g.size)}

def sharing (root : Table) (rows : List (List Value)) (first : List Value) : List (List Value) :=
  rows.filter fun row => rootKey root row = rootKey root first

def Group.Unread (s : Fin g.size) (root : Table) (loaders : List (Loader g.size)) (rows : List (List Value))
    (first : List Value) : Prop :=
  (∃ misfit, root.read (g.shape s).read (part first 0 root.width) = .error misfit) ∨
    ∃ span ∈ spans root.width loaders, ∃ values ∈ firsts span.1.table.identityKey (childParts rows span),
      ∃ misfit, span.1.table.read (g.shape span.1.child).read values = .error misfit

theorem readGroup_fails (groups : Seen Group) (rows : List (List Value)) (first : List Value) :
    (readGroup (s := s) ⟨root, loaders, groups⟩ (groupOf root loaders rows first)).isOk = false ↔
      Group.Unread s root loaders (sharing root rows first) first := by
  unfold Group.Unread
  rcases read : root.read (g.shape s).read (part first 0 root.width) with misfit | record
  · have failed : readGroup (s := s) ⟨root, loaders, groups⟩ (groupOf root loaders rows first) = .error misfit := by
      simp only [readGroup, groupOf, Loaded.readOne, read]
      rfl
    rw [failed]
    simp [Except.isOk, Except.toBool]
  · have opened : readGroup (s := s) ⟨root, loaders, groups⟩ (groupOf root loaders rows first) =
        (loaders.zip (childrenOf (sharing root rows first) root.width loaders)).foldlM
          (fun l part => load l part.1 part.2) (Loaded.unrelated record) := by
      simp only [readGroup, groupOf, Loaded.readOne, read]
      rfl
    rw [opened, isOk_foldlM_load, zip_childrenOf, List.all_map]
    simp only [Function.comp_def, map_collect, List.all_eq_false, Bool.not_eq_true, isOk_eq_false_iff, reduceCtorEq,
      exists_false, false_or]

/-- Rows that have come one after the other are taken exactly if each has the width of the layout. Their records are one
    for each root identity, in the order in which identities are first seen: the first row's root, and of each relation
    the first child of each identity among the rows that share the root. None comes out exactly if one of these does not
    read. -/
theorem pushed_records (s : Fin g.size) (root : Table) (loaders : List (Loader g.size))
    (distinct : (loaders.map Loader.relation).Nodup) :
    (∀ before row, ((pushAll (empty root loaders) before).push row).1 = .ok () ↔
      row.length = root.width + (loaders.map Loader.span).sum) ∧
    ∀ rows : List (List Value), (∀ row ∈ rows, row.length = root.width + (loaders.map Loader.span).sum) →
      ((∃ misfit, (pushAll (empty root loaders) rows).finish (s := s) = .error misfit) ↔
        ∃ first ∈ firsts (rootKey root) rows, Group.Unread s root loaders (sharing root rows first) first) ∧
      ∀ records, (pushAll (empty root loaders) rows).finish (s := s) = .ok records →
        List.Forall₂ (fun first l => Group.Read root loaders (sharing root rows first) first l)
          (firsts (rootKey root) rows) records := by
  refine ⟨push_pushAll_iff root loaders, fun rows fit => ?_⟩
  rw [← widthFrom_eq_sum] at fit
  have pushed := pushAll_groupsOf root loaders [] rows fit
  rw [List.nil_append] at pushed
  have groups : pushAll (empty root loaders) rows = ⟨root, loaders, groupsOf root loaders rows⟩ := pushed
  rw [groups, finish, groupsOf, grouped]
  constructor
  · rw [← isOk_eq_false_iff, isOk_mapM, List.all_map, List.all_eq_false]
    simp only [Function.comp_apply, Bool.not_eq_true, readGroup_fails]
  · intro records finished
    rw [mapM_eq_ok, List.forall₂_map_left_iff] at finished
    exact finished.imp fun first l read => readGroup_eq_ok distinct read

end Hydration

section Catalogue

def singersRows : List (List Value) :=
  [[.integer 1, .text "Ann", .integer 1, .text "rock", .null, .text "rock", .integer 10, .integer 1],
    [.integer 2, .text "Bo", .integer 2, .text "rock", .text "loud", .text "rock", .integer 20, .integer 2],
    [.integer 1, .text "Ann", .integer 1, .text "jazz", .null, .text "jazz", .integer 10, .integer 1],
    [.integer 1, .text "Ann", .integer 1, .text "rock", .null, .text "rock", .integer 11, .integer 1]]

theorem pushed_records_singers :
    (singersWithSongs.loaders.map Loader.relation).Nodup ∧
    (∀ row ∈ singersRows, row.length = singerTable.width + (singersWithSongs.loaders.map Loader.span).sum) ∧
    ∃ records, (Hydration.pushAll (.empty singerTable singersWithSongs.loaders) singersRows).finish (s := singers) =
        .ok records ∧
      List.Forall₂ (fun first l => Hydration.Group.Read singerTable singersWithSongs.loaders
        (Hydration.sharing singerTable singersRows first) first l)
        (firsts (Hydration.rootKey singerTable) singersRows) records ∧
      (records.map fun l => l.relations.map fun entry => (entry.1, entry.2.records.length)) =
        [[("tags", 2), ("songs", 2)], [("tags", 1), ("songs", 1)]] := by
  have distinct : (singersWithSongs.loaders.map Loader.relation).Nodup := by decide
  have fit : ∀ row ∈ singersRows,
      row.length = singerTable.width + (singersWithSongs.loaders.map Loader.span).sum := by decide
  obtain ⟨-, all⟩ := Hydration.pushed_records singers singerTable singersWithSongs.loaders distinct
  obtain ⟨-, grouped⟩ := all singersRows fit
  exact ⟨distinct, fit, _, rfl, grouped _ rfl, rfl⟩

end Catalogue

end RecordMapper
