import RecordMapper.Proofs.Hydration.Grouping
import RecordMapper.Proofs.Outcome

namespace RecordMapper

variable {g : ShapeGraph} {s : Fin g.size}

theorem Loaded.relations_assign {l : Loaded g s} {relation : String} (children : Children g)
    (new : relation ∉ l.relations.map Prod.fst) :
    (l.assign relation children).relations = l.relations ++ [(relation, children)] := by
  have all : l.relations.filter (·.1 != relation) = l.relations := by
    rw [List.filter_eq_self]
    intro entry member
    rw [bne_iff_ne]
    intro same
    exact new (same ▸ List.mem_map_of_mem member)
  rw [assign, all]

def Loader.Reads (loader : Loader g.size) (parts : List (List Value)) (entry : String × Children g) : Prop :=
  ∃ records, parts.mapM (loader.table.read (g.shape loader.child).read) = .ok records ∧
    entry = (loader.relation, ⟨loader.child, records⟩)

namespace Hydration

theorem load_eq_ok {l after : Loaded g s} {loader : Loader g.size} {seen : Seen (List Value)}
    (loaded : load l loader seen = .ok after) (new : loader.relation ∉ l.relations.map Prod.fst) :
    after.record = l.record ∧
      ∃ entry, loader.Reads (seen.map Prod.snd) entry ∧ after.relations = l.relations ++ [entry] := by
  simp only [load, bind_eq_ok, pure_eq_ok] at loaded
  obtain ⟨records, read, rfl⟩ := loaded
  exact ⟨rfl, _, ⟨records, read, rfl⟩, Loaded.relations_assign _ new⟩

theorem foldlM_load {parts : List (Loader g.size × Seen (List Value))} {l after : Loaded g s}
    (loaded : parts.foldlM (fun l part => load l part.1 part.2) l = .ok after)
    (distinct : (l.relations.map Prod.fst ++ parts.map fun part => part.1.relation).Nodup) :
    after.record = l.record ∧
      ∃ entries, after.relations = l.relations ++ entries ∧
        List.Forall₂ (fun part entry => Loader.Reads part.1 (part.2.map Prod.snd) entry) parts entries := by
  induction parts generalizing l with
  | nil =>
    obtain rfl := pure_eq_ok.1 loaded
    exact ⟨rfl, [], (List.append_nil _).symm, .nil⟩
  | cons part parts ih =>
    rw [List.foldlM_cons, bind_eq_ok] at loaded
    obtain ⟨next, first, rest⟩ := loaded
    have new : part.1.relation ∉ l.relations.map Prod.fst := by
      intro known
      exact (List.nodup_append.1 distinct).2.2 _ known _ (by simp) rfl
    obtain ⟨same, entry, read, grown⟩ := load_eq_ok first new
    have name : entry.1 = part.1.relation := by
      obtain ⟨records, -, rfl⟩ := read
      rfl
    have later : (next.relations.map Prod.fst ++ parts.map fun part => part.1.relation).Nodup := by
      rw [grown, List.map_append, List.map_singleton, name, List.append_assoc]
      exact distinct
    obtain ⟨record, entries, relations, reads⟩ := ih rest later
    refine ⟨record.trans same, entry :: entries, ?_, .cons read reads⟩
    rw [relations, grown, List.append_assoc, List.singleton_append]

variable {root : Table} {loaders : List (Loader g.size)}

/-- What a record reads of the rows that share its root. -/
structure Group.Read (root : Table) (loaders : List (Loader g.size)) (rows : List (List Value))
    (first : List Value) (l : Loaded g s) : Prop where
  record : root.read (g.shape s).read (part first 0 root.width) = .ok l.record
  relations : List.Forall₂ (fun span entry =>
    Loader.Reads span.1 (firsts span.1.table.identityKey (childParts rows span)) entry)
    (spans root.width loaders) l.relations

theorem zip_childrenOf (rows : List (List Value)) (offset : Nat) (loaders : List (Loader g.size)) :
    loaders.zip (childrenOf rows offset loaders) =
      (spans offset loaders).map fun span => (span.1, Seen.collect span.1.table (childParts rows span)) := by
  have zipped : ((spans offset loaders).map Prod.fst).zip (childrenOf rows offset loaders) = _ := List.zip_map'
  rwa [map_spans] at zipped

theorem map_collect (t : Table) (parts : List (List Value)) :
    (Seen.collect t parts).map Prod.snd = firsts t.identityKey parts := by
  rw [Seen.collect, List.map_map]
  exact List.map_id _

theorem readGroup_eq_ok {groups : Seen Group} {rows : List (List Value)} {first : List Value} {l : Loaded g s}
    (distinct : (loaders.map Loader.relation).Nodup)
    (read : readGroup ⟨root, loaders, groups⟩ (groupOf root loaders rows first) = .ok l) :
    Group.Read root loaders (rows.filter fun row => rootKey root row = rootKey root first) first l := by
  simp only [readGroup, groupOf, bind_eq_ok, Loaded.readOne] at read
  obtain ⟨start, found, rest⟩ := read
  rcases read : root.read (g.shape s).read (part first 0 root.width) with misfit | record
  · rw [read] at found
    cases found
  · rw [read] at found
    cases found
    rw [zip_childrenOf] at rest
    obtain ⟨same, entries, relations, reads⟩ := foldlM_load rest (by
      rw [List.map_map]
      rw [← map_spans root.width loaders, List.map_map] at distinct
      exact distinct)
    rw [List.forall₂_map_left_iff] at reads
    simp only [map_collect] at reads
    constructor
    · rw [read, same]
      rfl
    · rw [relations]
      exact reads

/-- The records of the groups that rows of the right width leave. -/
theorem finish_taken {rows : List (List Value)} {hydration : Hydration g.size} {records : List (Loaded g s)}
    (distinct : (loaders.map Loader.relation).Nodup)
    (fit : ∀ row ∈ rows, row.length = widthFrom root.width loaders)
    (taken : rows.foldlM taking (empty root loaders) = .ok hydration) (finished : hydration.finish = .ok records) :
    List.Forall₂ (fun first l =>
      Group.Read root loaders (rows.filter fun row => rootKey root row = rootKey root first) first l)
      (firsts (rootKey root) rows) records := by
  have folded := foldlM_taking root loaders rows [] fit
  rw [List.nil_append] at folded
  obtain rfl := Except.ok.inj (folded.symm.trans taken)
  rw [finish, mapM_eq_ok, groupsOf, grouped, List.forall₂_map_left_iff] at finished
  exact finished.imp fun first l read => readGroup_eq_ok distinct read

end Hydration

end RecordMapper
