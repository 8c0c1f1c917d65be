import Mathlib.Data.List.Nodup
import RecordMapper.Hydration
import RecordMapper.Proofs.Hydration.Firsts

namespace RecordMapper

/-- Representative of an identity: identities are the same exactly if their keys are equal. -/
def Table.identityKey (t : Table) (values : List Value) : List Value :=
  (t.identity values).map Value.normal

theorem sameRow_identity (t : Table) (a b : List Value) :
    Value.sameRow (t.identity a) (t.identity b) = true ↔ t.identityKey a = t.identityKey b :=
  Value.sameRow_iff _ _

def part (row : List Value) (start length : Nat) : List Value :=
  (row.drop start).take length

theorem slice_eq_part {row : List Value} {start length : Nat} (fits : start + length ≤ row.length) :
    slice row start length = .ok (part row start length) := by
  simp [slice, part, fits]

namespace Seen

def collect (t : Table) (parts : List (List Value)) : Seen (List Value) :=
  (firsts t.identityKey parts).map fun values => (t.identity values, values)

theorem find?_eq_none {α : Type} (seen : Seen α) (identity : List Value) :
    seen.find? identity = none ↔ ∀ e ∈ seen, Value.sameRow e.1 identity = false := by
  simp [Seen.find?]

theorem insert_collect (t : Table) (parts : List (List Value)) (values : List Value) :
    (collect t parts).insert (t.identity values) values = collect t (parts ++ [values]) := by
  have new : (collect t parts).find? (t.identity values) = none ↔
      t.identityKey values ∉ parts.map t.identityKey := by
    rw [find?_eq_none, ← mem_keys_firsts]
    simp only [collect, List.forall_mem_map, Bool.eq_false_iff, ne_eq, sameRow_identity]
    simp only [List.mem_map, not_exists, not_and]
  unfold insert
  split
  · rename_i found
    have known : t.identityKey values ∈ parts.map t.identityKey := by
      by_contra absent
      rw [new.2 absent] at found
      cases found
    rw [collect, collect, firsts_concat, if_pos known]
  · rename_i none
    rw [collect, collect, firsts_concat, if_neg (new.1 none), List.map_append, List.map_singleton]

section Keyed

variable {α β : Type} (identity : α → List Value) (entry : α → β)

theorem find?_map {kept : List α} {a : α} {row : List Value}
    (distinct : (kept.map fun a => (identity a).map Value.normal).Nodup) (member : a ∈ kept)
    (same : Value.sameRow (identity a) row = true) :
    find? (kept.map fun a => (identity a, entry a)) row = some (entry a) := by
  have key := (Value.sameRow_iff _ _).1 same
  induction kept with
  | nil => cases member
  | cons b kept ih =>
    rw [List.map_cons, List.nodup_cons] at distinct
    rcases List.mem_cons.1 member with rfl | later
    · simp [find?, same]
    · have other : Value.sameRow (identity b) row = false := by
        rw [Bool.eq_false_iff, ne_eq, Value.sameRow_iff, ← key]
        intro equal
        exact distinct.1 (equal ▸ List.mem_map_of_mem later)
      have rest := ih distinct.2 later
      unfold find? at rest ⊢
      rwa [List.map_cons, List.find?_cons_of_neg (by simp [other])]

theorem replace_map (kept : List α) (row : List Value) (b : β) :
    replace (kept.map fun a => (identity a, entry a)) row b =
      kept.map fun a => (identity a, if Value.sameRow (identity a) row then b else entry a) := by
  rw [replace, List.map_map]
  refine List.map_congr_left fun a _ => ?_
  simp only [Function.comp_apply]
  split <;> rfl

end Keyed

end Seen

namespace Hydration

variable {n : Nat}

def widthFrom (offset : Nat) : List (Loader n) → Nat
  | [] => offset
  | l :: loaders => widthFrom (offset + l.gap + l.table.width) loaders

theorem le_widthFrom (offset : Nat) (loaders : List (Loader n)) : offset ≤ widthFrom offset loaders := by
  induction loaders generalizing offset with
  | nil => exact Nat.le_refl _
  | cons l loaders ih =>
    have rest := ih (offset + l.gap + l.table.width)
    simp only [widthFrom]
    omega

/-- Every loader with the place in a row from which on its child's values stand. -/
def spans (offset : Nat) : List (Loader n) → List (Loader n × Nat)
  | [] => []
  | l :: loaders => (l, offset + l.gap) :: spans (offset + l.gap + l.table.width) loaders

def childParts (rows : List (List Value)) (span : Loader n × Nat) : List (List Value) :=
  rows.map fun row => part row span.2 span.1.table.width

def childrenOf (rows : List (List Value)) (offset : Nat) (loaders : List (Loader n)) : List (Seen (List Value)) :=
  (spans offset loaders).map fun span => Seen.collect span.1.table (childParts rows span)

theorem map_spans (offset : Nat) (loaders : List (Loader n)) : (spans offset loaders).map Prod.fst = loaders := by
  induction loaders generalizing offset with
  | nil => rfl
  | cons l loaders ih => rw [spans, List.map_cons, ih]

theorem childrenOf_nil (offset : Nat) (loaders : List (Loader n)) :
    childrenOf [] offset loaders = loaders.map fun _ => [] := by
  rw [childrenOf, ← map_spans offset loaders, List.map_map, map_spans]
  rfl

theorem pushChildren_childrenOf (rows : List (List Value)) (row : List Value) (offset : Nat)
    (loaders : List (Loader n)) (fits : row.length = widthFrom offset loaders) :
    pushChildren row loaders (childrenOf rows offset loaders) offset =
      (.ok row.length, childrenOf (rows ++ [row]) offset loaders) := by
  induction loaders generalizing offset with
  | nil => simp [pushChildren, childrenOf, spans, fits, widthFrom]
  | cons l loaders ih =>
    have covered := le_widthFrom (offset + l.gap + l.table.width) loaders
    have enough : offset + l.gap + l.table.width ≤ row.length := by
      rw [fits]
      exact covered
    have rest := ih (offset + l.gap + l.table.width) fits
    have taken : childParts (rows ++ [row]) (l, offset + l.gap) =
        childParts rows (l, offset + l.gap) ++ [part row (offset + l.gap) l.table.width] := by
      rw [childParts, List.map_append, List.map_singleton]
      rfl
    unfold childrenOf at rest ⊢
    simp only [pushChildren, spans, List.map_cons, slice_eq_part enough, rest, Seen.insert_collect, taken]

def rootKey (root : Table) (row : List Value) : List Value :=
  root.identityKey (part row 0 root.width)

section Groups

variable (root : Table) (loaders : List (Loader n))

def rootIdentity (row : List Value) : List Value :=
  root.identity (part row 0 root.width)

def groupOf (rows : List (List Value)) (first : List Value) : Group :=
  ⟨part first 0 root.width,
    childrenOf (rows.filter fun row => rootKey root row = rootKey root first) root.width loaders⟩

def grouped (kept rows : List (List Value)) : Seen Group :=
  kept.map fun first => (rootIdentity root first, groupOf root loaders rows first)

/-- The groups that rows of the right width leave. -/
def groupsOf (rows : List (List Value)) : Seen Group :=
  grouped root loaders (firsts (rootKey root) rows) rows

theorem find?_grouped {kept : List (List Value)} (rows : List (List Value)) {first row : List Value}
    (distinct : (kept.map (rootKey root)).Nodup) (member : first ∈ kept)
    (same : rootKey root first = rootKey root row) :
    (grouped root loaders kept rows).find? (rootIdentity root row) = some (groupOf root loaders rows first) := by
  exact Seen.find?_map _ _ distinct member ((sameRow_identity _ _ _).2 same)

theorem find?_grouped_none {kept : List (List Value)} (rows : List (List Value)) {row : List Value}
    (new : rootKey root row ∉ kept.map (rootKey root)) :
    (grouped root loaders kept rows).find? (rootIdentity root row) = none := by
  rw [Seen.find?_eq_none]
  intro e member
  obtain ⟨first, known, rfl⟩ := List.mem_map.1 member
  rw [Bool.eq_false_iff, ne_eq, rootIdentity, rootIdentity, sameRow_identity]
  intro same
  exact new (List.mem_map.2 ⟨first, known, same⟩)

theorem insert_grouped (rows : List (List Value)) (row : List Value) :
    (groupsOf root loaders rows).insert (rootIdentity root row)
        ⟨part row 0 root.width, loaders.map fun _ => []⟩ =
      grouped root loaders (firsts (rootKey root) (rows ++ [row])) rows := by
  unfold Seen.insert groupsOf
  by_cases seen : rootKey root row ∈ rows.map (rootKey root)
  · obtain ⟨first, member, same⟩ := List.mem_map.1 ((mem_keys_firsts _ _ _).2 seen)
    rw [find?_grouped root loaders rows (nodup_keys_firsts _ _) member same, firsts_concat, if_pos seen]
  · have new : rootKey root row ∉ (firsts (rootKey root) rows).map (rootKey root) := by
      rwa [mem_keys_firsts]
    have alone : rows.filter (fun other => rootKey root other = rootKey root row) = [] := by
      rw [List.filter_eq_nil_iff]
      intro other member same
      exact seen (List.mem_map.2 ⟨other, member, by simpa using same⟩)
    rw [find?_grouped_none root loaders rows new, firsts_concat, if_neg seen]
    simp only [grouped, List.map_append, List.map_singleton, groupOf, alone, childrenOf_nil]

theorem replace_grouped {kept : List (List Value)} (rows : List (List Value)) {first row : List Value}
    (distinct : (kept.map (rootKey root)).Nodup) (member : first ∈ kept)
    (same : rootKey root first = rootKey root row) :
    (grouped root loaders kept rows).replace (rootIdentity root row)
        (groupOf root loaders (rows ++ [row]) first) =
      grouped root loaders kept (rows ++ [row]) := by
  rw [grouped, grouped, Seen.replace_map]
  refine List.map_congr_left fun other known => ?_
  by_cases hit : rootKey root other = rootKey root row
  · have equal : other = first := List.inj_on_of_nodup_map distinct known member (hit.trans same.symm)
    have found : Value.sameRow (rootIdentity root other) (rootIdentity root row) = true :=
      (sameRow_identity _ _ _).2 hit
    rw [if_pos found, equal]
  · have missed : ¬Value.sameRow (rootIdentity root other) (rootIdentity root row) = true :=
      fun found => hit ((sameRow_identity _ _ _).1 found)
    have apart : (rows ++ [row]).filter (fun r => rootKey root r = rootKey root other) =
        rows.filter fun r => rootKey root r = rootKey root other := by
      have out : ¬rootKey root row = rootKey root other := fun equal => hit equal.symm
      rw [List.filter_append, List.filter_singleton]
      simp [out]
    rw [if_neg missed, groupOf, groupOf, apart]

theorem push_groupsOf (rows : List (List Value)) {row : List Value}
    (fits : row.length = widthFrom root.width loaders) :
    push ⟨root, loaders, groupsOf root loaders rows⟩ row =
      (.ok (), ⟨root, loaders, groupsOf root loaders (rows ++ [row])⟩) := by
  have enough : 0 + root.width ≤ row.length := by
    have covered := le_widthFrom root.width loaders
    omega
  have distinct := nodup_keys_firsts (rootKey root) (rows ++ [row])
  obtain ⟨first, member, same⟩ := exists_first (rootKey root) (show row ∈ rows ++ [row] by simp)
  have mine : (rows ++ [row]).filter (fun r => rootKey root r = rootKey root first) =
      rows.filter (fun r => rootKey root r = rootKey root first) ++ [row] := by
    rw [List.filter_append, List.filter_singleton]
    simp [same]
  have children := pushChildren_childrenOf (rows.filter fun r => rootKey root r = rootKey root first) row
    root.width loaders fits
  rw [← mine] at children
  -- A row of a new identity first gets a group without children; from there on it is like any other row.
  have inserted := insert_grouped root loaders rows row
  have found := find?_grouped root loaders rows distinct member same
  have replaced := replace_grouped root loaders rows distinct member same
  simp only [rootIdentity] at inserted found replaced
  simp only [push, slice_eq_part enough, inserted, found, Option.getD_some]
  simp only [groupOf] at children replaced ⊢
  simp only [children, replaced, groupsOf, if_true]

def taking (h : Hydration n) (row : List Value) : Except Failure (Hydration n) :=
  match h.push row with
  | (.ok _, after) => .ok after
  | (.error misfit, _) => .error (.decoding misfit)

theorem foldlM_taking (rows before : List (List Value))
    (fit : ∀ row ∈ rows, row.length = widthFrom root.width loaders) :
    rows.foldlM taking ⟨root, loaders, groupsOf root loaders before⟩ =
      .ok ⟨root, loaders, groupsOf root loaders (before ++ rows)⟩ := by
  induction rows generalizing before with
  | nil =>
    rw [List.append_nil]
    rfl
  | cons row rows ih =>
    have rest := ih (before ++ [row]) fun r member => fit r (List.mem_cons_of_mem _ member)
    rw [List.foldlM_cons, taking, push_groupsOf root loaders before (fit row List.mem_cons_self)]
    rw [List.append_assoc, List.singleton_append] at rest
    exact rest

end Groups

end Hydration

end RecordMapper
