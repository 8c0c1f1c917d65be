import Mathlib.Algebra.GroupWithZero.Nat
import RecordMapper.Proofs.Hydration.Grouping

namespace RecordMapper

variable {n : Nat}

def Loader.span (l : Loader n) : Nat :=
  l.gap + l.table.width

namespace Seen

variable {α : Type}

theorem find?_append (seen later : Seen α) (identity : List Value) :
    Seen.find? (seen ++ later) identity = (seen.find? identity).or (later.find? identity) := by
  rw [find?, List.find?_append, Option.map_or]
  rfl

theorem find?_insert (seen : Seen α) (identity : List Value) (entry : α) :
    (seen.insert identity entry).find? identity = some ((seen.find? identity).getD entry) := by
  unfold insert
  split
  · rename_i found
    rw [found, Option.getD_some]
  · rename_i absent
    have same : Value.sameRow identity identity = true := (Value.sameRow_iff _ _).2 rfl
    rw [find?_append, absent, Option.none_or, Option.getD_none]
    simp [find?, same]

theorem mem_of_find? {seen : Seen α} {identity : List Value} {entry : α} (found : seen.find? identity = some entry) :
    ∃ e ∈ seen, e.2 = entry := by
  obtain ⟨e, first, rfl⟩ := Option.map_eq_some_iff.1 found
  exact ⟨e, List.mem_of_find?_eq_some first, rfl⟩

theorem forall_insert {seen : Seen α} {entry : α} (P : α → Prop) (identity : List Value)
    (all : ∀ e ∈ seen, P e.2) (new : P entry) : ∀ e ∈ seen.insert identity entry, P e.2 := by
  unfold insert
  split
  · exact all
  · intro e member
    rcases List.mem_append.1 member with old | last
    · exact all e old
    · rw [List.mem_singleton.1 last]
      exact new

theorem forall_replace {seen : Seen α} {entry : α} (P : α → Prop) (identity : List Value)
    (all : ∀ e ∈ seen, P e.2) (new : P entry) : ∀ e ∈ seen.replace identity entry, P e.2 := by
  intro e member
  obtain ⟨old, known, rfl⟩ := List.mem_map.1 member
  by_cases same : Value.sameRow old.1 identity
  · rw [if_pos same]
    exact new
  · rw [if_neg same]
    exact all old known

end Seen

namespace Hydration

section Children

variable {row : List Value} {loaders : List (Loader n)} {seen : List (Seen (List Value))} {offset : Nat}

theorem widthFrom_eq_sum (offset : Nat) (loaders : List (Loader n)) :
    widthFrom offset loaders = offset + (loaders.map Loader.span).sum := by
  induction loaders generalizing offset with
  | nil => rfl
  | cons l loaders ih =>
    rw [widthFrom, ih, List.map_cons, List.sum_cons, Loader.span]
    omega

theorem length_pushChildren (row : List Value) (loaders : List (Loader n)) (seen : List (Seen (List Value)))
    (offset : Nat) : (pushChildren row loaders seen offset).2.length = seen.length := by
  induction loaders generalizing seen offset with
  | nil => rw [pushChildren.eq_def]
  | cons l loaders ih =>
    cases seen with
    | nil => rw [pushChildren.eq_def]
    | cons own seen =>
      rw [pushChildren]
      split
      · rfl
      · simp only [List.length_cons, ih]

theorem pushChildren_covered {covered : Nat} (long : seen.length = loaders.length)
    (taken : (pushChildren row loaders seen offset).1 = .ok covered) : covered = widthFrom offset loaders := by
  induction loaders generalizing seen offset with
  | nil =>
    rw [pushChildren.eq_def] at taken
    cases taken
    rfl
  | cons l loaders ih =>
    cases seen with
    | nil => cases long
    | cons own seen =>
      rw [pushChildren] at taken
      split at taken
      · cases taken
      · exact ih (Nat.succ.inj long) taken

theorem pushChildren_fits (long : seen.length = loaders.length) (fits : widthFrom offset loaders ≤ row.length) :
    (pushChildren row loaders seen offset).1 = .ok (widthFrom offset loaders) := by
  induction loaders generalizing seen offset with
  | nil =>
    rw [pushChildren.eq_def]
    rfl
  | cons l loaders ih =>
    cases seen with
    | nil => cases long
    | cons own seen =>
      have covered := le_widthFrom (offset + l.gap + l.table.width) loaders
      have enough : offset + l.gap + l.table.width ≤ row.length := Nat.le_trans covered fits
      simp only [pushChildren, slice_eq_part enough]
      exact ih (Nat.succ.inj long) fits

end Children

def Shaped (h : Hydration n) : Prop :=
  ∀ e ∈ h.groups, e.2.children.length = h.loaders.length

variable {h : Hydration n} {row : List Value}

theorem shaped_empty (root : Table) (loaders : List (Loader n)) : Shaped (empty root loaders) :=
  fun _ none => (nomatch none)

theorem shaped_groupsOf (root : Table) (loaders : List (Loader n)) (rows : List (List Value)) :
    Shaped ⟨root, loaders, groupsOf root loaders rows⟩ := by
  intro e member
  obtain ⟨first, -, rfl⟩ := List.mem_map.1 member
  show (childrenOf _ _ loaders).length = loaders.length
  rw [childrenOf, List.length_map, ← List.length_map Prod.fst, map_spans]

def groupFor (h : Hydration n) (row : List Value) : Group :=
  (h.groups.find? (rootIdentity h.root row)).getD ⟨part row 0 h.root.width, h.loaders.map fun _ => []⟩

theorem Shaped.groupFor (shaped : h.Shaped) (row : List Value) :
    (h.groupFor row).children.length = h.loaders.length := by
  unfold Hydration.groupFor
  rcases found : h.groups.find? (rootIdentity h.root row) with _ | group
  · rw [Option.getD_none, List.length_map]
  · obtain ⟨e, member, rfl⟩ := Seen.mem_of_find? found
    exact shaped e member

theorem push_long (enough : 0 + h.root.width ≤ row.length) :
    let pushed := pushChildren row h.loaders (h.groupFor row).children h.root.width
    let identity := rootIdentity h.root row
    let groups := h.groups.insert identity ⟨part row 0 h.root.width, h.loaders.map fun _ => []⟩
    push h row =
      (match pushed.1 with
        | .error misfit => .error misfit
        | .ok covered => if covered = row.length then .ok () else .error (.joinedWidth row.length covered),
      ⟨h.root, h.loaders, groups.replace identity ⟨(h.groupFor row).root, pushed.2⟩⟩) := by
  have found := Seen.find?_insert h.groups (rootIdentity h.root row)
    ⟨part row 0 h.root.width, h.loaders.map fun _ => []⟩
  simp only [rootIdentity] at found
  simp only [push, slice_eq_part enough, found, Option.getD_some, groupFor, rootIdentity]
  generalize pushChildren row h.loaders _ h.root.width = pushed
  rcases pushed with ⟨misfit | covered, seen⟩
  · rfl
  · rfl

theorem push_short (short : ¬0 + h.root.width ≤ row.length) :
    push h row = (.error (.shortRow row.length (0 + h.root.width)), h) := by
  have refused : slice row 0 h.root.width = .error (.shortRow row.length (0 + h.root.width)) := if_neg short
  rw [push, refused]

theorem push_root (h : Hydration n) (row : List Value) :
    (push h row).2.root = h.root ∧ (push h row).2.loaders = h.loaders := by
  by_cases enough : 0 + h.root.width ≤ row.length
  · rw [push_long enough]
    exact ⟨rfl, rfl⟩
  · rw [push_short enough]
    exact ⟨rfl, rfl⟩

theorem Shaped.push (shaped : h.Shaped) (row : List Value) : (push h row).2.Shaped := by
  by_cases enough : 0 + h.root.width ≤ row.length
  · have long := shaped.groupFor row
    rw [push_long enough]
    apply Seen.forall_replace fun group : Group => group.children.length = h.loaders.length
    · apply Seen.forall_insert fun group : Group => group.children.length = h.loaders.length
      · exact shaped
      · exact List.length_map _
    · exact (length_pushChildren _ _ _ _).trans long
  · rw [push_short enough]
    exact shaped

/-- A row is taken exactly if it has the width of the root and of all loaders. -/
theorem Shaped.push_iff (shaped : h.Shaped) (row : List Value) :
    (Hydration.push h row).1 = .ok () ↔ row.length = widthFrom h.root.width h.loaders := by
  have long := shaped.groupFor row
  by_cases enough : 0 + h.root.width ≤ row.length
  · rw [push_long enough]
    constructor
    · intro taken
      rcases outcome : (pushChildren row h.loaders (h.groupFor row).children h.root.width).1 with misfit | covered
      · simp [outcome] at taken
      · simp only [outcome] at taken
        by_cases whole : covered = row.length
        · rw [← whole, pushChildren_covered long outcome]
        · simp [whole] at taken
    · intro fits
      simp only [pushChildren_fits long (Nat.le_of_eq fits.symm), fits, if_true]
  · have covered := le_widthFrom h.root.width h.loaders
    rw [push_short enough]
    constructor
    · intro taken
      cases taken
    · omega

theorem push_groupsOf_iff (root : Table) (loaders : List (Loader n)) (rows : List (List Value)) (row : List Value) :
    (push ⟨root, loaders, groupsOf root loaders rows⟩ row).1 = .ok () ↔
      row.length = widthFrom root.width loaders :=
  (shaped_groupsOf root loaders rows).push_iff row

def pushAll (h : Hydration n) (rows : List (List Value)) : Hydration n :=
  rows.foldl (fun h row => (h.push row).2) h

theorem shaped_pushAll (rows : List (List Value)) (shaped : h.Shaped) :
    (pushAll h rows).Shaped ∧ (pushAll h rows).root = h.root ∧ (pushAll h rows).loaders = h.loaders := by
  induction rows generalizing h with
  | nil => exact ⟨shaped, rfl, rfl⟩
  | cons row rows ih =>
    obtain ⟨later, root, loaders⟩ := ih (shaped.push row)
    obtain ⟨root', loaders'⟩ := push_root h row
    exact ⟨later, root.trans root', loaders.trans loaders'⟩

/-- Whatever rows came before, a row is taken exactly if it has the width of the root and of all loaders. -/
theorem push_pushAll_iff (root : Table) (loaders : List (Loader n)) (before : List (List Value)) (row : List Value) :
    ((pushAll (empty root loaders) before).push row).1 = .ok () ↔
      row.length = root.width + (loaders.map Loader.span).sum := by
  obtain ⟨shaped, sameRoot, sameLoaders⟩ := shaped_pushAll before (shaped_empty root loaders)
  rw [shaped.push_iff, sameRoot, sameLoaders, widthFrom_eq_sum]
  rfl

/-- Rows of the right width leave the groups of all of them. -/
theorem pushAll_groupsOf (root : Table) (loaders : List (Loader n)) (before rows : List (List Value))
    (fit : ∀ row ∈ rows, row.length = widthFrom root.width loaders) :
    pushAll ⟨root, loaders, groupsOf root loaders before⟩ rows =
      ⟨root, loaders, groupsOf root loaders (before ++ rows)⟩ := by
  induction rows generalizing before with
  | nil =>
    rw [List.append_nil]
    rfl
  | cons row rows ih =>
    have rest := ih (before ++ [row]) fun r member => fit r (List.mem_cons_of_mem _ member)
    rw [pushAll, List.foldl_cons, push_groupsOf root loaders before (fit row List.mem_cons_self)]
    rw [List.append_assoc, List.singleton_append] at rest
    exact rest

end Hydration

end RecordMapper
