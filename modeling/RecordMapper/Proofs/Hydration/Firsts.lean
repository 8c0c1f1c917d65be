import Mathlib.Data.List.Dedup
import Mathlib.Data.List.Induction
import Mathlib.Data.List.Perm.Basic

namespace RecordMapper

variable {α β κ : Type} [DecidableEq κ]

def firsts (key : α → κ) (entries : List α) : List α :=
  entries.foldl (fun kept a => if key a ∈ kept.map key then kept else kept ++ [a]) []

variable (key : α → κ)

@[simp] theorem firsts_nil : firsts key [] = [] := rfl

theorem firsts_concat_kept (entries : List α) (a : α) :
    firsts key (entries ++ [a]) =
      if key a ∈ (firsts key entries).map key then firsts key entries else firsts key entries ++ [a] := by
  simp [firsts, List.foldl_append]

theorem mem_keys_firsts (entries : List α) (k : κ) :
    k ∈ (firsts key entries).map key ↔ k ∈ entries.map key := by
  induction entries using List.reverseRecOn generalizing k with
  | nil => simp
  | append_singleton entries a ih =>
    rw [firsts_concat_kept]
    by_cases seen : key a ∈ (firsts key entries).map key
    · have known := (ih (key a)).1 seen
      rw [if_pos seen, ih]
      simp only [List.map_append, List.map_cons, List.map_nil, List.mem_append, List.mem_singleton]
      exact ⟨.inl, fun either => either.elim id fun same => same ▸ known⟩
    · rw [if_neg seen]
      simp only [List.map_append, List.map_cons, List.map_nil, List.mem_append, List.mem_singleton, ih]

theorem firsts_concat (entries : List α) (a : α) :
    firsts key (entries ++ [a]) =
      if key a ∈ entries.map key then firsts key entries else firsts key entries ++ [a] := by
  simp only [firsts_concat_kept, mem_keys_firsts]

theorem mem_of_mem_firsts {entries : List α} {a : α} (member : a ∈ firsts key entries) : a ∈ entries := by
  induction entries using List.reverseRecOn with
  | nil => simp at member
  | append_singleton entries b ih =>
    rw [firsts_concat] at member
    split at member
    · exact List.mem_append_left _ (ih member)
    · rcases List.mem_append.1 member with before | last
      · exact List.mem_append_left _ (ih before)
      · exact List.mem_append_right _ last

theorem nodup_keys_firsts (entries : List α) : ((firsts key entries).map key).Nodup := by
  induction entries using List.reverseRecOn with
  | nil => simp
  | append_singleton entries a ih =>
    rw [firsts_concat]
    by_cases seen : key a ∈ entries.map key
    · rw [if_pos seen]
      exact ih
    · rw [if_neg seen, List.map_append, List.map_singleton, List.nodup_append]
      refine ⟨ih, List.nodup_singleton _, ?_⟩
      intro k known b single same
      rw [List.mem_singleton] at single
      exact seen ((mem_keys_firsts key entries _).1 (single ▸ same ▸ known))

theorem exists_first {entries : List α} {a : α} (member : a ∈ entries) : ∃ b ∈ firsts key entries, key b = key a := by
  have known := (mem_keys_firsts key entries (key a)).2 (List.mem_map_of_mem member)
  exact List.mem_map.1 known

theorem firsts_map (f : β → α) (entries : List β) :
    firsts key (entries.map f) = (firsts (fun b => key (f b)) entries).map f := by
  induction entries using List.reverseRecOn with
  | nil => rfl
  | append_singleton entries b ih =>
    rw [List.map_append, List.map_singleton, firsts_concat, firsts_concat, ih]
    by_cases seen : key (f b) ∈ (entries.map f).map key
    · rw [if_pos seen, if_pos (by simpa using seen)]
    · rw [if_neg seen, if_neg (by simpa using seen), List.map_append, List.map_singleton]

theorem firsts_sublist (entries : List α) : (firsts key entries).Sublist entries := by
  induction entries using List.reverseRecOn with
  | nil => exact .slnil
  | append_singleton entries a ih =>
    rw [firsts_concat]
    split
    · exact ih.trans (List.sublist_append_left _ _)
    · exact ih.append (.refl [a])

/-- Firsts are related in their order if each entry of a new key is related to all that come before it. -/
theorem pairwise_firsts {R : α → α → Prop} {entries : List α}
    (new : ∀ before a after, entries = before ++ a :: after → key a ∉ before.map key → ∀ b ∈ before, R b a) :
    (firsts key entries).Pairwise R := by
  induction entries using List.reverseRecOn with
  | nil => exact .nil
  | append_singleton entries a ih =>
    have earlier : (firsts key entries).Pairwise R := by
      apply ih
      intro before b after split
      apply new before b (after ++ [a])
      rw [split, List.append_assoc, List.cons_append]
    rw [firsts_concat]
    split
    · exact earlier
    · rename_i fresh
      rw [List.pairwise_append]
      refine ⟨earlier, List.pairwise_singleton _ _, ?_⟩
      intro b kept c single
      rw [List.mem_singleton.1 single]
      exact new entries a [] rfl fresh b (mem_of_mem_firsts key kept)

theorem mem_firsts_iff {entries : List α} (one : ∀ a ∈ entries, ∀ b ∈ entries, key a = key b → a = b) (a : α) :
    a ∈ firsts key entries ↔ a ∈ entries := by
  constructor
  · exact mem_of_mem_firsts key
  · intro member
    obtain ⟨b, kept, same⟩ := exists_first key member
    rwa [one a member b (mem_of_mem_firsts key kept) same.symm]

theorem firsts_perm {entries others : List α} (same : ∀ a, a ∈ entries ↔ a ∈ others)
    (one : ∀ a ∈ entries, ∀ b ∈ entries, key a = key b → a = b) : (firsts key entries).Perm (firsts key others) := by
  have also : ∀ a ∈ others, ∀ b ∈ others, key a = key b → a = b :=
    fun a first b second => one a ((same a).2 first) b ((same b).2 second)
  apply (List.perm_ext_iff_of_nodup (nodup_keys_firsts key entries).of_map (nodup_keys_firsts key others).of_map).2
  intro a
  rw [mem_firsts_iff key one, mem_firsts_iff key also, same]

theorem length_eq_dedup {kept entries : List α} (distinct : (kept.map key).Nodup)
    (members : ∀ k, k ∈ kept.map key ↔ k ∈ entries.map key) : kept.length = (entries.map key).dedup.length := by
  have same : (kept.map key).Perm (entries.map key).dedup := by
    rw [List.perm_ext_iff_of_nodup distinct (List.nodup_dedup _)]
    intro k
    rw [members, List.mem_dedup]
  simpa using same.length_eq

theorem length_firsts (entries : List α) : (firsts key entries).length = (entries.map key).dedup.length :=
  length_eq_dedup key (nodup_keys_firsts key entries) (mem_keys_firsts key entries)

end RecordMapper
