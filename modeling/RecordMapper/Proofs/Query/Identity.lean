import RecordMapper.Proofs.Query.Rows
import RecordMapper.Proofs.Schema.Description
import RecordMapper.Proofs.Store.Sameness

namespace RecordMapper

open RecordMapper.Store

section Positions

theorem Table.identity_keyed {t : Table} (keyed : t.keyColumns ≠ []) (f : String → Value) :
    t.identity (t.columnNames.map f) = t.keyNames.map f := by
  have some' : t.keyPositions.isEmpty = false := by
    rw [keyPositions_isEmpty, List.isEmpty_eq_false_iff]
    exact keyed
  rw [identity, some', if_neg Bool.false_ne_true, keyNames_eq, List.map_filterMap]
  exact List.filterMap_congr fun i _ => List.getElem?_map

theorem Table.identity_keyless {t : Table} (keyless : t.keyColumns = []) (values : List Value) :
    t.identity values = values := by
  rw [identity, keyPositions_isEmpty, keyless]
  rfl

end Positions

section Keys

variable {c : Content} {t : Table}

def Store.Content.keyOf (c : Content) (t : Table) (row : StoredRow) : List Value :=
  t.keyNames.map fun name => (c.cell t row name).value

/-- A table with a key that no two of its rows share; what is required, the key included, is not null. -/
structure Keyed (c : Content) (t : Table) : Prop where
  key : t.keyColumns ≠ []
  required : ∀ column ∈ t.keyColumns, column.nullable = false
  filled : ∀ row ∈ (c.stored t).rows, ∀ column ∈ t.columns, column.nullable = false →
    (c.cell t row column.name).value ≠ .null
  unique : (c.stored t).rows.Pairwise fun a b =>
    (c.keyOf t a).any Value.isNull = true ∨ sameValues (c.keyOf t a) (c.keyOf t b) = false

theorem Table.identityKey_valuesOf (keyed : t.keyColumns ≠ []) (row : StoredRow) :
    t.identityKey (c.valuesOf t row) = (c.keyOf t row).map Value.normal := by
  rw [identityKey, Content.valuesOf, identity_keyed keyed, Content.keyOf]

theorem Keyed.filled_key (keyed : Keyed c t) {row : StoredRow} (stored : row ∈ (c.stored t).rows) :
    (c.keyOf t row).any Value.isNull = false := by
  rw [List.any_eq_false]
  intro v member null
  obtain ⟨name, known, rfl⟩ := List.mem_map.1 member
  obtain ⟨column, key, rfl⟩ := List.mem_map.1 known
  have listed : column ∈ t.columns := (List.mem_filter.1 key).1
  exact keyed.filled row stored column listed (keyed.required column key) ((Value.isNull_iff _).1 null)

theorem Keyed.nodup_identities (keyed : Keyed c t) :
    ((c.stored t).rows.map fun row => t.identityKey (c.valuesOf t row)).Nodup := by
  rw [List.Nodup, List.pairwise_map]
  refine keyed.unique.imp_of_mem ?_
  intro a b first second apart same
  rw [Table.identityKey_valuesOf keyed.key, Table.identityKey_valuesOf keyed.key] at same
  rcases apart with null | differ
  · rw [keyed.filled_key first] at null
    cases null
  · rw [sameValues_of_normal same] at differ
    cases differ

/-- Rows that stand for all of a kind: each identity that a row of the kind has is that of just one of them. -/
structure Store.Content.Represents (c : Content) (t : Table) (kind : StoredRow → Prop) (rows : List StoredRow) : Prop where
  apart : (rows.map fun row => t.identityKey (c.valuesOf t row)).Nodup
  sound : ∀ row ∈ rows, kind row
  whole : ∀ row, kind row → ∃ other ∈ rows, t.identityKey (c.valuesOf t other) = t.identityKey (c.valuesOf t row)

variable {kind : StoredRow → Prop} {rows : List StoredRow}

theorem Store.Content.Represents.nodup (represents : c.Represents t kind rows) : rows.Nodup :=
  represents.apart.of_map

theorem represents_firsts {α : Type} {κ : α → List Value} {f : α → StoredRow} {entries : List α}
    (keys : ∀ a ∈ entries, κ a = t.identityKey (c.valuesOf t (f a))) (mine : ∀ row, kind row ↔ ∃ a ∈ entries, f a = row) :
    c.Represents t kind ((firsts κ entries).map f) := by
  constructor
  · have through : (firsts κ entries).map κ =
        ((firsts κ entries).map f).map fun row => t.identityKey (c.valuesOf t row) := by
      rw [List.map_map]
      exact List.map_congr_left fun a member => keys a (mem_of_mem_firsts κ member)
    rw [← through]
    exact nodup_keys_firsts κ entries
  · intro row member
    obtain ⟨a, kept, same⟩ := List.mem_map.1 member
    exact (mine row).2 ⟨a, mem_of_mem_firsts κ kept, same⟩
  · intro row good
    obtain ⟨a, member, rfl⟩ := (mine row).1 good
    obtain ⟨b, kept, same⟩ := exists_first κ member
    refine ⟨f b, List.mem_map_of_mem kept, ?_⟩
    rw [← keys a member, ← keys b (mem_of_mem_firsts κ kept), same]

theorem Keyed.mem_iff (keyed : Keyed c t) (represents : c.Represents t kind rows)
    (stored : ∀ row, kind row → row ∈ (c.stored t).rows) (row : StoredRow) : row ∈ rows ↔ kind row := by
  constructor
  · exact represents.sound row
  · intro good
    obtain ⟨other, kept, same⟩ := represents.whole row good
    have one : other = row := List.inj_on_of_nodup_map keyed.nodup_identities
      (stored other (represents.sound other kept)) (stored row good) same
    rwa [← one]

end Keys

end RecordMapper
