import RecordMapper.Proofs.Store.Guarding
import RecordMapper.Proofs.Store.Keys

namespace RecordMapper.Store

variable {c : Content} {t after : StoredTable} {a b row : StoredRow}

namespace StoredTable

theorem TellsApart.symm (apart : t.TellsApart a b) : t.TellsApart b a := by
  obtain ⟨i, inKey, null | differs⟩ := apart
  · by_cases also : b.valueAt i = .null
    · exact ⟨i, inKey, .inl also⟩
    · refine ⟨i, inKey, .inr ?_⟩
      rw [null, ← Bool.not_eq_true]
      intro same
      cases other : b.valueAt i with
      | null => exact also other
      | integer | real | text | blob =>
        rw [other] at same
        cases same
  · refine ⟨i, inKey, .inr ?_⟩
    rw [← Bool.not_eq_true]
    intro same
    rw [sameValue_symm same] at differs
    cases differs

def Apart (t : StoredTable) : Prop :=
  t.rows.Pairwise t.TellsApart

theorem Apart.tellsApart (apart : t.Apart) (first : a ∈ t.rows) (second : b ∈ t.rows) (other : a ≠ b) :
    t.TellsApart a b := by
  have symmetric : Std.Symm t.TellsApart := ⟨fun _ _ => TellsApart.symm⟩
  exact List.Pairwise.forall apart first second other

theorem Apart.filter (apart : t.Apart) (keep : StoredRow → Bool) : Apart { t with rows := t.rows.filter keep } :=
  List.Pairwise.sublist List.filter_sublist apart

theorem Apart.withRow {others : List StoredRow} (apart : t.Apart) (kept : others.Sublist t.rows)
    (new : ∀ other ∈ others, t.TellsApart row other) : Apart { t with rows := insertRow row others } := by
  have perm := insertRow_perm row others
  show (insertRow row others).Pairwise t.TellsApart
  rw [perm.pairwise_iff TellsApart.symm]
  exact .cons new (List.Pairwise.sublist kept apart)

theorem Regular.apart {i : Nat} (regular : t.Regular) (identity : t.idColumn? = some i) : t.Apart := by
  have distinct := regular.distinct
  rw [List.Nodup, List.pairwise_map] at distinct
  refine distinct.imp_of_mem fun first second other => ?_
  refine ⟨i, keyPositions_of_idColumn? identity ▸ List.mem_singleton_self i, .inr ?_⟩
  rw [regular.shown i identity _ first, regular.shown i identity _ second]
  exact (regular.ids _ first).differ (regular.ids _ second) other

theorem Apart.insertAll {columns : Option (List String)} {rows : List (List Value)} (apart : t.Apart)
    (keyed : t.keyPositions ≠ []) (identity : t.idColumn? = none)
    (done : Store.insertAll c columns t rows = .ok after) : after.Apart := by
  induction rows generalizing t with
  | nil =>
    obtain rfl := Except.ok.inj done
    exact apart
  | cons given rows ih =>
    simp only [Store.insertAll, bind_eq_ok] at done
    obtain ⟨middle, one, rest⟩ := done
    obtain ⟨id, -, -, -, unique, rfl⟩ := insertOne_cases one
    exact ih (apart.withRow (.refl _) fun _ => tellsApart_of_unique keyed identity unique) keyed identity rest

theorem Apart.updateAll {assignments : List (String × Value)} {chosen : List StoredRow} (apart : t.Apart)
    (keyed : t.keyPositions ≠ []) (identity : t.idColumn? = none)
    (done : Store.updateAll c assignments t chosen = .ok after) : after.Apart := by
  induction chosen generalizing t with
  | nil =>
    obtain rfl := Except.ok.inj done
    exact apart
  | cons old chosen ih =>
    simp only [Store.updateAll, bind_eq_ok] at done
    obtain ⟨middle, one, rest⟩ := done
    obtain ⟨id, -, -, -, unique, rfl⟩ := updateOne_cases one
    have first := apart.withRow List.filter_sublist fun _ => tellsApart_of_unique keyed identity unique
    exact ih first keyed identity rest

theorem Apart.widened {column : StoredColumn} (apart : t.Apart) (placed : t.Placed) (plain : column.keyPosition = 0) :
    (t.widened column).Apart := by
  show (t.rows.map _).Pairwise _
  rw [List.pairwise_map]
  refine List.Pairwise.imp ?_ apart
  rintro a b ⟨i, inKey, differ⟩
  refine ⟨i, ?_, ?_⟩
  · rwa [keyPositions_widened placed plain]
  · rwa [valueAt_widened, valueAt_widened]

/-- The rows stay apart whatever a command makes of the table. A key that is the row id is kept by the ids. -/
theorem Apart.next {command : Sql.Command} (apart : t.Apart) (keyed : t.keyPositions ≠ []) (placed : t.Placed)
    (regular : after.Regular) (next : t.Next c command after) : after.Apart := by
  rcases identity : t.idColumn? with _ | i
  · cases next with
    | same => exact apart
    | inserted done => exact apart.insertAll keyed identity done
    | updated done => exact apart.updateAll keyed identity done
    | deleted => exact apart.filter _
    | widened => exact apart.widened placed rfl
  · exact regular.apart ((next.idColumn? placed).trans identity)

end StoredTable

end RecordMapper.Store
