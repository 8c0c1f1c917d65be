import RecordMapper.Proofs.Record.Returning
import RecordMapper.Proofs.Store.Regular
import RecordMapper.Proofs.Store.Sameness

namespace RecordMapper

open RecordMapper.Store RecordMapper.Number RecordMapper.Text

section Equality

theorem Number.Binary64.compare?_symm {x y : Binary64} (equal : (x.compare? y).getD .eq = .eq) : (y.compare? x).getD .eq = .eq := by
  by_cases first : x.read = .notANumber
  · cases other : y.read <;> simp [Binary64.compare?, first, other]
  · by_cases second : y.read = .notANumber
    · simp [Binary64.compare?, second]
    · exact Binary64.compare?_of_key (Binary64.key_of_compare? first second equal).symm

theorem Store.sameValue_symm {a b : Value} (same : sameValue a b = true) : sameValue b a = true := by
  simp only [sameValue, beq_iff_eq] at same ⊢
  cases a <;> cases b
  case integer.integer =>
    simp only [compareValues, compare_eq_iff_eq] at same ⊢
    exact same.symm
  case integer.real m y =>
    simp only [compareValues] at same ⊢
    generalize y.compareInt? m.toInt = order at same ⊢
    rcases order with _ | _ | _ | _ <;> cases same
    rfl
  case real.integer x n =>
    simp only [compareValues] at same ⊢
    generalize x.compareInt? n.toInt = order at same ⊢
    rcases order with _ | _ | _ | _ <;> cases same
    rfl
  case real.real => exact Binary64.compare?_symm same
  case text.text =>
    simp only [compareValues] at same ⊢
    rw [eq_of_compareBytes same, compareBytes_self]
  case blob.blob =>
    simp only [compareValues] at same ⊢
    rw [eq_of_compareBytes same, compareBytes_self]
  all_goals first | rfl | cases same

theorem Store.compareTruth_eq_iff {a b : Value} : compareTruth .eq a b = some true ↔ a ≠ .null ∧ b ≠ .null ∧ sameValue a b = true := by
  unfold compareTruth sameValue
  cases a <;> cases b <;> simp [Value.isNull, Comparison.holds]

theorem Store.Affinity.compared_of_stored {affinity : Affinity} {v : Value} (settled : affinity.stored (admitted v) = v) :
    affinity.compared v = v := by
  have number := admitted_of_stored settled
  rw [number] at settled
  cases affinity with
  | text => exact settled
  | blob => rfl
  | numeric =>
    cases v with
    | text s =>
      rcases read : numberOf? s with _ | w
      · simp only [compared, read, Option.getD_none]
      · cases numberOf?_isNumber read with
        | integer n => simp [stored, read] at settled
        | real real =>
          rename_i x
          simp only [stored, read] at settled
          rcases settled_cases x with ⟨n, whole⟩ | same
          · rw [whole] at settled
            cases settled
          · rw [same] at settled
            cases settled
    | null | integer | real | blob => rfl
  | real =>
    cases v with
    | text s =>
      rcases read : numberOf? s with _ | w
      · simp only [compared, read, Option.getD_none]
      · simp only [stored, read, Option.elim] at settled
        cases numberOf?_isNumber read with
        | integer n => cases settled
        | real real =>
          simp only [realOf] at settled
          split at settled <;> cases settled
    | null | integer | real | blob => rfl

end Equality

section Bound

variable {d : DataType} {v w : Value}

/-- A value that can be bound to a column of the type: one of its class, which is a number if it is real. -/
structure DataType.Binds (d : DataType) (v : Value) : Prop where
  fits : v.storageClass = d.storageClass
  number : admitted v = v

namespace DataType.Binds

theorem ne_null (binds : d.Binds v) : v ≠ .null := by
  rintro rfl
  have none := binds.fits
  cases d <;> cases none

theorem compared (binds : d.Binds v) : (Affinity.ofDeclared (keptType d.declared)).compared v = v := by
  have fits := binds.fits
  rw [affinity_declared]
  cases d <;> cases v <;> first | rfl | cases fits

/-- What is stored of a bound value is the value, but for the sign of a zero. -/
theorem kept_cases (binds : d.Binds v) : d.kept v = v ∨ d = .float ∧ ∃ x, v = .real x ∧ x.key = 0 ∧ d.kept v = .real .zero := by
  by_cases real : d = .float
  · subst real
    have fits := binds.fits
    cases v with
    | real x =>
      rw [kept_float (read_of_admitted binds.number)]
      split
      · rename_i none
        exact .inr ⟨rfl, x, rfl, none, rfl⟩
      · exact .inl rfl
    | null | integer | text | blob => cases fits
  · exact .inl (kept_of_class real binds.fits)

theorem normal_kept (binds : d.Binds v) : (d.kept v).normal = v.normal := by
  rcases binds.kept_cases with same | ⟨-, x, rfl, none, zero⟩
  · rw [same]
  · rw [zero, Value.normal, Value.normal, none]
    rfl

theorem same_kept (binds : d.Binds v) : sameValue (d.kept v) v = true :=
  sameValue_of_normal binds.normal_kept

theorem kept_ne_null (binds : d.Binds v) : d.kept v ≠ .null := by
  rcases binds.kept_cases with same | ⟨-, x, -, -, zero⟩
  · rw [same]
    exact binds.ne_null
  · rw [zero]
    exact Value.noConfusion

theorem same_of_bound (binds : d.Binds v) (settled : (Affinity.ofDeclared (keptType d.declared)).stored (admitted w) = w)
    (same : sameValue w v = true) : sameValue (d.kept v) w = true := by
  rcases binds.kept_cases with kept | ⟨rfl, x, rfl, none, zero⟩
  · rw [kept]
    exact sameValue_symm same
  · -- A column of reals holds no integer, so what equals a zero is a zero.
    rw [affinity_declared] at settled
    cases w with
    | integer n => cases settled
    | null | text | blob => cases same
    | real y =>
      have alike : Alike (.real y) (.real x) := ⟨Affinity.admitted_of_stored settled, binds.number, fun _ _ => rfl⟩
      rw [zero]
      refine sameValue_of_normal ?_
      rw [alike.normal_of_sameValue same, Value.normal, Value.normal, none]
      rfl

end DataType.Binds

/-- What a scalar type writes can be bound to its column. -/
theorem Scalar.binds (s : Scalar) {a : s.Carrier} (keeps : s.Keeps a) : s.codec.dataType.Binds (s.codec.encode a) := by
  cases s with
  | float32 => exact ⟨rfl, (IsNumber.real (Binary32.widen_number keeps)).admitted⟩
  | float64 => exact ⟨rfl, (IsNumber.real keeps).admitted⟩
  | _ => exact ⟨rfl, rfl⟩

theorem FieldType.binds {t : FieldType} (required : t.optional = false) {a : t.Carrier} (keeps : t.Keeps a) :
    t.codec.dataType.Binds (t.codec.encode a) := by
  obtain ⟨scalar, _ | _⟩ := t
  · exact scalar.binds keeps
  · cases required

theorem Record.binds {types : List FieldType} {r : Record types} (keeps : r.Keeps types) :
    List.Forall₂ (fun (t : FieldType) v => t.optional = false → t.codec.dataType.Binds v) types (r.values types) := by
  induction types with
  | nil => exact .nil
  | cons t types ih => exact .cons (fun required => t.binds required keeps.1) (ih keeps.2)

end Bound

section Uniqueness

variable {c : Content} {t : StoredTable} {row other : StoredRow}

theorem Store.checkUnique_eq_ok {others : List StoredRow} {indexes : List StoredIndex}
    (checked : checkUnique t others row indexes = .ok ()) :
    ∀ index ∈ indexes, ∀ other ∈ others, collide index.terms row other = false := by
  induction indexes with
  | nil => simp
  | cons first rest ih =>
    unfold checkUnique at checked
    split at checked
    · cases checked
    · rename_i apart
      intro index member other stored
      rcases List.mem_cons.1 member with rfl | later
      · rw [← Bool.not_eq_true]
        exact fun collides => apart (List.any_eq_true.2 ⟨other, stored, collides⟩)
      · exact ih checked index later other stored

theorem Store.sameValues_map {ι : Type} {f g : ι → Value} {entries : List ι} :
    sameValues (entries.map f) (entries.map g) = true ↔ ∀ i ∈ entries, sameValue (f i) (g i) = true := by
  induction entries with
  | nil => simp [sameValues]
  | cons i entries ih => simp [sameValues, ih]

theorem Store.collide_columns {places : List Nat} : collide (places.map .column) row other = true ↔
    (∀ i ∈ places, row.valueAt i ≠ .null) ∧ ∀ i ∈ places, sameValue (row.valueAt i) (other.valueAt i) = true := by
  have values (row : StoredRow) : termValues (places.map .column) row = places.map row.valueAt := by
    rw [termValues, List.map_map]
    rfl
  rw [collide, values, values, Bool.and_eq_true, sameValues_map]
  simp

/-- Whether a key lets two rows stand together: in one of its columns the first is null, or they differ. -/
def Store.StoredTable.TellsApart (t : StoredTable) (row other : StoredRow) : Prop :=
  ∃ i ∈ t.keyPositions, row.valueAt i = .null ∨ sameValue (row.valueAt i) (other.valueAt i) = false

theorem Store.tellsApart_of_unique {others : List StoredRow} (keyed : t.keyPositions ≠ []) (identity : t.idColumn? = none)
    (unique : checkUnique t others row (uniqueIndexes c t) = .ok ()) (stored : other ∈ others) :
    t.TellsApart row other := by
  have listed : (⟨"", t.name, t.keyPositions.map .column, true⟩ : StoredIndex) ∈ uniqueIndexes c t := by
    have own : t.uniqueKey = t.keyPositions := by rw [StoredTable.uniqueKey, identity]; rfl
    rw [uniqueIndexes, own, if_neg (by simpa using keyed)]
    exact List.mem_append_right _ (List.mem_singleton_self _)
  have apart := checkUnique_eq_ok unique _ listed other stored
  by_contra none
  have some : ∀ i ∈ t.keyPositions, row.valueAt i ≠ .null :=
    fun i inKey null => none ⟨i, inKey, .inl null⟩
  have equal : ∀ i ∈ t.keyPositions, sameValue (row.valueAt i) (other.valueAt i) = true := by
    intro i inKey
    rw [← Bool.not_eq_false]
    exact fun differs => none ⟨i, inKey, .inr differs⟩
  exact absurd (apart.symm.trans (collide_columns.2 ⟨some, equal⟩)) (by decide)

theorem Store.IsId.differ {id id' : Int} (fits : IsId id) (fits' : IsId id') (apart : id ≠ id') :
    sameValue (.integer (Int64.ofInt id)) (.integer (Int64.ofInt id')) = false := by
  rw [← Bool.not_eq_true]
  intro same
  have equal : compare (Int64.ofInt id).toInt (Int64.ofInt id').toInt = .eq := by
    simpa [sameValue, compareValues] using same
  rw [compare_eq_iff_eq, fits.toInt, fits'.toInt] at equal
  exact apart equal

/-- The key tells the inserted row apart from the rows that were there. -/
theorem Store.key_apart (regular : t.Regular) (keyed : t.keyPositions ≠ []) {id : Int} {given : List Value}
    (fits : ∀ i, t.idColumn? = some i → IsId id) (whole : given.length = t.columns.length) (fresh : ∀ row ∈ t.rows, row.id ≠ id)
    (unique : checkUnique t t.rows (rowOf t id given) (uniqueIndexes c t) = .ok ()) (stored : other ∈ t.rows) :
    t.TellsApart (rowOf t id given) other := by
  rcases identity : t.idColumn? with _ | i
  · exact tellsApart_of_unique keyed identity unique stored
  · refine ⟨i, keyPositions_of_idColumn? identity ▸ List.mem_singleton_self i, .inr ?_⟩
    rw [shown_rowOf whole identity, regular.shown i identity other stored]
    exact (fits i identity).differ (regular.ids other stored) (fresh other stored).symm

end Uniqueness

end RecordMapper
