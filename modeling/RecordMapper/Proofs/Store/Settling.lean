import RecordMapper.Proofs.Number.Rounded
import RecordMapper.Store.Writing

namespace RecordMapper.Store

open RecordMapper.Number RecordMapper.Text

section Values

variable {v : Value}

inductive IsNumber : Value → Prop where
  | integer (n : Int64) : IsNumber (.integer n)
  | real {x : Binary64} (number : x.read ≠ .notANumber) : IsNumber (.real x)

theorem IsNumber.admitted (number : IsNumber v) : admitted v = v := by
  cases number with
  | integer => rfl
  | real number =>
    rename_i x
    have plain : x.isNaN = false := by simpa [Binary64.isNaN] using number
    simp [Store.admitted, plain]

theorem isNumber_of_admitted {x : Binary64} (number : admitted (.real x) = .real x) : IsNumber (.real x) := by
  refine .real fun none => ?_
  have absent : x.isNaN = true := by simp [Binary64.isNaN, none]
  simp [admitted, absent] at number

theorem admitted_admitted (v : Value) : admitted (admitted v) = admitted v := by
  cases v with
  | real x =>
    unfold admitted
    cases plain : x.isNaN <;> simp [plain]
  | null | integer | text | blob => rfl

theorem numberOf?_isNumber {s : String} (read : numberOf? s = some v) : IsNumber v := by
  have number := read_readNumeral s.toList
  unfold numberOf? at read
  split at read
  · rename_i x same
    rw [same] at number
    split at read
    · cases read
      exact .integer _
    · cases read
      exact .real number
  · rename_i x same
    rw [same] at number
    cases read
    exact .real number
  · cases read

theorem settled_cases (x : Binary64) : (∃ n, settled x = .integer n) ∨ settled x = .real x := by
  unfold settled
  split
  · split
    · exact .inl ⟨_, rfl⟩
    · exact .inr rfl
  · exact .inr rfl

namespace Affinity

@[simp] theorem stored_null (a : Affinity) : a.stored .null = .null := by
  cases a <;> rfl

theorem numeric_settled {x : Binary64} (number : IsNumber (.real x)) :
    numeric.stored (admitted (settled x)) = settled x := by
  rcases settled_cases x with ⟨n, whole⟩ | same
  · rw [whole]
    rfl
  · rw [same, number.admitted]
    exact same

theorem real_real {x : Binary64} (number : IsNumber (.real x)) (one : x.key = 0 → x = .zero) :
    real.stored (admitted (.real x)) = .real x := by
  rw [number.admitted]
  simp only [stored, realOf]
  split
  · rename_i none
    rw [one none]
  · rfl

theorem real_realOf (number : IsNumber v) : real.stored (admitted (realOf v)) = realOf v := by
  cases number with
  | integer n => exact real_real (.real (Binary64.read_ofRatio _ _ _)) Binary64.ofInt_of_key
  | real number =>
    simp only [realOf]
    split
    · rfl
    · rename_i some
      exact real_real (.real number) fun none => absurd none some

/-- What has been stored is stored as it is. -/
theorem stored_stored (a : Affinity) (number : admitted v = v) :
    a.stored (admitted (a.stored v)) = a.stored v := by
  cases a with
  -- What has become text or was left alone is no number any more, so only numbers are looked at twice.
  | text => cases v <;> rfl
  | blob => exact number
  | numeric =>
    cases v with
    | text s =>
      rcases read : numberOf? s with _ | w
      · simp only [stored, admitted, read]
      · cases numberOf?_isNumber read with
        | integer n => simp only [stored, admitted, read]
        | real real =>
          simp only [stored, read]
          exact numeric_settled (.real real)
    | real x => exact numeric_settled (isNumber_of_admitted number)
    | null | integer | blob => rfl
  | real =>
    cases v with
    | text s =>
      rcases read : numberOf? s with _ | w
      · simp only [stored, admitted, read, Option.elim]
      · simp only [stored, read, Option.elim]
        exact real_realOf (numberOf?_isNumber read)
    | real x => exact real_realOf (isNumber_of_admitted number)
    | integer n => exact real_realOf (.integer n)
    | null | blob => rfl

theorem admitted_of_stored {a : Affinity} (settled : a.stored (admitted v) = v) : admitted v = v := by
  unfold admitted at settled ⊢
  split
  · split
    · rename_i none
      simp only [none, if_true, stored_null] at settled
      cases settled
    · rfl
  · rfl

end Affinity

end Values

section Rows

/-- Whether a row has no more values than there are columns, each as its column's affinity stores it. -/
structure StoredRow.Settled (row : StoredRow) (columns : List StoredColumn) : Prop where
  narrow : row.values.length ≤ columns.length
  values : ∀ i column, columns[i]? = some column →
    column.affinity.stored (admitted (row.valueAt i)) = row.valueAt i

def StoredTable.Settled (t : StoredTable) : Prop :=
  ∀ row ∈ t.rows, ∀ i column, t.columns[i]? = some column →
    column.affinity.stored (admitted (row.valueAt i)) = row.valueAt i

def Content.Settled (c : Content) : Prop :=
  ∀ t ∈ c.tables, ∀ row ∈ t.rows, row.Settled t.columns

variable {t : StoredTable} {i : Nat} {column : StoredColumn} {given : List Value}

theorem StoredRow.Settled.addColumn {row : StoredRow} {columns : List StoredColumn} (settled : row.Settled columns)
    (column : StoredColumn) : ({ row with values := row.values ++ [.null] } : StoredRow).Settled (columns ++ [column]) := by
  have narrow := settled.narrow
  have value : ∀ i, ({ row with values := row.values ++ [.null] } : StoredRow).valueAt i = row.valueAt i := by
    intro i
    simp only [StoredRow.valueAt]
    by_cases present : i < row.values.length
    · rw [List.getElem?_append_left present]
    · have absent : row.values[i]? = none := List.getElem?_eq_none (by omega)
      rw [List.getElem?_append_right (by omega), absent]
      rcases i - row.values.length with _ | k <;> rfl
  constructor
  · simp only [List.length_append, List.length_singleton]
    omega
  · intro i other here
    rw [value]
    by_cases old : i < columns.length
    · rw [List.getElem?_append_left old] at here
      exact settled.values i other here
    · have none : row.valueAt i = .null := by
        rw [StoredRow.valueAt, List.getElem?_eq_none (by omega), Option.getD_none]
      rw [none]
      exact Affinity.stored_null _

theorem affinity_of_idColumn? (identity : t.idColumn? = some i) (here : t.columns[i]? = some column) :
    column.affinity = .numeric := by
  have declared : sameIgnoringCase column.declared "INTEGER" = true := by
    unfold StoredTable.idColumn? at identity
    split at identity
    · split at identity
      · rename_i position _ some
        cases identity
        simpa [here] using some
      · cases identity
    · cases identity
  have folded : foldCase column.declared = "integer" := by
    rw [(sameIgnoringCase_iff _ _).1 declared]
    decide
  simp only [StoredColumn.affinity, Affinity.ofDeclared, folded]
  rw [if_pos (by decide)]

theorem settled_rowOf (id : Int) (numbers : ∀ v ∈ given, admitted v = v) : (rowOf t id given).Settled t.columns := by
  constructor
  · simp only [rowOf, List.length_mapIdx, List.length_zip]
    omega
  · intro i column here
    rcases pair : (given.zip t.columns)[i]? with _ | ⟨v, own⟩
    · have absent : (rowOf t id given).valueAt i = .null := by
        simp only [StoredRow.valueAt, rowOf, List.getElem?_mapIdx, pair, Option.map_none, Option.getD_none]
      rw [absent]
      exact Affinity.stored_null _
    · obtain ⟨value, position⟩ := List.getElem?_zip_eq_some.1 pair
      obtain rfl : own = column := Option.some.inj (position.symm.trans here)
      have written : (rowOf t id given).valueAt i =
          if t.idColumn? == some i then .integer (Int64.ofInt id) else own.affinity.stored v := by
        simp only [StoredRow.valueAt, rowOf, List.getElem?_mapIdx, pair, Option.map_some, Option.getD_some]
      rw [written]
      split
      · rename_i identity
        rw [affinity_of_idColumn? (by simpa using identity) here]
        rfl
      · exact Affinity.stored_stored _ (numbers v (List.mem_of_getElem? value))

theorem admitted_valuesByColumn (columns : Option (List String)) (given : List Value) :
    ∀ v ∈ valuesByColumn t columns given, admitted v = v := by
  intro v member
  unfold valuesByColumn at member
  split at member
  · obtain ⟨own, -, rfl⟩ := List.mem_map.1 member
    exact admitted_admitted own
  · obtain ⟨column, -, rfl⟩ := List.mem_map.1 member
    split
    · exact admitted_admitted _
    · rfl

def updatedRow (t : StoredTable) (assignments : List (String × Value)) (id : Int) (old : StoredRow) : StoredRow :=
  rowOf t id ((t.columns.map fun column => assigned? assignments column.name).mapIdx fun i v =>
    v.getD (old.valueAt i))

theorem settled_updatedRow {assignments : List (String × Value)} {old : StoredRow} (id : Int)
    (settled : old.Settled t.columns) : (updatedRow t assignments id old).Settled t.columns := by
  refine settled_rowOf id fun v member => ?_
  obtain ⟨i, bound, rfl⟩ := List.mem_mapIdx.1 member
  simp only [List.length_map] at bound
  simp only [List.getElem_map]
  rcases given : assigned? assignments t.columns[i].name with _ | w
  · exact Affinity.admitted_of_stored (settled.values i _ (List.getElem?_eq_getElem bound))
  · simp only [assigned?, Option.map_eq_some_iff] at given
    obtain ⟨assignment, -, rfl⟩ := given
    exact admitted_admitted _

theorem mem_insertRow {row other : StoredRow} {rows : List StoredRow}
    (member : other ∈ StoredTable.insertRow row rows) : other = row ∨ other ∈ rows := by
  induction rows with
  | nil => exact .inl (List.mem_singleton.1 member)
  | cons first rest ih =>
    unfold StoredTable.insertRow at member
    split at member
    · rcases List.mem_cons.1 member with rfl | later
      · exact .inr List.mem_cons_self
      · exact (ih later).imp_right (List.mem_cons_of_mem _)
    · exact List.mem_cons.1 member

end Rows

end RecordMapper.Store
