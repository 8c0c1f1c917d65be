import RecordMapper.Proofs.Outcome
import RecordMapper.Proofs.Record.Positions
import RecordMapper.Shape

namespace RecordMapper

def DataType.storageClass : DataType → StorageClass
  | .integer | .boolean => .integer
  | .float => .real
  | .text | .date | .timestamp | .uuid => .text
  | .blob => .blob

section Codecs

variable {α : Type} {v : Value} {a : α}

def DataType.Takes (d : DataType) (v : Value) : Prop :=
  v.storageClass = d.storageClass ∨ d = .float ∧ v.storageClass = .integer

theorem Codec.ofIntegers_takes {typeName : String} {toInt : α → Int} {ofInt? : Int → Option α}
    (read : (Codec.ofIntegers typeName toInt ofInt?).decode v = .ok a) : DataType.integer.Takes v := by
  cases v with
  | integer n => exact .inl rfl
  | null | real | text | blob => cases read

theorem Codec.ofText_takes {d : DataType} (text : d.storageClass = .text) {write : α → String}
    {reader : String → Except CodecFault α} (read : (Codec.ofText d write reader).decode v = .ok a) : d.Takes v := by
  cases v with
  | text s => exact .inl text.symm
  | null | integer | real | blob => cases read

theorem Codec.real_takes {x : Number.Binary64} (read : Codec.real v = .ok x) : DataType.float.Takes v := by
  cases v with
  | real y => exact .inl rfl
  | integer n => exact .inr ⟨rfl, rfl⟩
  | null | text | blob => cases read

theorem Scalar.takes (s : Scalar) {a : s.Carrier} (read : s.codec.decode v = .ok a) : s.codec.dataType.Takes v := by
  cases s with
  | int8 | int16 | int32 | uint8 | uint16 | uint32 => exact Codec.ofIntegers_takes read
  | int64 =>
    have whole : (Codec.ofIntegers "i64" Int64.toInt fun n => some (Int64.ofInt n)).decode v = .ok a := read
    exact Codec.ofIntegers_takes whole
  | universal | localTime | date | uuid => exact Codec.ofText_takes rfl read
  | float64 => exact Codec.real_takes read
  | float32 =>
    rcases number : Codec.real v with fault | x
    · simp [codec, Codec.float32, number, Except.map] at read
    · exact Codec.real_takes number
  | bool =>
    cases v with
    | integer n => exact .inl rfl
    | null | real | text | blob => cases read
  | string =>
    cases v with
    | text s => exact .inl rfl
    | null | integer | real | blob => cases read
  | bytes =>
    cases v with
    | blob b => exact .inl rfl
    | null | integer | real | text => cases read

theorem FieldType.takes (t : FieldType) {a : t.Carrier} (read : t.codec.decode v = .ok a) :
    v = .null ∨ t.codec.dataType.Takes v := by
  obtain ⟨scalar, _ | _⟩ := t
  · exact .inr (scalar.takes read)
  · by_cases null : v = .null
    · exact .inl null
    · right
      have given : (scalar.codec.decode v).map some = .ok a := by
        cases v with
        | null => exact absurd rfl null
        | integer | real | text | blob => exact read
      rcases found : scalar.codec.decode v with fault | b
      · rw [found] at given
        cases given
      · exact scalar.takes found

end Codecs

namespace Shape

variable {n : Nat}

/-- Shapes whose reader takes a row as its columns have it: one value for each, in order, and by the column's type. -/
def ReadsColumns (s : Shape n) : Prop :=
  ∀ (t : Table) (values : List Value) record, values.length = (s.fields.filterMap Field.column?).length →
    t.read s.read values = .ok record →
    List.Forall₂ (fun (field : String × FieldType) value => ∃ a, field.2.codec.decode value = .ok a)
      (s.fields.filterMap Field.column?) values

theorem readsColumns_ofFields (name table : String) (key : List String) (fields : List (Field n)) :
    (ofFields name table key fields).ReadsColumns := by
  intro t values record whole read
  have wide : t.width = ((fields.filterMap Field.column?).map Prod.snd).length := by
    rw [List.length_map, ← Table.length_of_read read]
    exact whole
  rcases Table.read_exact wide values with ⟨-, failed⟩ | ⟨same, ⟨r, -, each⟩ | ⟨i, column, fault, -, -, -, failed⟩⟩
  · cases failed.symm.trans read
  · exact List.forall₂_map_left_iff.1 (each.decodes (same.trans wide))
  · cases failed.symm.trans read

end Shape

end RecordMapper
