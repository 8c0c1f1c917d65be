import RecordMapper.Proofs.Calendar.Universal
import RecordMapper.Proofs.Record.Exactness
import RecordMapper.Proofs.Store.Settling
import RecordMapper.Store.Defining

namespace RecordMapper

open RecordMapper.Number RecordMapper.Calendar RecordMapper.Text RecordMapper.Store

def DataType.kept (d : DataType) (v : Value) : Value :=
  (Affinity.ofDeclared (keptType d.declared)).stored (admitted v)

namespace DataType

theorem affinity_declared (d : DataType) : Affinity.ofDeclared (keptType d.declared) =
    match d with
    | .integer | .boolean => .numeric
    | .float => .real
    | .text | .date | .timestamp | .uuid => .text
    | .blob => .blob := by
  cases d <;> decide

theorem kept_null (d : DataType) : d.kept .null = .null :=
  Affinity.stored_null _

theorem kept_float {x : Binary64} (number : x.read ≠ .notANumber) :
    DataType.float.kept (.real x) = .real (if x.key = 0 then .zero else x) := by
  rw [kept, affinity_declared, (IsNumber.real number).admitted]
  show (if x.key = 0 then Value.real .zero else .real x) = _
  split <;> rfl

theorem kept_of_class {d : DataType} {v : Value} (whole : d ≠ .float) (same : v.storageClass = d.storageClass) :
    d.kept v = v := by
  rw [kept, affinity_declared]
  cases d with
  | float => exact absurd rfl whole
  | integer | boolean | text | date | timestamp | uuid | blob => cases v <;> first | rfl | cases same

end DataType

section Codecs

variable {α : Type} {a : α}

/-- What is read of what a column stores of a value. -/
def Codec.Returns (codec : Codec α) (a b : α) : Prop :=
  codec.decode (codec.dataType.kept (codec.encode a)) = .ok b

theorem Codec.Restores.returns {codec : Codec α} {b : α} (restores : codec.Restores a b)
    (kept : codec.dataType.kept (codec.encode a) = codec.encode a) : codec.Returns a b := by
  rw [Returns, kept]
  exact restores

theorem Codec.universal_restores {m : Moment} (bare : m.IsBare) (place : m.LeapsInPlace) :
    Codec.universal.Restores m m := by
  unfold universal
  apply ofText_back
  rw [m.ofUniversalText_universalText bare.1 bare.2, Moment.shown_of_leapsInPlace place]
  rfl

end Codecs

section Reals

def Number.Reading.IsZero (reading : Reading) : Prop :=
  ∃ negative, reading = .finite negative 0

theorem Number.Binary64.key_cases_zero {x : Binary64} (number : x.read ≠ .notANumber) :
    x.key ≠ 0 ∨ x.key = 0 ∧ x.read.IsZero := by
  by_cases none : x.key = 0
  · rcases Binary64.key_cases number with same | ⟨negative, zero, -⟩
    · obtain rfl : x = .zero := congrArg Binary64.mk (same.symm.trans none)
      exact .inr ⟨none, false, by decide⟩
    · exact .inr ⟨none, negative, zero⟩
  · exact .inl none

/-- A number comes back from a column of reals, or else it is a zero and a zero comes back. -/
theorem Codec.real_kept {x : Binary64} (number : x.read ≠ .notANumber) :
    ∃ y, Codec.real (DataType.float.kept (.real x)) = .ok y ∧ (x = y ∨ x.read.IsZero ∧ y = .zero) := by
  rw [DataType.kept_float number]
  rcases Binary64.key_cases_zero number with some | ⟨none, zero⟩
  · exact ⟨x, by rw [if_neg some, Codec.real], .inl rfl⟩
  · exact ⟨.zero, by rw [if_pos none, Codec.real], .inr ⟨zero, rfl⟩⟩

theorem Number.Binary32.widen_number {x : Binary32} (number : x.read ≠ .notANumber) : x.widen.read ≠ .notANumber := by
  rcases read : x.read with _ | negative | ⟨negative, units⟩
  · exact absurd read number
  · rw [Binary32.widen, read]
    cases negative <;> decide
  · rw [Binary32.read_widen read]
    intro none
    cases none

theorem Number.Binary32.isZero_of_widen {x : Binary32} (number : x.read ≠ .notANumber) (zero : x.widen.read.IsZero) :
    x.read.IsZero := by
  obtain ⟨negative, zero⟩ := zero
  rcases read : x.read with _ | infinite | ⟨sign, units⟩
  · exact absurd read number
  · rw [Binary32.widen, read] at zero
    exact absurd zero (by cases infinite <;> cases negative <;> decide)
  · rw [Binary32.read_widen read] at zero
    obtain ⟨rfl, none⟩ := Reading.finite.inj zero
    have units : units = 0 := (Nat.mul_eq_zero.1 none).resolve_right (Nat.ne_of_gt (Nat.two_pow_pos _))
    exact ⟨sign, by rw [units]⟩

end Reals

section Fields

namespace Scalar

/-- Values that a column can give back: real numbers that are numbers, and moments with leap seconds only at the end of a
    minute, those of universal time in a year of four digits. -/
def Keeps : (s : Scalar) → s.Carrier → Prop
  | .float32, (x : Binary32) => x.read ≠ .notANumber
  | .float64, (x : Binary64) => x.read ≠ .notANumber
  | .universal, (m : Moment) => m.IsBare ∧ m.LeapsInPlace
  | .localTime, (m : Moment) => m.LeapsInPlace
  | _, _ => True

/-- Equality, where a zero equals the other zero. -/
def Agrees : (s : Scalar) → s.Carrier → s.Carrier → Prop
  | .float32, (x : Binary32), (y : Binary32) => x = y ∨ x.read.IsZero ∧ y.read.IsZero
  | .float64, (x : Binary64), (y : Binary64) => x = y ∨ x.read.IsZero ∧ y.read.IsZero
  | _, a, b => a = b

theorem agrees_float64 {x : Binary64} (number : x.read ≠ .notANumber) :
    ∃ y, Codec.float64.Returns x y ∧ Scalar.float64.Agrees x y := by
  obtain ⟨y, read, same | ⟨zero, rfl⟩⟩ := Codec.real_kept number
  · exact ⟨y, read, .inl same⟩
  · exact ⟨.zero, read, .inr ⟨zero, false, by decide⟩⟩

theorem agrees_float32 {x : Binary32} (number : x.read ≠ .notANumber) :
    ∃ y, Codec.float32.Returns x y ∧ Scalar.float32.Agrees x y := by
  obtain ⟨y, read, same⟩ := Codec.real_kept (Binary32.widen_number number)
  refine ⟨y.narrow, congrArg (Except.map Binary64.narrow) read, ?_⟩
  rcases same with rfl | ⟨zero, rfl⟩
  · exact .inl (Binary32.narrow_widen number).symm
  · exact .inr ⟨Binary32.isZero_of_widen number zero, false, by decide⟩

theorem kept_encode {s : Scalar} (whole : s.codec.dataType ≠ .float) (a : s.Carrier) :
    s.codec.dataType.kept (s.codec.encode a) = s.codec.encode a :=
  DataType.kept_of_class whole (s.storageClass_encode a)

theorem returns (s : Scalar) {a : s.Carrier} (keeps : s.Keeps a) :
    ∃ b, s.codec.Returns a b ∧ s.Agrees a b := by
  cases s with
  | float32 => exact agrees_float32 keeps
  | float64 => exact agrees_float64 keeps
  | universal => exact ⟨a, (Codec.universal_restores keeps.1 keeps.2).returns (kept_encode (by decide) a), rfl⟩
  | localTime => exact ⟨a, Codec.Restores.returns (Codec.localTime_back keeps) (kept_encode (by decide) a), rfl⟩
  | int8 | int16 | int32 | int64 | uint8 | uint16 | uint32 | bool | string | bytes | date | uuid =>
    obtain ⟨b, restores, same⟩ := Scalar.restores _ (by decide) a
    exact ⟨b, restores.returns (kept_encode (by decide) a), same⟩

end Scalar

namespace FieldType

def Keeps : (t : FieldType) → t.Carrier → Prop
  | ⟨scalar, true⟩, (a : Option scalar.Carrier) => ∀ value ∈ a, scalar.Keeps value
  | ⟨scalar, false⟩, a => scalar.Keeps a

def Agrees : (t : FieldType) → t.Carrier → t.Carrier → Prop
  | ⟨scalar, true⟩, (a : Option scalar.Carrier), (b : Option scalar.Carrier) => Option.Rel scalar.Agrees a b
  | ⟨scalar, false⟩, a, b => scalar.Agrees a b

theorem optional_returns_none {α : Type} (codec : Codec α) : codec.optional.Returns none none := by
  simp only [Codec.Returns, Codec.optional, DataType.kept_null]

theorem optional_returns_some {α : Type} {codec : Codec α} {a b : α} (returns : codec.Returns a b)
    (some : codec.dataType.kept (codec.encode a) ≠ .null) : codec.optional.Returns (.some a) (.some b) := by
  simp only [Codec.Returns, Codec.optional] at returns ⊢
  generalize codec.dataType.kept (codec.encode a) = v at returns some
  cases v with
  | null => exact absurd rfl some
  | integer | real | text | blob => rw [returns]; rfl

theorem ne_null_of_takes {d : DataType} {v : Value} (takes : d.Takes v) : v ≠ .null := by
  rintro rfl
  rcases takes with same | ⟨-, whole⟩
  · cases d <;> cases same
  · cases whole

theorem returns (t : FieldType) {a : t.Carrier} (keeps : t.Keeps a) :
    ∃ b, t.codec.Returns a b ∧ t.Agrees a b := by
  obtain ⟨scalar, _ | _⟩ := t
  · exact scalar.returns keeps
  · cases a with
    | none => exact ⟨none, optional_returns_none scalar.codec, .none⟩
    | some value =>
      obtain ⟨b, returns, agrees⟩ := scalar.returns (keeps value rfl)
      exact ⟨some b, optional_returns_some returns (ne_null_of_takes (scalar.takes returns)), .some agrees⟩

end FieldType

end Fields

section Records

namespace Record

def Keeps : (types : List FieldType) → Record types → Prop
  | [], _ => True
  | t :: types, (field, rest) => t.Keeps field ∧ Keeps types rest

def Agrees : (types : List FieldType) → Record types → Record types → Prop
  | [], _, _ => True
  | t :: types, (field, rest), (field', rest') => t.Agrees field field' ∧ Agrees types rest rest'

def kept (types : List FieldType) (r : Record types) : List Value :=
  List.zipWith (fun (t : FieldType) v => t.codec.dataType.kept v) types (r.values types)

theorem length_kept (types : List FieldType) (r : Record types) : (r.kept types).length = types.length := by
  rw [kept, List.length_zipWith, r.length_values, Nat.min_self]

/-- What is stored of a record is read as a record that agrees with it, and nothing is left. -/
theorem returns {types : List FieldType} {r : Record types} (keeps : r.Keeps types) (cursor : Cursor)
    (given : cursor.values = r.kept types) :
    ∃ r' after, Reader.record types cursor = .ok (r', after) ∧ after.values = [] ∧ Agrees types r r' := by
  induction types generalizing cursor with
  | nil => exact ⟨(), cursor, rfl, given, trivial⟩
  | cons t types ih =>
    obtain ⟨field, rest⟩ := r
    obtain ⟨table, columns, values, position⟩ := cursor
    obtain rfl : values = t.codec.dataType.kept (t.codec.encode field) :: kept types rest := given
    obtain ⟨field', read, agrees⟩ := t.returns keeps.1
    unfold Codec.Returns at read
    obtain ⟨rest', after, others, none, agree⟩ := ih keeps.2 ⟨table, columns.tail, kept types rest, position + 1⟩ rfl
    refine ⟨(field', rest'), after, ?_, none, agrees, agree⟩
    simp only [Reader.record, Reader.next, bind, StateT.bind, read, Except.bind, others]
    rfl

end Record

theorem Table.read_kept {t : Table} {types : List FieldType} {r : Record types} (keeps : r.Keeps types)
    (width : t.width = types.length) :
    ∃ r', t.read (Reader.record types) (r.kept types) = .ok r' ∧ r.Agrees types r' := by
  obtain ⟨r', after, read, none, agrees⟩ := Record.returns keeps ⟨t.name, t.columnNames, r.kept types, 0⟩ rfl
  refine ⟨r', ?_, agrees⟩
  unfold Table.read
  rw [if_neg (by rw [Record.length_kept, width]; exact not_not_intro rfl), read]
  simp only [none, List.length_nil]

end Records

end RecordMapper
