import RecordMapper.Proofs.Calendar.Local
import RecordMapper.Proofs.Number.Exact
import RecordMapper.Proofs.Record.Decoding
import RecordMapper.Proofs.Record.Spelling

namespace RecordMapper

open RecordMapper.Number RecordMapper.Text

def Codec.Restores {α : Type} (codec : Codec α) (a b : α) : Prop :=
  codec.decode (codec.encode a) = .ok b

section IntegerTypes

variable {α : Type}

structure Integers (α : Type) where
  least : Int
  greatest : Int
  number : α → Int

/-- A codec that takes a stored integer exactly if it is in range, and keeps its number. -/
structure Codec.Carries (codec : Codec α) (i : Integers α) : Prop where
  encodes : ∀ a, ∃ n : Int64, codec.encode a = .integer n ∧ n.toInt = i.number a
  takes : ∀ n : Int64, (∃ a, codec.decode (.integer n) = .ok a) ↔ i.least ≤ n.toInt ∧ n.toInt ≤ i.greatest
  keeps : ∀ (n : Int64) a, codec.decode (.integer n) = .ok a ↔ i.number a = n.toInt

namespace Integers

structure ReadBy (i : Integers α) (ofInt? : Int → Option α) : Prop where
  stored : -9223372036854775808 ≤ i.least ∧ i.greatest < 9223372036854775808
  fits : ∀ a, i.least ≤ i.number a ∧ i.number a ≤ i.greatest
  reads : ∀ (n : Int64) a, ofInt? n.toInt = some a ↔ i.number a = n.toInt
  reaches : ∀ n : Int64, i.least ≤ n.toInt → n.toInt ≤ i.greatest → ∃ a, i.number a = n.toInt

variable {i : Integers α} {ofInt? : Int → Option α}

theorem readBy_between {make : Int → α} (stored : -9223372036854775808 ≤ i.least ∧ i.greatest < 9223372036854775808)
    (fits : ∀ a, i.least ≤ i.number a ∧ i.number a ≤ i.greatest) (back : ∀ a, make (i.number a) = a)
    (number : ∀ n, i.least ≤ n → n ≤ i.greatest → i.number (make n) = n) :
    i.ReadBy (Codec.between i.least i.greatest make) where
  stored := stored
  fits := fits
  reads n a := by
    unfold Codec.between
    split
    · rename_i within
      rw [Option.some_inj]
      exact ⟨fun same => same ▸ number _ within.1 within.2, fun same => same ▸ back a⟩
    · rename_i without
      exact iff_of_false (by simp) fun same => without (same ▸ fits a)
  reaches n least greatest := ⟨make n.toInt, number _ least greatest⟩

theorem ReadBy.carries (reads : i.ReadBy ofInt?) (typeName : String) :
    (Codec.ofIntegers typeName i.number ofInt?).Carries i := by
  have keeps (n : Int64) (a : α) :
      (Codec.ofIntegers typeName i.number ofInt?).decode (.integer n) = .ok a ↔ i.number a = n.toInt := by
    rw [← reads.reads n a]
    simp only [Codec.ofIntegers]
    cases ofInt? n.toInt <;> simp
  refine ⟨fun a => ?_, fun n => ?_, keeps⟩
  · have fits := reads.fits a
    have stored := reads.stored
    exact ⟨_, rfl, Int64.toInt_ofInt_of_le (by omega) (by omega)⟩
  · simp only [keeps]
    exact ⟨fun ⟨a, same⟩ => same ▸ reads.fits a, fun within => reads.reaches n within.1 within.2⟩

theorem readBy_int8 : (⟨-128, 127, Int8.toInt⟩ : Integers Int8).ReadBy (Codec.between (-128) 127 Int8.ofInt) :=
  readBy_between (by decide) (fun n => ⟨n.le_toInt, Int.le_of_lt_add_one n.toInt_lt⟩) Int8.ofInt_toInt
    fun _ least greatest => Int8.toInt_ofInt_of_le least (Int.lt_add_one_of_le greatest)

theorem readBy_int16 :
    (⟨-32768, 32767, Int16.toInt⟩ : Integers Int16).ReadBy (Codec.between (-32768) 32767 Int16.ofInt) :=
  readBy_between (by decide) (fun n => ⟨n.le_toInt, Int.le_of_lt_add_one n.toInt_lt⟩) Int16.ofInt_toInt
    fun _ least greatest => Int16.toInt_ofInt_of_le least (Int.lt_add_one_of_le greatest)

theorem readBy_int32 : (⟨-2147483648, 2147483647, Int32.toInt⟩ : Integers Int32).ReadBy
    (Codec.between (-2147483648) 2147483647 Int32.ofInt) :=
  readBy_between (by decide) (fun n => ⟨n.le_toInt, Int.le_of_lt_add_one n.toInt_lt⟩) Int32.ofInt_toInt
    fun _ least greatest => Int32.toInt_ofInt_of_le least (Int.lt_add_one_of_le greatest)

theorem readBy_int64 : (⟨-9223372036854775808, 9223372036854775807, Int64.toInt⟩ : Integers Int64).ReadBy
    fun n => some (Int64.ofInt n) where
  stored := by decide
  fits n := ⟨n.le_toInt, Int.le_of_lt_add_one n.toInt_lt⟩
  reads n a := by rw [Option.some_inj, n.ofInt_toInt, Int64.toInt_inj, eq_comm]
  reaches n _ _ := ⟨n, rfl⟩

theorem readBy_unsigned {toNat : α → Nat} {ofNat : Nat → α} {greatest : Nat} (stored : greatest < 9223372036854775808)
    (fits : ∀ a, toNat a ≤ greatest) (back : ∀ a, ofNat (toNat a) = a) (number : ∀ n ≤ greatest, toNat (ofNat n) = n) :
    (⟨0, greatest, fun a => toNat a⟩ : Integers α).ReadBy (Codec.between 0 greatest fun n => ofNat n.toNat) := by
  refine readBy_between (by simp only; omega) (fun a => ?_) back fun n least most => ?_
  · have := fits a
    simp only
    omega
  · simp only at least most ⊢
    rw [number _ (by omega), Int.toNat_of_nonneg least]

theorem readBy_uint8 : (⟨0, 255, fun n => n.toNat⟩ : Integers UInt8).ReadBy
    (Codec.between 0 255 fun n => UInt8.ofNat n.toNat) :=
  readBy_unsigned (by decide) (fun n => Nat.le_of_lt_succ n.toNat_lt) (fun _ => UInt8.ofNat_toNat)
    fun _ most => UInt8.toNat_ofNat_of_lt' (Nat.lt_succ_of_le most)

theorem readBy_uint16 : (⟨0, 65535, fun n => n.toNat⟩ : Integers UInt16).ReadBy
    (Codec.between 0 65535 fun n => UInt16.ofNat n.toNat) :=
  readBy_unsigned (by decide) (fun n => Nat.le_of_lt_succ n.toNat_lt) (fun _ => UInt16.ofNat_toNat)
    fun _ most => UInt16.toNat_ofNat_of_lt' (Nat.lt_succ_of_le most)

theorem readBy_uint32 : (⟨0, 4294967295, fun n => n.toNat⟩ : Integers UInt32).ReadBy
    (Codec.between 0 4294967295 fun n => UInt32.ofNat n.toNat) :=
  readBy_unsigned (by decide) (fun n => Nat.le_of_lt_succ n.toNat_lt) (fun _ => UInt32.ofNat_toNat)
    fun _ most => UInt32.toNat_ofNat_of_lt' (Nat.lt_succ_of_le most)

end Integers

def Scalar.integers? : (s : Scalar) → Option (Integers s.Carrier)
  | .int8 => some ⟨-128, 127, Int8.toInt⟩
  | .int16 => some ⟨-32768, 32767, Int16.toInt⟩
  | .int32 => some ⟨-2147483648, 2147483647, Int32.toInt⟩
  | .int64 => some ⟨-9223372036854775808, 9223372036854775807, Int64.toInt⟩
  | .uint8 => some ⟨0, 255, fun (n : UInt8) => n.toNat⟩
  | .uint16 => some ⟨0, 65535, fun (n : UInt16) => n.toNat⟩
  | .uint32 => some ⟨0, 4294967295, fun (n : UInt32) => n.toNat⟩
  | _ => none

theorem Scalar.carries (s : Scalar) {i : Integers s.Carrier} (isInteger : i ∈ s.integers?) : s.codec.Carries i := by
  cases s with
  | int8 => exact Option.some.inj isInteger ▸ Integers.readBy_int8.carries "i8"
  | int16 => exact Option.some.inj isInteger ▸ Integers.readBy_int16.carries "i16"
  | int32 => exact Option.some.inj isInteger ▸ Integers.readBy_int32.carries "i32"
  | int64 => exact Option.some.inj isInteger ▸ Integers.readBy_int64.carries "i64"
  | uint8 => exact Option.some.inj isInteger ▸ Integers.readBy_uint8.carries "u8"
  | uint16 => exact Option.some.inj isInteger ▸ Integers.readBy_uint16.carries "u16"
  | uint32 => exact Option.some.inj isInteger ▸ Integers.readBy_uint32.carries "u32"
  | bool | float32 | float64 | string | bytes | universal | localTime | date | uuid => cases isInteger

theorem Codec.Carries.restores {codec : Codec α} {i : Integers α} (carries : codec.Carries i) (a : α) :
    codec.Restores a a := by
  obtain ⟨n, encoded, number⟩ := carries.encodes a
  rw [Restores, encoded]
  exact (carries.keeps n a).2 number.symm

end IntegerTypes

section Optionals

variable {α : Type} {codec : Codec α} {v : Value}

theorem Codec.optional_decode (value : v ≠ .null) : codec.optional.decode v = (codec.decode v).map some := by
  cases v with
  | null => exact absurd rfl value
  | integer | real | text | blob => rfl

theorem Codec.optional_eq_none_iff : codec.optional.decode v = .ok none ↔ v = .null := by
  constructor
  · intro read
    by_contra value
    rw [optional_decode value] at read
    obtain ⟨a, -, same⟩ := map_eq_ok.1 read
    cases same
  · rintro rfl
    rfl

end Optionals

section Scalars

theorem Codec.uuid_eq_ok_iff {text : String} {u : Uuid} :
    uuid.decode (.text text) = .ok u ↔ ∃ spelling : Uuid.Spelling, foldCase text = spelling.text u := by
  rw [← Uuid.ofText?_eq_some_iff]
  simp only [uuid, ofText]
  cases Uuid.ofText? text <;> simp

theorem Codec.uuid_restores (u : Uuid) : uuid.Restores u u := by
  unfold uuid
  apply ofText_back
  rw [u.ofText?_text]

theorem Codec.bool_restores (b : Bool) : bool.Restores b b := by
  cases b <;> rfl

theorem Number.Binary32.not_a_number {x : Binary32} (none : x.read = .notANumber) :
    x.widen.narrow.read = .notANumber := by
  have wide : x.widen = .nan := by rw [Binary32.widen, none]
  rw [wide]
  decide

namespace Scalar

/-- Equality of the values. Narrow patterns that are not numbers may stand for each other. -/
def Unchanged : (s : Scalar) → s.Carrier → s.Carrier → Prop
  | .float32, (x : Binary32), (y : Binary32) => x = y ∨ x.read = .notANumber ∧ y.read = .notANumber
  | _, a, b => a = b

theorem restores (s : Scalar) (plain : s ≠ .universal ∧ s ≠ .localTime) (a : s.Carrier) :
    ∃ b, s.codec.Restores a b ∧ s.Unchanged a b := by
  cases s with
  | int8 | int16 | int32 | int64 | uint8 | uint16 | uint32 => exact ⟨a, (carries _ rfl).restores a, rfl⟩
  | bool => exact ⟨a, Codec.bool_restores a, rfl⟩
  | float32 =>
    refine ⟨Binary64.narrow (Binary32.widen a), rfl, ?_⟩
    by_cases none : Binary32.read a = .notANumber
    · exact .inr ⟨none, Binary32.not_a_number none⟩
    · exact .inl (Binary32.narrow_widen none).symm
  | float64 | string | bytes => exact ⟨a, rfl, rfl⟩
  | universal => exact absurd rfl plain.1
  | localTime => exact absurd rfl plain.2
  | date => exact ⟨a, Codec.date_back a, rfl⟩
  | uuid => exact ⟨a, Codec.uuid_restores a, rfl⟩

theorem storageClass_encode (s : Scalar) (a : s.Carrier) :
    (s.codec.encode a).storageClass = s.codec.dataType.storageClass := by
  cases s <;> exact rfl

theorem encode_ne_null (s : Scalar) (a : s.Carrier) : s.codec.encode a ≠ .null := by
  intro null
  have kind := s.storageClass_encode a
  rw [null] at kind
  generalize s.codec.dataType = d at kind
  cases d <;> cases kind

structure Lossless (s : Scalar) : Prop where
  restores : ∀ a, ∃ b, s.codec.Restores a b ∧ s.Unchanged a b
  optional_restores : ∀ a, ∃ b, s.codec.optional.Restores a b ∧ Option.Rel s.Unchanged a b
  integers : ∀ i ∈ s.integers?, s.codec.Carries i
  some_ne_null : ∀ a, s.codec.optional.encode (some a) ≠ .null
  none_iff_null : ∀ v, s.codec.optional.decode v = .ok none ↔ v = .null
  refuses_null : s.codec.decode .null = .error (.mismatch s.codec.dataType .null)

theorem lossless (s : Scalar) (plain : s ≠ .universal ∧ s ≠ .localTime) : s.Lossless where
  restores := s.restores plain
  optional_restores a := by
    cases a with
    | none => exact ⟨none, rfl, .none⟩
    | some value =>
      obtain ⟨b, read, same⟩ := s.restores plain value
      refine ⟨some b, ?_, .some same⟩
      exact (Codec.optional_decode (s.encode_ne_null value)).trans (congrArg (Except.map some) read)
  integers _ := s.carries
  some_ne_null := s.encode_ne_null
  none_iff_null _ := Codec.optional_eq_none_iff
  refuses_null := by cases s <;> exact rfl

/-- Values of the scalar types come back from how they are kept, but for the two types of moments. The texts that are
    read as an identifier are its spellings in any letter case, and it is kept as the grouped one in small letters. -/
theorem codecs_lossless :
    (∀ s : Scalar, s ≠ .universal ∧ s ≠ .localTime → s.Lossless) ∧
    (∀ (text : String) (u : Uuid), Codec.uuid.decode (.text text) = .ok u ↔
      ∃ spelling : Uuid.Spelling, foldCase text = spelling.text u) ∧
    ∀ u : Uuid, Codec.uuid.encode u = .text (Uuid.Spelling.grouped.text u) ∧
      foldCase (Uuid.Spelling.grouped.text u) = Uuid.Spelling.grouped.text u :=
  ⟨lossless, fun _ _ => Codec.uuid_eq_ok_iff, fun u => ⟨rfl, u.foldCase_text⟩⟩

theorem codecs_lossless_narrow : (Scalar.float32 ≠ .universal ∧ Scalar.float32 ≠ .localTime) ∧
    (∃ y : Binary32, Codec.float32.Restores ⟨1⟩ y ∧ Scalar.float32.Unchanged ⟨1⟩ y) ∧
    Codec.uuid.decode (.text "uRn:UuId:550E8400-E29B-41D4-A716-446655440000") =
      .ok ⟨0x550e8400e29b41d4a716446655440000#128⟩ := by
  have plain : Scalar.float32 ≠ .universal ∧ Scalar.float32 ≠ .localTime := by decide
  exact ⟨plain, (codecs_lossless.1 .float32 plain).restores ⟨1⟩, (codecs_lossless.2.1 _ _).2 ⟨.named, by decide +kernel⟩⟩

end Scalar

end Scalars

end RecordMapper
