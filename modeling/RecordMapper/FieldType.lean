import RecordMapper.Codec

namespace RecordMapper

open RecordMapper.Number RecordMapper.Calendar

inductive Scalar where
  | int8 | int16 | int32 | int64
  | uint8 | uint16 | uint32
  | bool
  | float32 | float64
  | string | bytes
  | universal | localTime | date
  | uuid
  deriving DecidableEq, Repr

namespace Scalar

def Carrier : Scalar → Type
  | .int8 => Int8
  | .int16 => Int16
  | .int32 => Int32
  | .int64 => Int64
  | .uint8 => UInt8
  | .uint16 => UInt16
  | .uint32 => UInt32
  | .bool => Bool
  | .float32 => Binary32
  | .float64 => Binary64
  | .string => String
  | .bytes => List UInt8
  | .universal => Moment
  | .localTime => Moment
  | .date => Date
  | .uuid => Uuid

def codec : (s : Scalar) → Codec s.Carrier
  | .int8 => Codec.int8
  | .int16 => Codec.int16
  | .int32 => Codec.int32
  | .int64 => Codec.int64
  | .uint8 => Codec.uint8
  | .uint16 => Codec.uint16
  | .uint32 => Codec.uint32
  | .bool => Codec.bool
  | .float32 => Codec.float32
  | .float64 => Codec.float64
  | .string => Codec.string
  | .bytes => Codec.bytes
  | .universal => Codec.universal
  | .localTime => Codec.localTime
  | .date => Codec.date
  | .uuid => Codec.uuid

end Scalar

structure FieldType where
  scalar : Scalar
  optional : Bool
  deriving DecidableEq, Repr

namespace FieldType

def Carrier (t : FieldType) : Type :=
  match t.optional with
  | true => Option t.scalar.Carrier
  | false => t.scalar.Carrier

def codec : (t : FieldType) → Codec t.Carrier
  | ⟨scalar, true⟩ => scalar.codec.optional
  | ⟨scalar, false⟩ => scalar.codec

theorem nullable_codec (t : FieldType) : t.codec.nullable = t.optional := by
  obtain ⟨scalar, optional⟩ := t
  cases optional
  · cases scalar <;> rfl
  · rfl

end FieldType

end RecordMapper
