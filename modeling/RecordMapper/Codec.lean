import RecordMapper.Value
import RecordMapper.DataType
import RecordMapper.Calendar.Written
import RecordMapper.Uuid

namespace RecordMapper

open RecordMapper.Number RecordMapper.Calendar RecordMapper.Text

inductive CodecFault where
  | mismatch (expected : DataType) (found : StorageClass)
  | outOfRange (n : Int64) (typeName : String)
  | timestamp (text : String) (fault : TimeFault)
  | date (text : String) (fault : TimeFault)
  | uuid (text : String)
  deriving DecidableEq

/-- What the parser of identifiers itself says, which would stand behind the text of `uuid`, is left out. -/
def CodecFault.message : CodecFault → String
  | .mismatch expected found => "expected " ++ expected.name ++ " value, found " ++ found.name
  | .outOfRange n typeName => "integer " ++ toString n.toInt ++ " out of range for " ++ typeName
  | .timestamp text fault => "invalid timestamp '" ++ text ++ "': " ++ fault.message
  | .date text fault => "invalid date '" ++ text ++ "': " ++ fault.message
  | .uuid text => "invalid uuid '" ++ text ++ "'"

structure Codec (α : Type) where
  dataType : DataType
  nullable : Bool
  encode : α → Value
  decode : Value → Except CodecFault α

namespace Codec

def mismatch {α : Type} (expected : DataType) (found : Value) : Except CodecFault α :=
  .error (.mismatch expected found.storageClass)

def ofIntegers {α : Type} (typeName : String) (toInt : α → Int) (ofInt? : Int → Option α) : Codec α where
  dataType := .integer
  nullable := false
  encode a := .integer (Int64.ofInt (toInt a))
  decode
    | .integer n =>
      match ofInt? n.toInt with
      | some a => .ok a
      | none => .error (.outOfRange n typeName)
    | other => mismatch .integer other

def between {α : Type} (low high : Int) (make : Int → α) (n : Int) : Option α :=
  if low ≤ n ∧ n ≤ high then some (make n) else none

def int8 : Codec Int8 := ofIntegers "i8" Int8.toInt (between (-128) 127 Int8.ofInt)
def int16 : Codec Int16 := ofIntegers "i16" Int16.toInt (between (-32768) 32767 Int16.ofInt)
def int32 : Codec Int32 := ofIntegers "i32" Int32.toInt (between (-2147483648) 2147483647 Int32.ofInt)
def int64 : Codec Int64 := ofIntegers "i64" Int64.toInt fun n => some (Int64.ofInt n)
def uint8 : Codec UInt8 := ofIntegers "u8" (fun n => n.toNat) (between 0 255 fun n => UInt8.ofNat n.toNat)
def uint16 : Codec UInt16 := ofIntegers "u16" (fun n => n.toNat) (between 0 65535 fun n => UInt16.ofNat n.toNat)
def uint32 : Codec UInt32 :=
  ofIntegers "u32" (fun n => n.toNat) (between 0 4294967295 fun n => UInt32.ofNat n.toNat)

def bool : Codec Bool where
  dataType := .boolean
  nullable := false
  encode := Value.ofBool
  decode
    | .integer n => .ok (n ≠ 0)
    | other => mismatch .boolean other

def real : Value → Except CodecFault Binary64
  | .real x => .ok x
  | .integer n => .ok (.ofInt n.toInt)
  | other => mismatch .float other

def float64 : Codec Binary64 where
  dataType := .float
  nullable := false
  encode := .real
  decode := real

def float32 : Codec Binary32 where
  dataType := .float
  nullable := false
  encode x := .real x.widen
  decode value := (real value).map Binary64.narrow

def string : Codec String where
  dataType := .text
  nullable := false
  encode := .text
  decode
    | .text s => .ok s
    | other => mismatch .text other

def bytes : Codec (List UInt8) where
  dataType := .blob
  nullable := false
  encode := .blob
  decode
    | .blob b => .ok b
    | other => mismatch .blob other

def ofText {α : Type} (dataType : DataType) (write : α → String) (read : String → Except CodecFault α) :
    Codec α where
  dataType := dataType
  nullable := false
  encode a := .text (write a)
  decode
    | .text s => read s
    | other => mismatch dataType other

def universal : Codec Moment :=
  ofText .timestamp Moment.universalText fun s => (Moment.ofUniversalText s).mapError (.timestamp s)

def localTime : Codec Moment :=
  ofText .timestamp Moment.localText fun s => (Moment.ofLocalText s).mapError (.timestamp s)

def date : Codec Date :=
  ofText .date Date.text fun s => (Date.ofText s).mapError (.date s)

def uuid : Codec Uuid :=
  ofText .uuid Uuid.text fun s =>
    match Uuid.ofText? s with
    | some u => .ok u
    | none => .error (.uuid s)

def optional {α : Type} (codec : Codec α) : Codec (Option α) where
  dataType := codec.dataType
  nullable := true
  encode
    | some a => codec.encode a
    | none => .null
  decode
    | .null => .ok none
    | value => (codec.decode value).map some

end Codec

end RecordMapper
