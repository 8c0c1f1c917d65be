import RecordMapper.Value

namespace RecordMapper

inductive HashInput where
  | storageClass (number : Int32)
  | length (n : Nat)
  | integer (n : Int64)
  | pattern (bits : UInt64)
  | text (s : String)
  | bytes (bytes : List UInt8)
  deriving DecidableEq

def StorageClass.number : StorageClass → Int32
  | .null => 0
  | .integer => 1
  | .real => 2
  | .text => 3
  | .blob => 4

namespace Value

def contentInputs : Value → List HashInput
  | .null => []
  | .integer n => [.integer n]
  | .real x => [.pattern x.key]
  | .text s => [.text s]
  | .blob bytes => [.length bytes.length, .bytes bytes]

def hashInputs (v : Value) : List HashInput :=
  .storageClass v.storageClass.number :: v.contentInputs

def rowInputs (row : List Value) : List HashInput :=
  .length row.length :: row.flatMap hashInputs

end Value

/-- Takes what it is fed into a state, one after the other, and makes a number of the last. -/
structure Hasher where
  State : Type
  start : State
  feed : State → HashInput → State
  finish : State → UInt64

def Hasher.hashOf (h : Hasher) (inputs : List HashInput) : UInt64 :=
  h.finish (inputs.foldl h.feed h.start)

structure RowKey (h : Hasher) where
  row : List Value

instance (h : Hasher) : BEq (RowKey h) where
  beq a b := Value.sameRow a.row b.row

instance (h : Hasher) : Hashable (RowKey h) where
  hash k := h.hashOf (Value.rowInputs k.row)

end RecordMapper
