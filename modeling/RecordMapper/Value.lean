import RecordMapper.Number.Shortest
import RecordMapper.Text.Hex
import RecordMapper.Text.Quoted

namespace RecordMapper

open RecordMapper.Number RecordMapper.Text

inductive Value where
  | null
  | integer (n : Int64)
  | real (x : Binary64)
  | text (s : String)
  | blob (bytes : List UInt8)
  deriving DecidableEq

inductive StorageClass where
  | null
  | integer
  | real
  | text
  | blob
  deriving DecidableEq, Repr

def StorageClass.name : StorageClass → String
  | .null => "NULL"
  | .integer => "INTEGER"
  | .real => "REAL"
  | .text => "TEXT"
  | .blob => "BLOB"

namespace Value

def storageClass : Value → StorageClass
  | .null => .null
  | .integer _ => .integer
  | .real _ => .real
  | .text _ => .text
  | .blob _ => .blob

def isNull : Value → Bool
  | .null => true
  | _ => false

def shown : Value → String
  | .null => "NULL"
  | .integer n => toString n.toInt
  | .real x => x.text
  | .text s => quotedWith '\'' s
  | .blob bytes => "X'" ++ String.ofList (hexOfBytes bytes) ++ "'"

/-- Representative of a value: real numbers keep only their key. -/
def normal : Value → Value
  | .real x => .real ⟨x.key⟩
  | value => value

def same (a b : Value) : Bool :=
  a.normal == b.normal

def sameRow : List Value → List Value → Bool
  | [], [] => true
  | a :: as, b :: bs => a.same b && sameRow as bs
  | _, _ => false

/-- For each row, whether it is new: the same as none before it, nor as any of `earlier`. -/
def novelty (earlier : List (List Value)) : List (List Value) → List Bool
  | [] => []
  | row :: rest =>
    if earlier.any (sameRow row) then false :: novelty earlier rest
    else true :: novelty (row :: earlier) rest

def ofBool (b : Bool) : Value :=
  .integer (if b then 1 else 0)

@[simp] theorem isNull_iff (v : Value) : v.isNull = true ↔ v = .null := by
  cases v <;> simp [isNull]

theorem same_iff (a b : Value) : a.same b = true ↔ a.normal = b.normal := by
  simp [same]

theorem same_refl (a : Value) : a.same a = true := by
  simp [same]

theorem same_symm (a b : Value) : a.same b = b.same a := by
  simp only [same, Bool.beq_comm]

theorem sameRow_iff (as bs : List Value) :
    sameRow as bs = true ↔ as.map normal = bs.map normal := by
  induction as generalizing bs with
  | nil => cases bs <;> simp [sameRow]
  | cons a as ih => cases bs <;> simp [sameRow, same_iff, ih]

end Value

end RecordMapper
