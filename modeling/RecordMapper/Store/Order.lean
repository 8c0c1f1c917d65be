import RecordMapper.Predicate.Comparison
import RecordMapper.Predicate.Truth
import RecordMapper.Store.Affinity
import RecordMapper.Text.Utf8

namespace RecordMapper.Store

open RecordMapper.Number RecordMapper.Text

def rank : Value → Nat
  | .null => 0
  | .integer _ | .real _ => 1
  | .text _ => 2
  | .blob _ => 3

def compareBytes : List UInt8 → List UInt8 → Ordering
  | [], [] => .eq
  | [], _ :: _ => .lt
  | _ :: _, [] => .gt
  | a :: as, b :: bs => if a < b then .lt else if b < a then .gt else compareBytes as bs

def compareValues (a b : Value) : Ordering :=
  match a, b with
  | .integer m, .integer n => compare m.toInt n.toInt
  | .integer m, .real y => ((y.compareInt? m.toInt).getD .gt).swap
  | .real x, .integer n => (x.compareInt? n.toInt).getD .lt
  | .real x, .real y => (x.compare? y).getD .eq
  | .text s, .text t => compareBytes (utf8Bytes s) (utf8Bytes t)
  | .blob s, .blob t => compareBytes s t
  | a, b => compare (rank a) (rank b)

def compareTruth (op : Comparison) (a b : Value) : Truth :=
  if a.isNull || b.isNull then none else some (op.holds (compareValues a b))

def sameValue (a b : Value) : Bool :=
  compareValues a b == .eq

def sameValues : List Value → List Value → Bool
  | [], [] => true
  | a :: as, b :: bs => sameValue a b && sameValues as bs
  | _, _ => false

end RecordMapper.Store
