import RecordMapper.Number.Binary

namespace RecordMapper.Number

structure Binary32 where
  bits : UInt32
  deriving DecidableEq, Repr

structure Binary64 where
  bits : UInt64
  deriving DecidableEq, Repr

namespace Binary64

def ofPattern (pattern : Nat) : Binary64 :=
  ⟨UInt64.ofNat pattern⟩

def read (x : Binary64) : Reading :=
  double.read x.bits.toNat

def nan : Binary64 := ofPattern double.notANumber
def zero : Binary64 := ⟨0⟩
def infinity (negative : Bool) : Binary64 := ofPattern (double.signed negative double.infinity)

def isNaN (x : Binary64) : Bool :=
  x.read == .notANumber

def ofRatio (negative : Bool) (num den : Nat) : Binary64 :=
  ofPattern (double.nearest negative num den)

def ofInt (n : Int) : Binary64 :=
  ofRatio (n < 0) n.natAbs 1

def unitsPerOne : Nat :=
  Nat.pow 2 double.unitBits

def units? (x : Binary64) : Option Int :=
  match x.read with
  | .finite negative units => some (if negative then -(units : Int) else units)
  | _ => none

def whole? (x : Binary64) : Option Int :=
  x.units?.bind fun units =>
    if units % (unitsPerOne : Int) = 0 then some (units / (unitsPerOne : Int)) else none

def compareInt? (x : Binary64) (n : Int) : Option Ordering :=
  match x.read with
  | .notANumber => none
  | .infinite negative => some (if negative then .lt else .gt)
  | .finite negative units =>
    some (compare (if negative then -(units : Int) else units) (n * (unitsPerOne : Int)))

def compare? (x y : Binary64) : Option Ordering :=
  match x.read, y.read with
  | .notANumber, _ | _, .notANumber => none
  | .infinite a, .infinite b => some (if a == b then .eq else if a then .lt else .gt)
  | .infinite a, .finite _ _ => some (if a then .lt else .gt)
  | .finite _ _, .infinite b => some (if b then .gt else .lt)
  | .finite a m, .finite b n =>
    some (compare (if a then -(m : Int) else m) (if b then -(n : Int) else n))

def ofUnits (units : Int) : Binary64 :=
  ofRatio (units < 0) units.natAbs unitsPerOne

def add (x y : Binary64) : Binary64 :=
  match x.read, y.read with
  | .notANumber, _ | _, .notANumber => nan
  | .infinite a, .infinite b => if a == b then x else nan
  | .infinite _, .finite _ _ => x
  | .finite _ _, .infinite _ => y
  | .finite a m, .finite b n =>
    if m = 0 ∧ n = 0 then ofPattern (double.signed (a && b) 0)
    else ofUnits ((if a then -(m : Int) else m) + (if b then -(n : Int) else n))

/-- Pattern that equality and identity go by. -/
def key (x : Binary64) : UInt64 :=
  match x.read with
  | .notANumber => nan.bits
  | .finite _ 0 => 0
  | _ => x.bits

end Binary64

namespace Binary32

def read (x : Binary32) : Reading :=
  single.read x.bits.toNat

def nan : Binary32 := ⟨UInt32.ofNat single.notANumber⟩

def isNaN (x : Binary32) : Bool :=
  x.read == .notANumber

def widen (x : Binary32) : Binary64 :=
  match x.read with
  | .notANumber => .nan
  | .infinite negative => .infinity negative
  | .finite negative units => .ofRatio negative units (Nat.pow 2 single.unitBits)

end Binary32

def Binary64.narrow (x : Binary64) : Binary32 :=
  match x.read with
  | .notANumber => .nan
  | .infinite negative => ⟨UInt32.ofNat (single.signed negative single.infinity)⟩
  | .finite negative units => ⟨UInt32.ofNat (single.nearest negative units unitsPerOne)⟩

end RecordMapper.Number
