import RecordMapper.Number.Binary64

namespace RecordMapper.Number

structure Extended where
  significand : Nat
  exponent : Int
  deriving DecidableEq, Repr

namespace Extended

def ofRatio (num den : Nat) : Extended :=
  if num = 0 then ⟨0, 0⟩
  else
    let exponent := floorLog2 num den - 63
    let (n, d) := scaledDown num den exponent
    ⟨divToEven n d, exponent⟩

def numerator (x : Extended) : Nat :=
  x.significand * Nat.pow 2 x.exponent.toNat

def denominator (x : Extended) : Nat :=
  Nat.pow 2 (-x.exponent).toNat

def ofNat (n : Nat) : Extended :=
  ofRatio n 1

def ofBinary64 (x : Binary64) : Extended :=
  ofRatio (x.units?.getD 0).natAbs Binary64.unitsPerOne

def mul (x y : Extended) : Extended :=
  ofRatio (x.numerator * y.numerator) (x.denominator * y.denominator)

def div (x y : Extended) : Extended :=
  ofRatio (x.numerator * y.denominator) (x.denominator * y.numerator)

def add (x y : Extended) : Extended :=
  ofRatio (x.numerator * y.denominator + y.numerator * x.denominator) (x.denominator * y.denominator)

def sub (x y : Extended) : Extended :=
  ofRatio (x.numerator * y.denominator - y.numerator * x.denominator) (x.denominator * y.denominator)

def le (x y : Extended) : Bool :=
  x.numerator * y.denominator ≤ y.numerator * x.denominator

def floor (x : Extended) : Nat :=
  x.numerator / x.denominator

def toBinary64 (negative : Bool) (x : Extended) : Binary64 :=
  .ofRatio negative x.numerator x.denominator

/-- Ten to the power `n` by repeated squaring, rounding at every step. -/
def powerOfTen (n : Nat) : Extended :=
  let rec go (fuel n : Nat) (base result : Extended) : Extended :=
    match fuel with
    | 0 => result
    | fuel + 1 =>
      let result := if n % 2 = 1 then result.mul base else result
      if n / 2 = 0 then result else go fuel (n / 2) (base.mul base) result
  go (n + 1) n (ofNat 10) (ofNat 1)

end Extended

def storedRatio (num den : Nat) : Extended :=
  .ofBinary64 (.ofRatio false num den)

end RecordMapper.Number
