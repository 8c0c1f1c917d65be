import RecordMapper.Number.Binary64
import RecordMapper.Text.Ascii

namespace RecordMapper.Number

structure Decimal where
  digits : Nat
  exponent : Int
  deriving DecidableEq, Repr

/-- An interval of quotients over one denominator around `centre / den`; `closed` says whether its
    ends belong to it. -/
structure Rounds where
  low : Nat
  centre : Nat
  high : Nat
  den : Nat
  closed : Bool

/-- The reals that round to the finite number of `units`, over four times the units in one. A power
    of two with a full significand has its lower neighbour at half the distance. -/
def roundsTo (f : Format) (units : Nat) : Rounds :=
  let steps := Nat.log2 units - f.fractionBits
  let significand := units / Nat.pow 2 steps
  let half := 2 * Nat.pow 2 steps
  let below := if significand = Nat.pow 2 f.fractionBits ∧ 0 < steps then half / 2 else half
  ⟨4 * units - below, 4 * units, 4 * units + half, 4 * Nat.pow 2 f.unitBits, significand % 2 = 0⟩

def Rounds.contains (r : Rounds) (num den : Nat) : Bool :=
  if r.closed then r.low * den ≤ num * r.den && num * r.den ≤ r.high * den
  else r.low * den < num * r.den && num * r.den < r.high * den

def Rounds.onGrid? (r : Rounds) (exponent : Int) : Option Decimal :=
  let up := Nat.pow 10 exponent.toNat
  let down := Nat.pow 10 (-exponent).toNat
  let below := r.centre * down / (r.den * up)
  let inside (k : Nat) : Bool := r.contains (k * up) down
  let lower := inside below && 0 < below
  let upper := inside (below + 1)
  let upperNearer := (2 * below + 1) * up * r.den ≤ 2 * r.centre * down
  if lower && !(upper && upperNearer) then some ⟨below, exponent⟩
  else if upper then some ⟨below + 1, exponent⟩
  else none

def Rounds.shortestFrom (r : Rounds) (magnitude : Int) : (grids count : Nat) → Decimal
  | 0, _ => ⟨r.centre / r.den, 0⟩
  | grids + 1, count => (r.onGrid? (magnitude - count)).getD (r.shortestFrom magnitude grids (count + 1))

/-- Seventeen significant digits tell any two numbers of the format apart. -/
def shortestDecimal (f : Format) (units : Nat) : Decimal :=
  let r := roundsTo f units
  r.shortestFrom (decimalExponent r.centre r.den) 17 1

def Decimal.significant (d : Decimal) : List Char × Int :=
  let digits := (Nat.toDigits 10 d.digits).reverse.dropWhile (· == '0')
  (digits.reverse, d.exponent + ((Nat.toDigits 10 d.digits).length - digits.length : Nat))

def Decimal.text (d : Decimal) : String :=
  let (digits, exponent) := d.significant
  if 0 ≤ exponent then String.ofList (digits ++ List.replicate exponent.toNat '0')
  else
    let places := (-exponent).toNat
    let padded := List.replicate (places + 1 - digits.length) '0' ++ digits
    String.ofList (padded.take (padded.length - places) ++ '.' :: padded.drop (padded.length - places))

def Binary64.text (x : Binary64) : String :=
  match x.read with
  | .notANumber => "NaN"
  | .infinite negative => if negative then "-inf" else "inf"
  | .finite negative units =>
    let magnitude := if units = 0 then "0" else (shortestDecimal double units).text
    if negative then "-" ++ magnitude else magnitude

/-- Positional from `10 ^ -5` up to `10 ^ 16`, and with an exponent beyond. -/
def Decimal.pointedText (d : Decimal) : String :=
  let (digits, exponent) := d.significant
  let point := digits.length + exponent
  if 16 < point ∨ point < -4 then
    let fraction := if digits.length ≤ 1 then [] else '.' :: digits.drop 1
    let sign := if 16 < point then '+' else '-'
    String.ofList (digits.take 1 ++ fraction ++ ['e', sign] ++ Nat.toDigits 10 (point - 1).natAbs)
  else if 0 ≤ exponent then
    String.ofList (digits ++ List.replicate exponent.toNat '0' ++ ['.', '0'])
  else d.text

def Binary64.pointedText (x : Binary64) : String :=
  match x.read with
  | .notANumber => "NaN"
  | .infinite negative => if negative then "-inf" else "inf"
  | .finite negative units =>
    let magnitude := if units = 0 then "0.0" else (shortestDecimal double units).pointedText
    if negative then "-" ++ magnitude else magnitude

end RecordMapper.Number
