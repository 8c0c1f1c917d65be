import RecordMapper.Number.Extended
import RecordMapper.Text.Ascii
import RecordMapper.Text.Blank

namespace RecordMapper.Number

open RecordMapper.Text

def maxInt64 : Nat := 9223372036854775807

/-- How far a text is a number: `whole` from end to end, as digits only or with a point or
    exponent; `beginning` if only its beginning is, and has a point or exponent. -/
inductive NumeralForm where
  | wholeInteger
  | wholeReal
  | beginning
  | other
  deriving DecidableEq, Repr

def isBlankTail (text : List Char) : Bool :=
  text.all isAsciiBlank

def takeSign (text : List Char) : Bool × List Char :=
  match text with
  | '-' :: rest => (true, rest)
  | '+' :: rest => (false, rest)
  | rest => (false, rest)

def significandLimit : Nat := (maxInt64 - 9) / 10

def wholeDigits (digits : List Char) : Nat × Nat :=
  let rec go : Nat → List Char → Nat × Nat
    | s, [] => (s, 0)
    | s, c :: rest =>
      let s := 10 * s + digitValue c
      if significandLimit ≤ s then (s, rest.length) else go s rest
  go 0 digits

def placeDigits (s : Nat) (digits : List Char) : Nat × Nat :=
  digits.foldl (fun (s, n) c => if s < significandLimit then (10 * s + digitValue c, n + 1) else (s, n)) (s, 0)

/-- Takes powers of ten into or out of the significand while that is exact. -/
def settle : (fuel s : Nat) → (exponent : Int) → Nat × Int
  | 0, s, e => (s, e)
  | fuel + 1, s, e =>
    if 0 < e ∧ s < maxInt64 / 10 then settle fuel (s * 10) (e - 1)
    else if e < 0 ∧ s % 10 = 0 then settle fuel (s / 10) (e + 1)
    else (s, e)

def scaledValue (negative : Bool) (s : Nat) (exponent : Int) : Binary64 :=
  if s = 0 then Binary64.ofRatio negative 0 1
  else
    let (s, e) := settle 20 s exponent
    let size := e.natAbs
    if size = 0 then .ofRatio negative s 1
    else if 342 ≤ size then if e < 0 then .ofRatio negative 0 1 else .infinity negative
    else if 307 < size then
      let near := if e < 0 then (Extended.ofNat s).div (.powerOfTen (size - 308))
        else (Extended.ofNat s).mul (.powerOfTen (size - 308))
      let stored := Extended.ofBinary64 (near.toBinary64 false)
      let edge := storedRatio (Nat.pow 10 308) 1
      if e < 0 then
        .ofRatio negative (stored.numerator * edge.denominator) (stored.denominator * edge.numerator)
      else .ofRatio negative (stored.numerator * edge.numerator) (stored.denominator * edge.denominator)
    else
      let scale := Extended.powerOfTen size
      (if e < 0 then (Extended.ofNat s).div scale else (Extended.ofNat s).mul scale).toBinary64 negative

def exponentDigits (digits : List Char) : Nat :=
  digits.foldl (fun e c => if e < 10000 then 10 * e + digitValue c else 10000) 0

def readNumeral (text : List Char) : NumeralForm × Binary64 :=
  let text := text.dropWhile isAsciiBlank
  if text.isEmpty then (.other, .zero)
  else
    let (negative, text) := takeSign text
    let whole := text.takeWhile isDigit
    let text := text.dropWhile isDigit
    let (s, left) := wholeDigits whole
    let (hasPoint, places, text) :=
      match text with
      | '.' :: rest => (true, rest.takeWhile isDigit, rest.dropWhile isDigit)
      | rest => (false, [], rest)
    let (s, taken) := placeDigits s places
    let counted := !(whole.isEmpty) || 0 < taken
    let (hasExponent, exponentRead, exponent, text) :=
      match text with
      | c :: rest =>
        if c = 'e' || c = 'E' then
          let (down, rest) := takeSign rest
          let digits := rest.takeWhile isDigit
          let size : Int := exponentDigits digits
          (true, !digits.isEmpty, if down then -size else size, rest.dropWhile isDigit)
        else (false, true, 0, text)
      | [] => (false, true, 0, [])
    let value := scaledValue negative s (exponent + left - taken)
    let form :=
      if isBlankTail text && counted && exponentRead then
        if hasPoint || hasExponent then .wholeReal else .wholeInteger
      else if counted && ((hasPoint && hasExponent) || ((hasPoint || hasExponent) && exponentRead)) then .beginning
      else .other
    (form, value)

inductive IntegerForm where
  | whole
  | beginning
  | tooLarge
  | missing
  deriving DecidableEq, Repr

def readInteger (text : List Char) : IntegerForm × Int :=
  let (negative, text) := takeSign (text.dropWhile isAsciiBlank)
  let digits := text.takeWhile isDigit
  let value : Int := if negative then -(decimalValue digits : Int) else decimalValue digits
  if digits.isEmpty then (.missing, 0)
  else if value < -(maxInt64 : Int) - 1 ∨ (maxInt64 : Int) < value then (.tooLarge, value)
  else if isBlankTail (text.dropWhile isDigit) then (.whole, value)
  else (.beginning, value)

/-- Raises `scale` by `step` while the product stays at most `x`, counting `gain` for each. -/
def climb (x step : Extended) (gain : Nat) : (fuel : Nat) → Extended × Nat → Extended × Nat
  | 0, state => state
  | fuel + 1, (scale, exponent) =>
    if (step.mul scale).le x && exponent ≤ 350 then climb x step gain fuel (scale.mul step, exponent + gain)
    else (scale, exponent)

def descend (limit step : Extended) (loss : Nat) : (fuel : Nat) → Extended × Int → Extended × Int
  | 0, state => state
  | fuel + 1, (x, exponent) =>
    if limit.le x then (x, exponent) else descend limit step loss fuel (x.mul step, exponent - loss)

def leadingDigits : (count : Nat) → Extended → List Nat
  | 0, _ => []
  | count + 1, x =>
    let digit := x.floor
    digit :: leadingDigits count ((x.sub (.ofNat digit)).mul (.ofNat 10))

/-- Half a unit in the fifteenth digit, as it is computed: `5e-5 * 1e-10` in stored precision. -/
def halfLastDigit : Extended :=
  let a := storedRatio 5 (Nat.pow 10 5)
  let b := storedRatio 1 (Nat.pow 10 10)
  storedRatio (a.numerator * b.numerator) (a.denominator * b.denominator)

/-- Scales a positive number into `[1, 10)` and rounds it there to fifteen digits. -/
def normalized (x : Extended) : Extended × Int :=
  let state := climb x (storedRatio (Nat.pow 10 100) 1) 100 4 (.ofNat 1, 0)
  let state := climb x (storedRatio (Nat.pow 10 10) 1) 10 40 state
  let (scale, up) := climb x (.ofNat 10) 1 40 state
  let state := descend (storedRatio 1 (Nat.pow 10 8)) (storedRatio (Nat.pow 10 8) 1) 8 60 (x.div scale, up)
  let (x, exponent) := descend (.ofNat 1) (.ofNat 10) 1 20 state
  let x := x.add halfLastDigit
  if (Extended.ofNat 10).le x then (x.mul (storedRatio 1 10), exponent + 1) else (x, exponent)

def digitChars (digits : List Nat) : List Char :=
  digits.map fun d => Char.ofNat (48 + d)

def dropClosingZeros (digits : List Char) : List Char :=
  match (digits.reverse.dropWhile (· == '0')).reverse with
  | [] => ['0']
  | kept => kept

def fifteenDigits (x : Extended) : String :=
  let (x, exponent) := normalized x
  let digits := digitChars (leadingDigits 15 x)
  if exponent < -4 ∨ 14 < exponent then
    let size := exponent.natAbs
    String.ofList (digits.take 1 ++ '.' :: dropClosingZeros (digits.drop 1)) ++
      (if exponent < 0 then "e-" else "e+") ++ paddedDecimal 2 size
  else if exponent < 0 then
    "0." ++ String.ofList (dropClosingZeros (List.replicate (exponent.natAbs - 1) '0' ++ digits))
  else
    let whole := exponent.toNat + 1
    String.ofList (digits.take whole ++ '.' :: dropClosingZeros (digits.drop whole))

/-- Text that the engine gives a stored number when it turns it into text. -/
def Binary64.fifteenDigitText (x : Binary64) : String :=
  match x.read with
  | .notANumber => ""
  | .infinite negative => if negative then "-Inf" else "Inf"
  | .finite _ 0 => "0.0"
  | .finite negative _ =>
    if negative then "-" ++ fifteenDigits (.ofBinary64 x) else fifteenDigits (.ofBinary64 x)

end RecordMapper.Number
