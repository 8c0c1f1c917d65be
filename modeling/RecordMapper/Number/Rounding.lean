namespace RecordMapper.Number

/-- The whole number nearest to `num / den`; of two, the even one. -/
def divToEven (num den : Nat) : Nat :=
  let quotient := num / den
  let rest := num % den
  if 2 * rest < den then quotient
  else if den < 2 * rest then quotient + 1
  else quotient + quotient % 2

def scaledDown (num den : Nat) (exponent : Int) : Nat × Nat :=
  if 0 ≤ exponent then (num, den * Nat.pow 2 exponent.toNat) else (num * Nat.pow 2 (-exponent).toNat, den)

def floorLog2 (num den : Nat) : Int :=
  let guess : Int := (Nat.log2 num : Int) - (Nat.log2 den : Int)
  let (n, d) := scaledDown num den guess
  if d ≤ n then guess else guess - 1

def digitCount (n : Nat) : Nat :=
  (Nat.toDigits 10 n).length

def decimalExponent (num den : Nat) : Int :=
  if den ≤ num then digitCount (num / den)
  else if (den - 1) / num = 0 then 0
  else 1 - (digitCount ((den - 1) / num) : Int)

theorem divToEven_exact (num den : Nat) (positive : 0 < den) : divToEven (num * den) den = num := by
  simp [divToEven, Nat.mul_div_cancel _ positive, positive]

end RecordMapper.Number
