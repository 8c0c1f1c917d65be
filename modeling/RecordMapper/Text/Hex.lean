namespace RecordMapper.Text

def hexDigit (n : Nat) : Char :=
  if n < 10 then Char.ofNat (48 + n) else Char.ofNat (87 + n)

def hexValue? (c : Char) : Option Nat :=
  if '0' ≤ c ∧ c ≤ '9' then some (c.toNat - 48)
  else if 'a' ≤ c ∧ c ≤ 'f' then some (c.toNat - 87)
  else if 'A' ≤ c ∧ c ≤ 'F' then some (c.toNat - 55)
  else none

def hexOfByte (byte : UInt8) : List Char :=
  [hexDigit (byte.toNat / 16), hexDigit (byte.toNat % 16)]

def hexOfBytes (bytes : List UInt8) : List Char :=
  bytes.flatMap hexOfByte

def bytesOfHex? : List Char → Option (List UInt8)
  | [] => some []
  | [_] => none
  | high :: low :: rest => do
    let h ← hexValue? high
    let l ← hexValue? low
    let bytes ← bytesOfHex? rest
    return UInt8.ofNat (16 * h + l) :: bytes

def natOfHex? (digits : List Char) : Option Nat :=
  digits.foldlM (fun n c => (hexValue? c).map (16 * n + ·)) 0

def hexOfNat : (width n : Nat) → List Char
  | 0, _ => []
  | width + 1, n => hexOfNat width (n / 16) ++ [hexDigit (n % 16)]

theorem length_hexOfNat (width n : Nat) : (hexOfNat width n).length = width := by
  induction width generalizing n with
  | zero => rfl
  | succ width ih => simp [hexOfNat, ih]

end RecordMapper.Text
