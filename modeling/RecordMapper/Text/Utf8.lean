namespace RecordMapper.Text

def byteCount (text : List Char) : Nat :=
  text.foldr (fun c rest => c.utf8Size + rest) 0

inductive Utf8Fault where
  | malformed (length index : Nat)
  | unfinished (index : Nat)
  deriving DecidableEq, Repr

def Utf8Fault.message : Utf8Fault → String
  | .malformed length index =>
    "invalid utf-8 sequence of " ++ toString length ++ " bytes from index " ++ toString index
  | .unfinished index => "incomplete utf-8 byte sequence from index " ++ toString index

def isTail (byte : UInt8) : Bool :=
  0x80 ≤ byte && byte ≤ 0xBF

def secondOfThree (lead byte : UInt8) : Bool :=
  if lead == 0xE0 then 0xA0 ≤ byte && byte ≤ 0xBF
  else if lead == 0xED then 0x80 ≤ byte && byte ≤ 0x9F
  else isTail byte

def secondOfFour (lead byte : UInt8) : Bool :=
  if lead == 0xF0 then 0x90 ≤ byte && byte ≤ 0xBF
  else if lead == 0xF4 then 0x80 ≤ byte && byte ≤ 0x8F
  else isTail byte

def tailBits (byte : UInt8) : Nat :=
  byte.toNat % 64

def charOfTwo (a b : UInt8) : Char :=
  Char.ofNat ((a.toNat % 32) * 64 + tailBits b)

def charOfThree (a b c : UInt8) : Char :=
  Char.ofNat ((a.toNat % 16) * 4096 + tailBits b * 64 + tailBits c)

def charOfFour (a b c d : UInt8) : Char :=
  Char.ofNat ((a.toNat % 8) * 262144 + tailBits b * 4096 + tailBits c * 64 + tailBits d)

/-- Strict reading; `index` bytes stand before the given ones. -/
def utf8CharsFrom (index : Nat) : List UInt8 → Except Utf8Fault (List Char)
  | [] => .ok []
  | a :: rest =>
    if a < 0x80 then do return Char.ofNat a.toNat :: (← utf8CharsFrom (index + 1) rest)
    else if 0xC2 ≤ a && a ≤ 0xDF then
      match rest with
      | [] => .error (.unfinished index)
      | b :: rest =>
        if isTail b then do return charOfTwo a b :: (← utf8CharsFrom (index + 2) rest)
        else .error (.malformed 1 index)
    else if 0xE0 ≤ a && a ≤ 0xEF then
      match rest with
      | [] => .error (.unfinished index)
      | [b] => .error (if secondOfThree a b then .unfinished index else .malformed 1 index)
      | b :: c :: rest =>
        if !secondOfThree a b then .error (.malformed 1 index)
        else if !isTail c then .error (.malformed 2 index)
        else do return charOfThree a b c :: (← utf8CharsFrom (index + 3) rest)
    else if 0xF0 ≤ a && a ≤ 0xF4 then
      match rest with
      | [] => .error (.unfinished index)
      | [b] => .error (if secondOfFour a b then .unfinished index else .malformed 1 index)
      | [b, c] =>
        if !secondOfFour a b then .error (.malformed 1 index)
        else .error (if isTail c then .unfinished index else .malformed 2 index)
      | b :: c :: d :: rest =>
        if !secondOfFour a b then .error (.malformed 1 index)
        else if !isTail c then .error (.malformed 2 index)
        else if !isTail d then .error (.malformed 3 index)
        else do return charOfFour a b c d :: (← utf8CharsFrom (index + 4) rest)
    else .error (.malformed 1 index)

def utf8Text? (bytes : List UInt8) : Except Utf8Fault String := do
  return String.ofList (← utf8CharsFrom 0 bytes)

def utf8Bytes (text : String) : List UInt8 :=
  text.toUTF8.toList

/-- Code point that stands for what no character may be: surrogates, the two non-characters at the
    end of the basic plane, and overlong forms of ASCII. -/
def replacementCode : Nat := 0xFFFD

def readableCode (code : Nat) : Nat :=
  if code == 0xFFFE || code == 0xFFFF then replacementCode else code

def leadBits (byte : UInt8) : Nat :=
  let n := byte.toNat
  if n < 0xE0 then n % 32 else if n < 0xF0 then n % 16 else n % 8 % (if n < 0xF8 then 8 else 4)

def settledCode (code : Nat) : Nat :=
  if code < 0x80 || (0xD800 ≤ code && code < 0xE000) then replacementCode else readableCode code

/-- Forgiving reading: a lead byte takes every tail byte after it, a stray tail byte is its own
    code. `pending` is the code under construction. -/
def utf8CodesWith (pending : Option Nat) : List UInt8 → List Nat
  | [] => (pending.map settledCode).toList
  | byte :: rest =>
    match pending with
    | some code =>
      if isTail byte then utf8CodesWith (some (code * 64 + tailBits byte)) rest
      else if byte < 0xC0 then settledCode code :: byte.toNat :: utf8CodesWith none rest
      else settledCode code :: utf8CodesWith (some (leadBits byte)) rest
    | none =>
      if byte < 0xC0 then byte.toNat :: utf8CodesWith none rest
      else utf8CodesWith (some (leadBits byte)) rest

def utf8Codes (bytes : List UInt8) : List Nat :=
  utf8CodesWith none bytes

end RecordMapper.Text
