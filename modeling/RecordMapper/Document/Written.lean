import RecordMapper.Document.Basic
import RecordMapper.Text.Hex

namespace RecordMapper.Document

open RecordMapper.Number RecordMapper.Text

def isSpace (c : Char) : Bool :=
  c == ' ' || c == '\n' || c == '\r' || c == '\t'

def codeUnit (digits : List Char) : Nat :=
  (natOfHex? (digits.take 4)).getD 0

def escaped (c : Char) : Char :=
  match c with
  | 'n' => '\n'
  | 't' => '\t'
  | 'r' => '\r'
  | 'b' => '\x08'
  | 'f' => '\x0c'
  | c => c

/-- Reads up to the closing quote. A character beyond 16 bits is written as two code units. -/
def readText : (fuel : Nat) → List Char → List Char × List Char
  | 0, rest => ([], rest)
  | _, [] => ([], [])
  | _, '"' :: rest => ([], rest)
  | fuel + 1, '\\' :: 'u' :: rest =>
    let unit := codeUnit rest
    if 0xD800 ≤ unit ∧ unit < 0xDC00 then
      let (chars, after) := readText fuel (rest.drop 10)
      (Char.ofNat (0x10000 + (unit - 0xD800) * 1024 + (codeUnit (rest.drop 6) - 0xDC00)) :: chars, after)
    else
      let (chars, after) := readText fuel (rest.drop 4)
      (Char.ofNat unit :: chars, after)
  | fuel + 1, '\\' :: c :: rest =>
    let (chars, after) := readText fuel rest
    (escaped c :: chars, after)
  | fuel + 1, c :: rest =>
    let (chars, after) := readText fuel rest
    (c :: chars, after)

def readExponent : List Char → Int
  | _ :: '-' :: digits => -(decimalValue digits : Int)
  | _ :: '+' :: digits => decimalValue digits
  | _ :: digits => decimalValue digits
  | [] => 0

def readNumber (token : List Char) : Document :=
  let negative := token.head? == some '-'
  let body := if negative then token.drop 1 else token
  let whole := body.takeWhile isDigit
  let rest := body.drop whole.length
  let pointed := rest.head? == some '.'
  let places := if pointed then (rest.drop 1).takeWhile isDigit else []
  let exponent := readExponent (if pointed then rest.drop (places.length + 1) else rest) - places.length
  let n := decimalValue whole
  if body.length = whole.length ∧ (if negative then 0 < n ∧ n ≤ Nat.pow 2 63 else n < Nat.pow 2 64) then
    .integer (if negative then -(n : Int) else n)
  else
    .real (.ofRatio negative (decimalValue (whole ++ places) * Nat.pow 10 exponent.toNat) (Nat.pow 10 (-exponent).toNat))

def inNumber (c : Char) : Bool :=
  isDigit c || c == '+' || c == '-' || c == '.' || c == 'e' || c == 'E'

mutual

/-- Reads one document; `fuel` bounds the steps and is never used up when it exceeds the length. -/
def read (fuel : Nat) (text : List Char) : Document × List Char :=
  match fuel, text.dropWhile isSpace with
  | 0, rest => (.null, rest)
  | _, 'n' :: rest => (.null, rest.drop 3)
  | _, 't' :: rest => (.bool true, rest.drop 3)
  | _, 'f' :: rest => (.bool false, rest.drop 4)
  | fuel + 1, '"' :: rest =>
    let (s, after) := readText (fuel + 1) rest
    (.text (String.ofList s), after)
  | fuel + 1, '[' :: rest =>
    let (items, after) := readItems fuel rest
    (.list items, after)
  | fuel + 1, '\x7b' :: rest =>
    let (entries, after) := readEntries fuel [] rest
    (.object entries, after)
  | _, rest => (readNumber (rest.takeWhile inNumber), rest.dropWhile inNumber)

def readItems (fuel : Nat) (text : List Char) : List Document × List Char :=
  match fuel, text.dropWhile isSpace with
  | 0, rest => ([], rest)
  | _, [] => ([], [])
  | _, ']' :: rest => ([], rest)
  | fuel + 1, ',' :: rest => readItems fuel rest
  | fuel + 1, rest =>
    let (item, after) := read fuel rest
    let (items, after) := readItems fuel after
    (item :: items, after)

def readEntries (fuel : Nat) (before : List (String × Document)) (text : List Char) :
    List (String × Document) × List Char :=
  match fuel, text.dropWhile isSpace with
  | fuel + 1, ',' :: rest => readEntries fuel before rest
  | fuel + 1, '"' :: rest =>
    let (name, after) := readText (fuel + 1) rest
    let (content, after) := read fuel ((after.dropWhile isSpace).drop 1)
    readEntries fuel ((String.ofList name, content) :: before) after
  | _, rest => (before, rest.drop 1)

end

def ofText (text : String) : Document :=
  (read (text.length + 1) text.toList).1

def writtenChar (c : Char) : List Char :=
  if c == '"' || c == '\\' then ['\\', c]
  else if c.toNat < 32 then ['\\', 'u'] ++ hexOfNat 4 c.toNat
  else [c]

def writtenText (s : String) : String :=
  String.ofList (['"'] ++ s.toList.flatMap writtenChar ++ ['"'])

mutual

def toText : Document → String
  | .null => "null"
  | .bool b => if b then "true" else "false"
  | .integer n => toString n
  | .real x => x.pointedText
  | .text s => writtenText s
  | .list items => "[" ++ joined "," (itemTexts items) ++ "]"
  | .object entries => "\x7b" ++ joined "," (entryTexts entries) ++ "\x7d"

def itemTexts : List Document → List String
  | [] => []
  | item :: rest => item.toText :: itemTexts rest

def entryTexts : List (String × Document) → List String
  | [] => []
  | (name, content) :: rest => (writtenText name ++ ":" ++ content.toText) :: entryTexts rest

end

end RecordMapper.Document
