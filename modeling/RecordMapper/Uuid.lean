import RecordMapper.Text.Hex
import RecordMapper.Text.Ascii
import RecordMapper.Text.Utf8

namespace RecordMapper

open RecordMapper.Text

structure Uuid where
  value : BitVec 128
  deriving DecidableEq

namespace Uuid

def digits (u : Uuid) : List Char :=
  hexOfNat 32 u.value.toNat

def text (u : Uuid) : String :=
  let d := u.digits
  String.ofList (d.take 8 ++ '-' :: ((d.drop 8).take 4) ++ '-' :: ((d.drop 12).take 4) ++
    '-' :: ((d.drop 16).take 4) ++ '-' :: d.drop 20)

def ofDigits? (digits : List Char) : Option Uuid :=
  if digits.length = 32 then (natOfHex? digits).map fun n => ⟨BitVec.ofNat 128 n⟩ else none

def ofGroups? (text : List Char) : Option Uuid :=
  let hyphens := [8, 13, 18, 23]
  if text.length = 36 && hyphens.all fun i => text[i]? == some '-' then
    ofDigits? (text.take 8 ++ (text.drop 9).take 4 ++ (text.drop 14).take 4 ++
      (text.drop 19).take 4 ++ text.drop 24)
  else none

def urnMark : List Char := "urn:uuid:".toList

def ofText? (text : String) : Option Uuid :=
  let chars := text.toList
  match chars.length with
  | 32 => ofDigits? chars
  | 36 => ofGroups? chars
  | 38 => if chars.head? == some '\x7b' && chars.getLast? == some '\x7d' then ofGroups? (chars.drop 1).dropLast else none
  | 45 => if (chars.take 9).map Char.toLower == urnMark then ofGroups? (chars.drop 9) else none
  | _ => none

end Uuid

end RecordMapper
