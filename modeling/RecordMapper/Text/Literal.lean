import RecordMapper.Text.Hex
import RecordMapper.Text.Hidden

namespace RecordMapper.Text

def shortHex (n : Nat) : List Char :=
  match (hexOfNat 6 n).dropWhile (· == '0') with
  | [] => ['0']
  | digits => digits

def literalChar (c : Char) : List Char :=
  if c == '\x00' then ['\\', '0']
  else if c == '\t' then ['\\', 't']
  else if c == '\r' then ['\\', 'r']
  else if c == '\n' then ['\\', 'n']
  else if c == '"' || c == '\\' then ['\\', c]
  else if isHidden c then ['\\', 'u', '\x7b'] ++ shortHex c.toNat ++ ['\x7d']
  else [c]

def literal (text : String) : String :=
  String.ofList (['"'] ++ text.toList.flatMap literalChar ++ ['"'])

end RecordMapper.Text
