import RecordMapper.Number.Shortest
import RecordMapper.Text.Literal

namespace RecordMapper

open RecordMapper.Number RecordMapper.Text

inductive Document where
  | null
  | bool (b : Bool)
  | integer (n : Int)
  | real (x : Binary64)
  | text (s : String)
  | list (items : List Document)
  | object (entries : List (String × Document))
  deriving Inhabited

def Document.described : Document → String
  | .null => "null"
  | .bool b => "boolean `" ++ (if b then "true" else "false") ++ "`"
  | .integer n => "integer `" ++ toString n ++ "`"
  | .real x => "floating point `" ++ x.pointedText ++ "`"
  | .text s => "string " ++ literal s
  | .list _ => "sequence"
  | .object _ => "map"

end RecordMapper
