import RecordMapper.Text.Ascii
import RecordMapper.Text.Blank

namespace RecordMapper

open RecordMapper.Text

inductive DataType where
  | integer
  | boolean
  | float
  | text
  | blob
  | date
  | timestamp
  | uuid
  deriving DecidableEq, Repr

namespace DataType

def name : DataType → String
  | .integer => "integer"
  | .boolean => "boolean"
  | .float => "float"
  | .text => "text"
  | .blob => "blob"
  | .date => "date"
  | .timestamp => "timestamp"
  | .uuid => "uuid"

def declared : DataType → String
  | .integer | .boolean => "INTEGER"
  | .float => "REAL"
  | .text | .date | .timestamp | .uuid => "TEXT"
  | .blob => "BLOB"

/-- Whether a live column of declared type `declared` can hold this type: white space around the
    declaration and its letter case do not matter. -/
def fitsDeclaration (t : DataType) (declared : String) : Bool :=
  sameIgnoringCase (trimBlanks declared) t.declared

end DataType

end RecordMapper
