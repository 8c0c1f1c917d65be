import RecordMapper.Text.Ascii
import RecordMapper.Text.Quoted

namespace RecordMapper.Sql

open RecordMapper.Text

structure Reference where
  table : String
  column : String
  deferred : Bool
  deriving DecidableEq, Repr

structure ColumnDefinition where
  name : String
  declared : String
  key : Bool
  required : Bool
  reference : Option Reference
  deriving DecidableEq, Repr

def ColumnDefinition.text (c : ColumnDefinition) : String :=
  quoted c.name ++ " " ++ c.declared ++ (if c.key then " PRIMARY KEY" else "") ++
    (if c.required then " NOT NULL" else "")

structure TableDefinition where
  name : String
  columns : List ColumnDefinition
  key : List String
  deriving DecidableEq, Repr

namespace TableDefinition

def keyText (key : List String) : List String :=
  if key.isEmpty then [] else ["PRIMARY KEY (" ++ joined ", " (key.map quoted) ++ ")"]

def text (t : TableDefinition) : String :=
  "CREATE TABLE " ++ quoted t.name ++ " (" ++
    joined ", " (t.columns.map ColumnDefinition.text ++ keyText t.key) ++ ")"

end TableDefinition

structure IndexDefinition where
  name : String
  table : String
  columns : List String
  unique : Bool
  deriving DecidableEq, Repr

def IndexDefinition.text (i : IndexDefinition) : String :=
  "CREATE " ++ (if i.unique then "UNIQUE " else "") ++ "INDEX IF NOT EXISTS " ++ quoted i.name ++
    " ON " ++ quoted i.table ++ " (" ++ joined ", " (i.columns.map quoted) ++ ")"

end RecordMapper.Sql
