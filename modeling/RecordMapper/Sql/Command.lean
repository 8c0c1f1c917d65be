import RecordMapper.Sql.Condition
import RecordMapper.Sql.Definition

namespace RecordMapper.Sql

open RecordMapper.Text

structure Source where
  table : String
  label : String
  deriving DecidableEq, Repr

structure Link where
  source : Source
  left : ColumnName
  right : ColumnName
  deriving DecidableEq, Repr

structure Rows where
  source : Source
  links : List Link
  filter : Option Condition
  deriving DecidableEq

structure OrderTerm where
  column : ColumnName
  descending : Bool
  deriving DecidableEq, Repr

/-- At most `limit` rows behind the first `skip` ones; a negative limit is none. -/
structure Window where
  limit : Int64
  skip : Int64
  deriving DecidableEq, Repr

structure Mark where
  text : String
  offset : Nat
  deriving DecidableEq, Repr

/-- A column name as a caller wrote it: one in quotes may also stand for its own text. -/
structure WrittenName where
  name : String
  inQuotes : Bool
  offset : Nat
  deriving DecidableEq, Repr

inductive Term where
  | one
  | bound (value : Value)
  | plusOne (value : Value)
  | asText (value : Value)
  deriving DecidableEq

inductive Command where
  | select (columns : List ColumnName) (rows : Rows) (order : List OrderTerm) (window : Option Window)
  | count (rows : Rows)
  | countWindow (rows : Rows) (window : Window)
  | countDistinct (columns : List ColumnName) (rows : Rows) (window : Option Window)
  | insert (table : String) (columns : Option (List String)) (rows : List (List Value))
  | insertOrRollback (table : String) (columns : Option (List String)) (rows : List (List Value))
  | update (table : String) (assignments : List (String × Value)) (filter : Option Condition)
  | delete (table : String) (filter : Option Condition)
  | createTable (table : TableDefinition) (name : Mark)
  | dropTable (table : String)
  | addColumn (table : String) (column : ColumnDefinition)
  | createIndex (index : IndexDefinition)
  | tableExists (table : String)
  | tableInfo (table : String)
  | indexNames
  | terms (terms : List Term) (holds : Bool)
  | project (names : List WrittenName) (table : String) (order : List WrittenName)
  | begin
  | commit
  | rollback
  deriving DecidableEq

inductive StatementKind where
  | query
  | command
  | ddl
  deriving DecidableEq, Repr

/-- The label of the one table that a statement reads or changes, and of the first of several. -/
def rootLabel : String := "t0"

def Source.text (s : Source) : String :=
  quoted s.table ++ " AS " ++ s.label

def Link.pieces (l : Link) : List Piece :=
  [.raw (" JOIN " ++ l.source.text ++ " ON "), .column l.left, .raw " = ", .column l.right]

def filterPieces : Option Condition → List Piece
  | none => []
  | some condition => .raw " WHERE " :: condition.pieces

def Rows.fromPieces (r : Rows) : List Piece :=
  .raw r.source.text :: r.links.flatMap Link.pieces

def Rows.pieces (r : Rows) : List Piece :=
  r.fromPieces ++ filterPieces r.filter

def OrderTerm.pieces (t : OrderTerm) : List Piece :=
  [.column t.column, .raw (if t.descending then " DESC" else " ASC")]

def orderPieces (order : List OrderTerm) : List Piece :=
  if order.isEmpty then [] else .raw " ORDER BY " :: Piece.separated ", " (order.map OrderTerm.pieces)

def windowPieces : Option Window → List Piece
  | none => []
  | some w => [.raw " LIMIT ", .bound (.integer w.limit), .raw " OFFSET ", .bound (.integer w.skip)]

def itemPieces (c : ColumnName) : List Piece :=
  [.column c, .raw (" AS " ++ quoted (c.label ++ "." ++ c.name))]

def selectListPieces (columns : List ColumnName) : List Piece :=
  Piece.separated ", " (columns.map itemPieces)

def columnListPieces (columns : List ColumnName) : List Piece :=
  Piece.separated ", " (columns.map fun c => [.column c])

def boundRow (values : List Value) : List Piece :=
  [.raw "("] ++ Piece.separated ", " (values.map fun v => [.bound v]) ++ [.raw ")"]

def columnNamesText (columns : List String) : String :=
  joined ", " (columns.map quoted)

def insertPieces (start table : String) (columns : Option (List String)) (rows : List (List Value)) :
    List Piece :=
  [.raw (start ++ quoted table ++
    (match columns with
      | some names => " (" ++ columnNamesText names ++ ")"
      | none => "") ++ " VALUES ")] ++ Piece.separated ", " (rows.map boundRow)

def WrittenName.text (n : WrittenName) : String :=
  if n.inQuotes then quoted n.name else n.name

def Term.pieces : Term → List Piece
  | .one => [.raw "1"]
  | .bound v => [.bound v]
  | .plusOne v => [.bound v, .raw " + 1"]
  | .asText v => [.raw "CAST(", .bound v, .raw " AS TEXT)"]

namespace Command

def pieces : Command → List Piece
  | .select columns rows order window =>
    [.raw "SELECT "] ++ selectListPieces columns ++ [.raw " FROM "] ++ rows.pieces ++ orderPieces order ++
      windowPieces window
  | .count rows => .raw "SELECT COUNT(*) FROM " :: rows.pieces
  | .countWindow rows window =>
    [.raw "SELECT COUNT(*) FROM (SELECT 1 FROM "] ++ rows.pieces ++ windowPieces (some window) ++ [.raw ")"]
  | .countDistinct columns rows window =>
    [.raw "SELECT COUNT(*) FROM (SELECT DISTINCT "] ++ columnListPieces columns ++ [.raw " FROM "] ++
      rows.pieces ++ windowPieces window ++ [.raw ")"]
  | .insert table columns rows => insertPieces "INSERT INTO " table columns rows
  | .insertOrRollback table columns rows => insertPieces "INSERT OR ROLLBACK INTO " table columns rows
  | .update table assignments filter =>
    [.raw ("UPDATE " ++ quoted table ++ " AS " ++ rootLabel ++ " SET ")] ++
      Piece.separated ", " (assignments.map fun a => [.raw (quoted a.1 ++ " = "), .bound a.2]) ++
      filterPieces filter
  | .delete table filter =>
    .raw ("DELETE FROM " ++ quoted table ++ " AS " ++ rootLabel) :: filterPieces filter
  | .createTable table _ => [.raw table.text]
  | .dropTable table => [.raw ("DROP TABLE IF EXISTS " ++ quoted table)]
  | .addColumn table column => [.raw ("ALTER TABLE " ++ quoted table ++ " ADD COLUMN " ++ column.text)]
  | .createIndex index => [.raw index.text]
  | .tableExists table =>
    [.raw "SELECT COUNT(*) FROM sqlite_master WHERE type = 'table' AND name = ", .bound (.text table)]
  | .tableInfo table =>
    [.raw "SELECT name, type, \"notnull\", pk FROM pragma_table_info(", .bound (.text table),
      .raw ") ORDER BY cid"]
  | .indexNames =>
    [.raw "SELECT name FROM sqlite_master WHERE type = 'index' AND sql IS NOT NULL ORDER BY name"]
  | .terms list holds =>
    [.raw "SELECT "] ++ Piece.separated ", " (list.map Term.pieces) ++
      (if holds then [] else [.raw " WHERE 1 = 0"])
  | .project names table order =>
    [.raw ("SELECT " ++ joined ", " (names.map WrittenName.text) ++ " FROM " ++ quoted table ++
      (if order.isEmpty then "" else " ORDER BY " ++ joined ", " (order.map WrittenName.text)))]
  | .begin => [.raw "BEGIN"]
  | .commit => [.raw "COMMIT"]
  | .rollback => [.raw "ROLLBACK"]

def text (c : Command) : String :=
  textOf c.pieces

def params (c : Command) : List Value :=
  paramsOf c.pieces

def kind : Command → StatementKind
  | .insert .. | .insertOrRollback .. | .update .. | .delete .. | .begin | .commit | .rollback => .command
  | .createTable .. | .dropTable _ | .addColumn .. | .createIndex _ => .ddl
  | _ => .query

def create (table : TableDefinition) : Command :=
  .createTable table ⟨quoted table.name, "CREATE TABLE ".utf8ByteSize⟩

end Command

end RecordMapper.Sql
