import RecordMapper.Predicate.Comparison
import RecordMapper.Sql.Piece

namespace RecordMapper.Sql

inductive Condition where
  | constant (holds : Bool)
  | columns (left : ColumnName) (op : Comparison) (right : ColumnName)
  | value (column : ColumnName) (op : Comparison) (value : Value)
  | null (column : ColumnName) (negated : Bool)
  | member (column : ColumnName) (values : List Value) (negated : Bool)
  | glob (column : ColumnName) (folded : Bool) (pattern : String)
  | and (left right : Condition)
  | or (left right : Condition)
  | not (inner : Condition)
  deriving DecidableEq

/-- A step of a search for unknown columns, which come in the order of the text. -/
inductive Glance where
  | halt
  | look
  /-- Looks the next column up, or passes it by if one was found unknown. -/
  | lookOnce
  deriving DecidableEq, Repr

namespace Condition

def pieces : Condition → List Piece
  | .constant true => [.raw "(1 = 1)"]
  | .constant false => [.raw "(1 = 0)"]
  | .columns left op right =>
    [.raw "(", .column left, .raw (" " ++ op.symbol ++ " "), .column right, .raw ")"]
  | .value c op v =>
    [.raw "(", .column c, .raw (" " ++ op.symbol ++ " "), .bound v, .raw ")"]
  | .null column negated =>
    [.raw "(", .column column, .raw (if negated then " IS NOT NULL)" else " IS NULL)")]
  | .member column values negated =>
    [.raw "(", .column column, .raw (if negated then " NOT IN (" else " IN (")] ++
      Piece.separated ", " (values.map fun v => [.bound v]) ++ [.raw "))"]
  | .glob column folded pattern =>
    [.raw (if folded then "(lower(" else "("), .column column,
      .raw (if folded then ") GLOB " else " GLOB "), .bound (.text pattern), .raw ")"]
  | .and left right => [.raw "("] ++ left.pieces ++ [.raw " AND "] ++ right.pieces ++ [.raw ")"]
  | .or left right => [.raw "("] ++ left.pieces ++ [.raw " OR "] ++ right.pieces ++ [.raw ")"]
  | .not inner => [.raw "(NOT "] ++ inner.pieces ++ [.raw ")"]

def text (c : Condition) : String :=
  textOf c.pieces

def params (c : Condition) : List Value :=
  paramsOf c.pieces

/-- The search for unknown columns, as the engine walks through a condition. Operators end it once a
    column is unknown; null tests and patterns do not ask, and a pattern is then passed by. -/
def search : Condition → List Glance
  | .constant _ => [.halt]
  | .columns .. => [.halt, .look, .halt, .look, .halt]
  | .value .. | .member .. => [.halt, .look, .halt]
  | .null .. => [.look]
  | .glob .. => [.lookOnce]
  | .and left right | .or left right => .halt :: (left.search ++ right.search)
  | .not inner => .halt :: inner.search

/-- Entries on the reader's stack while it reads a condition, at its deepest. -/
def depth : Condition → Nat
  | .constant _ => 4
  | .columns .. => 6
  | .value .. => 4
  | .null _ negated => if negated then 5 else 4
  | .member _ values _ => if values.length ≤ 1 then 5 else 7
  | .glob _ folded _ => if folded then 7 else 4
  | .and left right | .or left right => 1 + max left.depth (2 + right.depth)
  | .not inner => 2 + inner.depth

end Condition

end RecordMapper.Sql
