import RecordMapper.Text.Quoted
import RecordMapper.Text.Ascii
import RecordMapper.Value

namespace RecordMapper.Sql

open RecordMapper.Text

structure ColumnName where
  label : String
  name : String
  deriving DecidableEq, Repr

def ColumnName.text (c : ColumnName) : String :=
  c.label ++ "." ++ quoted c.name

inductive Piece where
  | raw (text : String)
  | column (column : ColumnName)
  | bound (value : Value)
  deriving DecidableEq

namespace Piece

def text : Piece → String
  | .raw written => written
  | .column c => c.text
  | .bound _ => "?"

def value? : Piece → Option Value
  | .bound v => some v
  | _ => none

def separated (separator : String) : List (List Piece) → List Piece
  | [] => []
  | [last] => last
  | first :: rest => first ++ .raw separator :: separated separator rest

end Piece

def textOf (pieces : List Piece) : String :=
  pieces.foldr (fun piece rest => piece.text ++ rest) ""

def paramsOf (pieces : List Piece) : List Value :=
  pieces.filterMap Piece.value?

/-- Every column named, with the number of bytes of text before it; `start` stand before all. -/
def placesFrom (start : Nat) : List Piece → List (ColumnName × Nat)
  | [] => []
  | .column c :: rest => (c, start) :: placesFrom (start + c.text.utf8ByteSize) rest
  | piece :: rest => placesFrom (start + piece.text.utf8ByteSize) rest

def columnsOf (pieces : List Piece) : List ColumnName :=
  pieces.filterMap fun
    | .column c => some c
    | _ => none

@[simp] theorem textOf_append (left right : List Piece) :
    textOf (left ++ right) = textOf left ++ textOf right := by
  induction left with
  | nil => simp [textOf]
  | cons piece left ih =>
    simp only [textOf, List.cons_append, List.foldr_cons] at ih ⊢
    rw [ih, String.append_assoc]

@[simp] theorem paramsOf_append (left right : List Piece) :
    paramsOf (left ++ right) = paramsOf left ++ paramsOf right := by
  simp [paramsOf]

end RecordMapper.Sql
