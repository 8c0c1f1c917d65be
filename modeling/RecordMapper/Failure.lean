import RecordMapper.Codec
import RecordMapper.Predicate.Comparison
import RecordMapper.Store.Fault
import RecordMapper.Text.Utf8

namespace RecordMapper

open RecordMapper.Text

inductive FieldRefusal where
  | duplicateColumn
  | duplicateField
  | embedded (typeName : String)
  | keyIsNoColumn
  deriving DecidableEq, Repr

def FieldRefusal.text : FieldRefusal → String
  | .duplicateColumn => "duplicate column"
  | .duplicateField => "duplicate field"
  | .embedded typeName => typeName
  | .keyIsNoColumn => "primary key is not a column field"

/-- Where a live table and a descriptor cannot be brought together by adding columns. -/
inductive Conflict where
  | keyDiffers (table : String)
  | declared (table column live wanted : String)
  | nullability (table column : String) (liveRequired wantedNullable : Bool)
  | missingRequired (table column : String)
  deriving DecidableEq, Repr

def Conflict.text : Conflict → String
  | .keyDiffers table => "primary key of " ++ table ++ " differs from the live table"
  | .declared table column live wanted =>
    table ++ "." ++ column ++ " is declared " ++ live ++ " but the shape needs " ++ wanted
  | .nullability table column liveRequired wantedNullable =>
    table ++ "." ++ column ++ " is " ++ (if liveRequired then "NOT NULL" else "nullable") ++
      " in the live table but the shape needs it " ++ (if wantedNullable then "nullable" else "NOT NULL")
  | .missingRequired table column =>
    "cannot add non-null column " ++ table ++ "." ++ column ++ " to an existing table"

inductive Malformation where
  | notInQuery (table : String)
  | noSuchColumn (table column : String)
  | listCompared (op : Comparison)
  | nullWithNull
  | noColumnOperand
  | nullOrdered (column : String) (op : Comparison)
  | joinColumn (relation table column : String)
  | joinTable (relation table : String)
  | indexEmpty (table : String)
  | indexColumn (table column : String)
  | nothingToWrite (table : String)
  | joinedWrite (operation : String)
  | stated (text : String)
  deriving DecidableEq, Repr

def Malformation.text : Malformation → String
  | .notInQuery table => "table " ++ table ++ " is not part of this query"
  | .noSuchColumn table column => table ++ " has no column " ++ column
  | .listCompared op => "a list cannot be compared with " ++ op.symbol ++ "; use a membership test"
  | .nullWithNull => "null compared with null"
  | .noColumnOperand => "comparison needs at least one column operand"
  | .nullOrdered column op => column ++ " " ++ op.symbol ++ " NULL is not a valid comparison"
  | .joinColumn relation table column => "join on " ++ relation ++ ": " ++ table ++ " has no column " ++ column
  | .joinTable relation table =>
    "join on " ++ relation ++ ": table " ++ table ++ " is already part of this query"
  | .indexEmpty table => "index on " ++ table ++ " names no columns"
  | .indexColumn table column => "cannot index unknown column " ++ table ++ "." ++ column
  | .nothingToWrite table => "no columns of " ++ table ++ " left to write"
  | .joinedWrite operation => operation ++ " cannot be applied to a joined query"
  | .stated text => text

inductive Misfit where
  | rowEnded (table : String) (position : Nat) (column : Option String)
  | field (table : String) (column : Option String) (fault : CodecFault)
  | width (table : String) (columns carried : Nat)
  | unread (table : String) (left : Nat)
  | shortRow (length expected : Nat)
  | joinedWidth (length covered : Nat)
  | scalarClass (found : StorageClass)
  | scalarMissing
  | negativeCount (n : Int64)
  | tableInfo (table : String)
  | notUtf8 (fault : Utf8Fault)
  deriving DecidableEq

def Misfit.text : Misfit → String
  | .rowEnded table position column =>
    table ++ ": row ended before column " ++ toString position ++ " (" ++ column.getD "?" ++ ")"
  | .field table column fault => table ++ "." ++ column.getD "?" ++ ": " ++ fault.message
  | .width table columns carried =>
    table ++ " has " ++ toString columns ++ " columns but the row carries " ++ toString carried
  | .unread table left => table ++ " left " ++ toString left ++ " columns unread"
  | .shortRow length expected =>
    "Row has " ++ toString length ++ " columns, expected at least " ++ toString expected
  | .joinedWidth length covered =>
    "joined row has " ++ toString length ++ " columns, layout covers " ++ toString covered
  | .scalarClass found => "expected integer scalar, found " ++ found.name
  | .scalarMissing => "scalar query returned no rows"
  | .negativeCount n => "negative count " ++ toString n.toInt
  | .tableInfo table => "unexpected table_info row for " ++ table
  | .notUtf8 fault => "Invalid UTF-8 in TEXT value: " ++ fault.message

inductive Failure where
  | unsupportedField (table field : String) (refusal : FieldRefusal)
  | conflict (cause : Conflict)
  | malformed (cause : Malformation)
  | binding (expected actual : Nat)
  | execution (sql : String) (fault : Fault)
  | decoding (misfit : Misfit)
  | codec (fault : CodecFault)
  | rolledBack (unit : Nat)
  deriving DecidableEq

def Failure.message : Failure → String
  | .unsupportedField table field refusal =>
    "Unsupported field type: " ++ table ++ "." ++ field ++ " (" ++ refusal.text ++ ")"
  | .conflict cause => "Schema conflict: " ++ cause.text
  | .malformed cause => "Malformed expression: " ++ cause.text
  | .binding expected actual =>
    "Binding error: statement has " ++ toString expected ++ " placeholders but " ++ toString actual ++
      " parameters were supplied"
  | .execution sql fault => "Execution error: " ++ fault.text sql ++ " (statement: " ++ sql ++ ")"
  | .decoding misfit => "Decoding error: " ++ misfit.text
  | .codec fault => "Decoding error: " ++ fault.message
  | .rolledBack unit =>
    "Transaction error: transaction " ++ toString unit ++ " rolled back because a nested unit failed"

end RecordMapper
