import RecordMapper.Table

namespace RecordMapper

open RecordMapper.Text

structure Index where
  table : String
  columns : List String
  unique : Bool
  deriving DecidableEq, Repr

namespace Index

def make (t : Table) (columns : List String) (unique : Bool) : Except Malformation Index :=
  if columns.isEmpty then
    .error (.indexEmpty t.name)
  else
    match columns.find? fun c => !t.hasColumn c with
    | some c => .error (.indexColumn t.name c)
    | none => .ok ⟨t.name, columns, unique⟩

def name (i : Index) : String :=
  "index_" ++ i.table ++ "_" ++ joined "_" i.columns

def definition (i : Index) : Sql.IndexDefinition :=
  ⟨i.name, i.table, i.columns, i.unique⟩

end Index

end RecordMapper
