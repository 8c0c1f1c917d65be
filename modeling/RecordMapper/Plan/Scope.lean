import RecordMapper.Predicate.Tree
import RecordMapper.Sql.Command
import RecordMapper.Table

namespace RecordMapper

structure ScopedTable where
  label : String
  table : Table

structure Scope where
  root : Table
  joined : List ScopedTable

namespace Scope

def entries (s : Scope) : List ScopedTable :=
  ⟨Sql.rootLabel, s.root⟩ :: s.joined

def entry (s : Scope) : Option String → Except Malformation ScopedTable
  | none => .ok ⟨Sql.rootLabel, s.root⟩
  | some table =>
    match s.entries.find? (·.table.name == table) with
    | some e => .ok e
    | none => .error (.notInQuery table)

def resolve (s : Scope) (c : ColumnRef) : Except Malformation Sql.ColumnName := do
  let e ← s.entry c.table
  if e.table.hasColumn c.column then
    pure ⟨e.label, c.column⟩
  else
    throw (.noSuchColumn e.table.name c.column)

def columns (s : Scope) : List Sql.ColumnName :=
  s.entries.flatMap fun e => e.table.columnNames.map fun name => ⟨e.label, name⟩

end Scope

end RecordMapper
