import RecordMapper.Sql.Reader

namespace RecordMapper.Sql

open RecordMapper.Text

structure Statement where
  sql : String
  params : List Value
  kind : StatementKind
  asked : Except TextFault Command

def cutToken? (sql : String) : Option Mark :=
  if '\x00' ∈ sql.toList then (lexemes sql).2 else none

def Command.statement (c : Command) : Statement :=
  let asked := match cutToken? c.text with
    | some mark => .error (.unrecognized mark)
    | none => .ok c
  ⟨c.text, c.params, c.kind, asked⟩

namespace Statement

def written (kind : StatementKind) (sql : String) (params : List Value) : Statement :=
  ⟨sql, params, kind, readCommand sql params⟩

def placeholders (s : Statement) : Nat :=
  placeholderCount s.sql

end Statement

end RecordMapper.Sql
