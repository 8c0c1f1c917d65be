import RecordMapper.Store.Defining
import RecordMapper.Store.Reading

namespace RecordMapper.Store

open RecordMapper.Text

/-- Rows as they arrive, each of which may hold a text that is none; or nothing but the change. -/
abbrev Rows := List (Except Utf8Fault (List Value))

def writes (c : Content) : Sql.Command → Bool
  | .insert .. | .insertOrRollback .. | .update .. | .delete .. | .createTable .. | .addColumn .. => true
  | .dropTable name => (c.table? name).isSome
  | .createIndex i => (c.index? i.name).isNone
  | _ => false

def counts (c : Content) (enforces : Bool) : Sql.Command → Bool
  | .insert .. | .insertOrRollback .. | .update .. | .delete .. => true
  | .dropTable name => enforces && ((c.table? name).map (mayEmpty c)).getD false
  | _ => false

def given (rows : List (List Value)) : Rows :=
  rows.map .ok

def termRow (terms : List Sql.Term) : Except Utf8Fault (List Value) :=
  terms.mapM termValue

def rowsOf (c : Content) : Sql.Command → Rows
  | .select columns rows order window => given (select c columns rows order window)
  | .count rows => given [countRow (count c rows)]
  | .countWindow rows window => given [countRow (countWindow c rows window)]
  | .countDistinct columns rows window => given [countRow (countDistinct c columns rows window)]
  | .tableExists name => given [countRow (if tableExists c name then 1 else 0)]
  | .tableInfo name => given (tableInfo c name)
  | .indexNames => given (indexNames c)
  | .terms terms holds => if holds then [termRow terms] else []
  | .project names table order => given (project c names table order)
  | _ => []

def examined (c : Content) : Sql.Command → List Bindings × Option Sql.Condition
  | .select _ rows _ _ | .count rows | .countWindow rows _ | .countDistinct _ rows _ => (linkedRows c rows, rows.filter)
  | .update table _ filter | .delete table filter => (ownRows c table, filter)
  | _ => ([], none)

def examine (c : Content) (command : Sql.Command) : Except FaultCause Unit :=
  (examined c command).1.forM fun b => (sift b (examined c command).2).map fun _ => ()

structure Effect where
  content : Content
  counted : Option Nat

def Effect.ofRows (enforces : Bool) (result : Except FaultCause (Content × Nat)) :
    Except FaultCause Effect := do
  let (content, n) ← result
  if enforces && content.breaks false then throw .brokenReference
  pure ⟨content, some n⟩

def dropEffect (c : Content) (enforces : Bool) (name : String) : Except FaultCause Effect :=
  match c.table? name with
  | none => .ok ⟨c, none⟩
  | some t =>
    if enforces && emptiesFirst c t then
      if (emptied c t).breaks false then .error .brokenReference
      else .ok ⟨dropTable c name, some t.rows.length⟩
    else .ok ⟨dropTable c name, if enforces && mayEmpty c t then some 0 else none⟩

def effectOf (c : Content) (enforces : Bool) : Sql.Command → Except FaultCause Effect
  | .insert table columns rows | .insertOrRollback table columns rows =>
    Effect.ofRows enforces (insert c table columns rows)
  | .update table assignments filter => Effect.ofRows enforces (update c table assignments filter)
  | .delete table filter => Effect.ofRows enforces (delete c table filter)
  | .createTable t _ => .ok ⟨createTable c t, none⟩
  | .dropTable name => dropEffect c enforces name
  | .addColumn table column => .ok ⟨addColumn c table column, none⟩
  | .createIndex i => (createIndex c i).map fun content => ⟨content, none⟩
  | _ => .ok ⟨c, none⟩

end RecordMapper.Store
