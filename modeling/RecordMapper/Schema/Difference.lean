import RecordMapper.Table

namespace RecordMapper

open RecordMapper.Text

/-- A column as the engine has it; `keyPosition` counts from one and is zero outside the key. -/
structure LiveColumn where
  name : String
  declared : String
  required : Bool
  keyPosition : Int64
  deriving DecidableEq, Repr

namespace LiveColumn

def ofRow? : List Value → Option LiveColumn
  | [.text name, declared, .integer required, .integer keyPosition] =>
    let text := match declared with
      | .text t => t
      | _ => ""
    some ⟨name, text, required != 0, keyPosition⟩
  | _ => none

def find? (live : List LiveColumn) (name : String) : Option LiveColumn :=
  List.find? (fun l => sameIgnoringCase l.name name) live

def keyNames (live : List LiveColumn) : List String :=
  (live.filter (0 < ·.keyPosition)).map fun l => foldCase l.name

end LiveColumn

def sameMembers (a b : List String) : Bool :=
  a.all b.contains && b.all a.contains

namespace Table

def conflictWith? (t : Table) (c : Column) (l : LiveColumn) : Option Conflict :=
  if !c.dataType.fitsDeclaration l.declared then
    some (.declared t.name c.name l.declared c.dataType.declared)
  else if l.required == c.nullable && !c.key then
    some (.nullability t.name c.name l.required c.nullable)
  else none

def missing? (t : Table) (live : List LiveColumn) (c : Column) : Except Conflict (Option Column) :=
  match LiveColumn.find? live c.name with
  | some l =>
    match t.conflictWith? c l with
    | some conflict => .error conflict
    | none => .ok none
  | none => if c.nullable then .ok (some c) else .error (.missingRequired t.name c.name)

def sameKey (t : Table) (live : List LiveColumn) : Bool :=
  sameMembers (LiveColumn.keyNames live) (t.keyNames.map foldCase)

/-- The columns to add, in the descriptor's order, or the first conflict. -/
def missingFrom (t : Table) (live : List LiveColumn) : Except Conflict (List Column) :=
  if t.sameKey live then (t.columns.mapM (t.missing? live)).map fun found => found.filterMap id
  else .error (.keyDiffers t.name)

end Table

end RecordMapper
