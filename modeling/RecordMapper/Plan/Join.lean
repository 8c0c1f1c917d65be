import RecordMapper.Plan.Scope

namespace RecordMapper

inductive JoinRoute where
  | direct (parentKey childKey : String)
  | pivot (pivot : Table) (parentKey pivotParentKey childKey pivotChildKey : String)

structure Join where
  relation : String
  child : Table
  kind : JoinRoute

namespace Join

def pivot? (j : Join) : Option Table :=
  match j.kind with
  | .direct _ _ => none
  | .pivot table _ _ _ _ => some table

def tables (j : Join) : List Table :=
  j.pivot?.toList ++ [j.child]

def require (j : Join) (t : Table) (column : String) : Except Malformation Unit :=
  if t.hasColumn column then .ok () else .error (.joinColumn j.relation t.name column)

def validate (j : Join) (root : Table) : Except Malformation Unit :=
  match j.kind with
  | .direct parentKey childKey => do
    j.require root parentKey
    j.require j.child childKey
  | .pivot pivot parentKey pivotParentKey childKey pivotChildKey => do
    j.require root parentKey
    j.require pivot pivotParentKey
    j.require j.child childKey
    j.require pivot pivotChildKey

def refuseRepeats (j : Join) (scope : Scope) : Except Malformation Unit :=
  go (scope.entries.map (·.table.name)) j.tables
where
  go (seen : List String) : List Table → Except Malformation Unit
    | [] => .ok ()
    | t :: rest =>
      if t.name ∈ seen then .error (.joinTable j.relation t.name) else go (seen ++ [t.name]) rest

def childLabel (position : Nat) : String :=
  "t" ++ toString (position + 1)

def pivotLabel (position : Nat) : String :=
  "p" ++ toString (position + 1)

def entries (position : Nat) (j : Join) : List ScopedTable :=
  match j.pivot? with
  | none => [⟨childLabel position, j.child⟩]
  | some pivot => [⟨pivotLabel position, pivot⟩, ⟨childLabel position, j.child⟩]

def links (position : Nat) (j : Join) : List Sql.Link :=
  let child := childLabel position
  match j.kind with
  | .direct parentKey childKey => [⟨⟨j.child.name, child⟩, ⟨Sql.rootLabel, parentKey⟩, ⟨child, childKey⟩⟩]
  | .pivot pivot parentKey pivotParentKey childKey pivotChildKey =>
    let between := pivotLabel position
    [⟨⟨pivot.name, between⟩, ⟨Sql.rootLabel, parentKey⟩, ⟨between, pivotParentKey⟩⟩,
      ⟨⟨j.child.name, child⟩, ⟨between, pivotChildKey⟩, ⟨child, childKey⟩⟩]

end Join

def positioned {α : Type} (f : Nat → Join → List α) (start : Nat) : List Join → List α
  | [] => []
  | j :: rest => f start j ++ positioned f (start + 1) rest

def scopeOf (root : Table) (joins : List Join) : Scope :=
  ⟨root, positioned Join.entries 0 joins⟩

def linksOf (joins : List Join) : List Sql.Link :=
  positioned Join.links 0 joins

def rootSource (root : Table) : Sql.Source :=
  ⟨root.name, Sql.rootLabel⟩

end RecordMapper
