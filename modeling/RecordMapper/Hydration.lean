import RecordMapper.Shape

namespace RecordMapper

/-- What tells a table's rows apart: the values of the key, or all of them without one. -/
def Table.identity (t : Table) (row : List Value) : List Value :=
  if t.keyPositions.isEmpty then row else t.keyPositions.filterMap (row[·]?)

abbrev Seen (α : Type) := List (List Value × α)

namespace Seen

variable {α : Type}

def find? (seen : Seen α) (identity : List Value) : Option α :=
  (List.find? (fun e => Value.sameRow e.1 identity) seen).map Prod.snd

def insert (seen : Seen α) (identity : List Value) (entry : α) : Seen α :=
  match seen.find? identity with
  | some _ => seen
  | none => seen ++ [(identity, entry)]

def replace (seen : Seen α) (identity : List Value) (entry : α) : Seen α :=
  seen.map fun e => if Value.sameRow e.1 identity then (e.1, entry) else e

end Seen

/-- A relation that a query loads. In a row, `gap` values of a pivot stand before those of the child. -/
structure Loader (n : Nat) where
  relation : String
  child : Fin n
  table : Table
  gap : Nat

structure Group where
  root : List Value
  children : List (Seen (List Value))

structure Hydration (n : Nat) where
  root : Table
  loaders : List (Loader n)
  groups : Seen Group

namespace Hydration

variable {n : Nat}

def empty (root : Table) (loaders : List (Loader n)) : Hydration n :=
  ⟨root, loaders, []⟩

def pushChildren (row : List Value) :
    List (Loader n) → List (Seen (List Value)) → Nat → Except Misfit Nat × List (Seen (List Value))
  | l :: loaders, seen :: others, offset =>
    let start := offset + l.gap
    match slice row start l.table.width with
    | .error misfit => (.error misfit, seen :: others)
    | .ok values =>
      let (outcome, after) := pushChildren row loaders others (start + l.table.width)
      (outcome, seen.insert (l.table.identity values) values :: after)
  | _, seen, offset => (.ok offset, seen)

/-- Takes one row. What a row that does not fit has left behind stays. -/
def push (h : Hydration n) (row : List Value) : Except Misfit Unit × Hydration n :=
  match slice row 0 h.root.width with
  | .error misfit => (.error misfit, h)
  | .ok root =>
    let identity := h.root.identity root
    let groups := h.groups.insert identity ⟨root, h.loaders.map fun _ => []⟩
    let group := (groups.find? identity).getD ⟨root, []⟩
    let (outcome, children) := pushChildren row h.loaders group.children h.root.width
    let after := { h with groups := groups.replace identity { group with children } }
    match outcome with
    | .error misfit => (.error misfit, after)
    | .ok covered => (if covered = row.length then .ok () else .error (.joinedWidth row.length covered), after)

end Hydration

structure Children (g : ShapeGraph) where
  child : Fin g.size
  records : List (g.shape child).Record

structure Loaded (g : ShapeGraph) (s : Fin g.size) where
  record : (g.shape s).Record
  relations : List (String × Children g)

namespace Loaded

variable {g : ShapeGraph} {s : Fin g.size}

def unrelated (record : (g.shape s).Record) : Loaded g s :=
  ⟨record, []⟩

def assign (l : Loaded g s) (relation : String) (children : Children g) : Loaded g s :=
  { l with relations := l.relations.filter (·.1 != relation) ++ [(relation, children)] }

def readOne (g : ShapeGraph) (s : Fin g.size) (table : Table) (row : List Value) :
    Except Misfit (Loaded g s) :=
  (table.read (g.shape s).read row).map unrelated

end Loaded

namespace Hydration

variable {g : ShapeGraph} {s : Fin g.size}

def load (l : Loaded g s) (loader : Loader g.size) (seen : Seen (List Value)) :
    Except Misfit (Loaded g s) := do
  let records ← (seen.map Prod.snd).mapM (loader.table.read (g.shape loader.child).read)
  pure (l.assign loader.relation ⟨loader.child, records⟩)

def readGroup (h : Hydration g.size) (group : Group) : Except Misfit (Loaded g s) := do
  let root ← Loaded.readOne g s h.root group.root
  (h.loaders.zip group.children).foldlM (fun l part => load l part.1 part.2) root

def finish (h : Hydration g.size) : Except Misfit (List (Loaded g s)) :=
  h.groups.mapM fun entry => h.readGroup entry.2

end Hydration

end RecordMapper
