namespace RecordMapper

structure Policy where
  dropTable : Bool
  reconcileTable : Bool
  shallow : Bool
  deriving DecidableEq, Repr

namespace Policy

def default : Policy := ⟨false, false, false⟩
def drop : Policy := ⟨true, false, false⟩
def reconcile : Policy := ⟨false, true, false⟩
def shallowOnly : Policy := ⟨false, false, true⟩

def union (p q : Policy) : Policy :=
  ⟨p.dropTable || q.dropTable, p.reconcileTable || q.reconcileTable, p.shallow || q.shallow⟩

def contains (p q : Policy) : Bool :=
  p.union q == p

end Policy

end RecordMapper
