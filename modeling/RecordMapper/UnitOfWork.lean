import RecordMapper.Engine

namespace RecordMapper

/-- The units that are open on one connection, and the number of the next outermost one. -/
structure Nest where
  next : Nat
  depth : Nat
  doomed : Bool
  deriving DecidableEq, Repr

inductive NestPhase where
  | idle
  | active
  | doomed
  deriving DecidableEq, Repr

namespace Nest

def initial : Nest := ⟨1, 0, false⟩

def isOpen (n : Nest) : Bool :=
  0 < n.depth

def phase (n : Nest) : NestPhase :=
  if !n.isOpen then .idle else if n.doomed then .doomed else .active

def numbered (n : Nest) : Nest := { n with next := n.next + 1 }

def opened (n : Nest) : Nest := { n with depth := 1, doomed := false }

def closed (n : Nest) : Nest := { n with depth := 0, doomed := false }

def entered (n : Nest) : Nest := { n with depth := n.depth + 1 }

def left (n : Nest) : Nest := { n with depth := n.depth - 1 }

def spoiled (n : Nest) : Nest := { n with doomed := true }

end Nest

inductive Undoing where
  | bodyFailed
  | nestedFailed
  | commitFailed
  | bodyPanicked
  deriving DecidableEq, Repr

def Undoing.text : Undoing → String
  | .bodyFailed => "body failed"
  | .nestedFailed => "nested unit failed"
  | .commitFailed => "commit failed"
  | .bodyPanicked => "body panicked"

/-- How units of work reach their connection within a larger state `ω`. Bodies end with a value or an
    error of type `ε`, and some errors unwind through everything that is open. -/
structure UnitHost (ω ε : Type) where
  nest : ω → Nest
  setNest : Nest → ω → ω
  control : Control → ω → Except Failure Unit × ω
  isAutocommit : ω → Bool
  record : Event → ω → ω
  ofFailure : Failure → ε
  unwinds : ε → Bool

namespace UnitHost

variable {ω ε α : Type}

def mapNest (h : UnitHost ω ε) (f : Nest → Nest) (w : ω) : ω :=
  h.setNest (f (h.nest w)) w

def undoneEvent (unit : Nat) (why : Undoing) : Event :=
  .plain .warn .transaction ("transaction " ++ toString unit ++ " rolled back: " ++ why.text)

def notUndoneEvent (unit : Nat) (failure : Failure) : Event :=
  .plain .error .transaction ("rollback of transaction " ++ toString unit ++ " failed: " ++ failure.message)

def rollBack (h : UnitHost ω ε) (unit : Nat) (why : Undoing) (w : ω) : ω :=
  if h.isAutocommit w then w
  else
    match h.control .rollback w with
    | (.ok _, w) => h.record (undoneEvent unit why) w
    | (.error failure, w) => h.record (notUndoneEvent unit failure) w

def finish (h : UnitHost ω ε) (unit : Nat) (outcome : Except ε α) (w : ω) : Except ε α × ω :=
  let spoiled := (h.nest w).doomed
  let w := h.mapNest .closed w
  match outcome with
  | .error e => (.error e, h.rollBack unit (if h.unwinds e then .bodyPanicked else .bodyFailed) w)
  | .ok a =>
    if spoiled then (.error (h.ofFailure (.rolledBack unit)), h.rollBack unit .nestedFailed w)
    else
      match h.control .commit w with
      | (.ok _, w) => (.ok a, w)
      | (.error failure, w) => (.error (h.ofFailure failure), h.rollBack unit .commitFailed w)

def runOutermost (h : UnitHost ω ε) (body : ω → Except ε α × ω) (w : ω) : Except ε α × ω :=
  let unit := (h.nest w).next
  match h.control .begin (h.mapNest .numbered w) with
  | (.error failure, w) => (.error (h.ofFailure failure), w)
  | (.ok _, w) =>
    let (outcome, w) := body (h.mapNest .opened w)
    h.finish unit outcome w

/-- Runs a body inside the open unit. An error that unwinds leaves the nest as it stands. -/
def runNested (h : UnitHost ω ε) (body : ω → Except ε α × ω) (w : ω) : Except ε α × ω :=
  let (outcome, w) := body (h.mapNest .entered w)
  match outcome with
  | .ok a => (.ok a, h.mapNest .left w)
  | .error e => (.error e, if h.unwinds e then w else h.mapNest (Nest.spoiled ∘ Nest.left) w)

def run (h : UnitHost ω ε) (body : ω → Except ε α × ω) (w : ω) : Except ε α × ω :=
  if (h.nest w).isOpen then h.runNested body w else h.runOutermost body w

end UnitHost

end RecordMapper
