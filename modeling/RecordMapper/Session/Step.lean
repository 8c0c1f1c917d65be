import RecordMapper.Document.Basic
import RecordMapper.Policy
import RecordMapper.Query
import RecordMapper.UnitOfWork

namespace RecordMapper

inductive Refusal where
  | failed (failure : Failure)
  | noSuchRelation
  | missingShape
  | unknownStep
  deriving DecidableEq

inductive Refinement (g : ShapeGraph) where
  | filter (p : Option Predicate)
  | order (column : String) (descending : Bool)
  | limit (limit skip : UInt64)
  | skip (skip : UInt64)
  | join (relation on equals : String)
  | pivot (pivot : Fin g.size) (relation on equals and is : String)

/-- How a step comes to its query: a policy or a key brings the table in line first. -/
structure Origin where
  key : Option (List String)
  policy : Option Policy

inductive Purpose (g : ShapeGraph) (s : Fin g.size) where
  | create
  | plan
  | select
  | first
  | count
  | insert (records : List (g.shape s).Record) (selection : Selection)
  | update (record : (g.shape s).Record) (selection : Selection)
  | delete
  | index (columns : List String) (unique : Bool)

inductive Request (g : ShapeGraph) where
  | typed (s : Fin g.size) (origin : Origin) (refinements : List (Refinement g)) (purpose : Purpose g s)
  | tableExists (table : String)
  | live (table : String)
  | inTransaction
  | flush
  | reconcile (table : Table) (policy : Policy)
  | planRows (plan : Plan)
  | planCount (plan : Plan)
  | insertRows (table : Table) (rows : List (List Value)) (selection : Selection)
  | updateRows (table : Table) (row : List Value) (filter : Option Predicate) (selection : Selection)
  | deleteRows (table : Table) (filter : Option Predicate)
  | execute (kind : Sql.StatementKind) (sql : String) (params : List Value)
  | query (sql : String) (params : List Value)
  | scalar (sql : String) (params : List Value)
  | refused (why : Refusal)

inductive Answer (g : ShapeGraph) where
  | nothing
  | flag (b : Bool)
  | count (n : Nat)
  | number (n : Int64)
  | rows (rows : List (List Value))
  | table (table : Table)
  | plan (plan : Plan)
  | records (s : Fin g.size) (records : List (Loaded g s))
  | first (s : Fin g.size) (record : Option (Loaded g s))
  | index (index : Index)
  | live (columns : List LiveColumn)
  | value (value : Document)
  | panicked

inductive Ending where
  | fails (text : String)
  | panics
  | gives (value : Document)

/-- A step on the handle `k`. One that is caught lets the body go on when it fails. -/
inductive Step (g : ShapeGraph) (n : Nat) where
  | request (k : Fin n) (request : Request g) (caught : Bool)
  | unit (k : Fin n) (steps : List (Step g n)) (ending : Ending) (caught : Bool)

def Step.caught {g : ShapeGraph} {n : Nat} : Step g n → Bool
  | .request _ _ caught => caught
  | .unit _ _ _ caught => caught

structure Logged where
  kept : List Event
  forwarded : List Event

/-- The answer of a step, the phase of its handle after it, what has been logged since the report
    before it, and the reports of the steps inside if they were begun. -/
inductive Report (g : ShapeGraph) where
  | of (outcome : Except Refusal (Answer g)) (phase : NestPhase) (logged : Logged)
      (inner : Option (List (Report g)))

def Report.outcome {g : ShapeGraph} : Report g → Except Refusal (Answer g)
  | .of outcome _ _ _ => outcome

end RecordMapper
