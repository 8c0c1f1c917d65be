import RecordMapper.Session.Basic

namespace RecordMapper

inductive Interruption where
  | refused (why : Refusal)
  | panicked

namespace Origin

variable {g : ShapeGraph} {s : Fin g.size}

def query (o : Origin) : Database.Action (Query g s) :=
  match o.key, o.policy with
  | some key, policy => Database.createKeyedBy g s key (policy.getD .default)
  | none, some policy => Database.create g s policy
  | none, none => Database.table g s

end Origin

namespace Query

variable {g : ShapeGraph} {s : Fin g.size}

def related (name : String) (join : Relation g.size → Except Failure (Query g s)) :
    Except Refusal (Query g s) :=
  match (g.shape s).relation? name with
  | none => .error .noSuchRelation
  | some r => (join r).mapError .failed

def refine (q : Query g s) : Refinement g → Except Refusal (Query g s)
  | .filter none => .ok q
  | .filter (some p) => .ok (q.filter p)
  | .order column descending => .ok (q.order column descending)
  | .limit limit skip => .ok (q.limit limit skip)
  | .skip skip => .ok (q.skip skip)
  | .join relation on equals => related relation fun r => q.join r on equals
  | .pivot pivot relation on equals and is => related relation fun r => q.joinPivot pivot r on equals and is

end Query

abbrev Answering (α : Type) := ExceptT Refusal (StateM Database) α

namespace Answering

def ofAction {α : Type} (act : Database.Action α) : Answering α :=
  ExceptT.mk fun db =>
    let (outcome, db) := act.run db
    (outcome.mapError .failed, db)

def known {α : Type} (outcome : Except Refusal α) : Answering α :=
  ExceptT.mk fun db => (outcome, db)

end Answering

namespace Purpose

variable {g : ShapeGraph} {s : Fin g.size}

def answer (q : Query g s) : Purpose g s → Database.Action (Answer g)
  | .create => pure (.table q.plan.root)
  | .plan => pure (.plan q.plan)
  | .select => return .records s (← Database.select q)
  | .first => return .first s (← Database.selectFirst q)
  | .count => return .count (← Database.count q)
  | .insert records selection => return .count (← Database.insert q records selection)
  | .update record selection => return .count (← Database.update q record selection)
  | .delete => return .count (← Database.delete q)
  | .index columns unique => return .index (← Database.index q columns unique)

end Purpose

namespace Database

def malformed {α : Type} (outcome : Except Malformation α) : Action α :=
  known (outcome.mapError .malformed)

def insertRows (t : Table) (positions : t.Positions) : List (List Value) → Action Nat
  | [] => pure 0
  | row :: rest => do
    let command ← known (t.insert positions row)
    let changed ← execute command.statement
    let others ← insertRows t positions rest
    pure (changed + others)

end Database

namespace Request

variable {g : ShapeGraph}

/-- Empties the log, and tells whether it keeps nothing now; a log that never keeps has no answer. -/
def flushed : Database.Action (Answer g) := do
  modify Database.flushLog
  let log := (← get).engine.log
  pure (if log.keeps then .flag log.kept.isEmpty else .nothing)

def untyped : Request g → Database.Action (Answer g)
  | .tableExists table => return .flag (← Database.tableExists table)
  | .live table => return .live (← Database.liveColumns table)
  | .inTransaction => return .flag (← get).inTransaction
  | .flush => flushed
  | .reconcile table policy => do
    Database.reconcileTable policy table
    pure .nothing
  | .planRows plan => do
    let command ← Database.malformed plan.select
    return .rows (← Database.query command.statement)
  | .planCount plan => do
    let command ← Database.malformed plan.count
    return .number (← Database.scalar command.statement)
  | .insertRows table rows selection => do
    let positions ← Database.malformed (selection.positions table)
    return .count (← Database.insertRows table positions rows)
  | .updateRows table row filter selection => do
    let positions ← Database.malformed (selection.positions table)
    let command ← Database.known (table.update positions row filter)
    return .count (← Database.execute command.statement)
  | .deleteRows table filter => do
    let command ← Database.known (table.delete filter)
    return .count (← Database.execute command.statement)
  | .execute kind sql params => do
    let n ← Database.execute (.written kind sql params)
    pure (if kind = .ddl then .nothing else .count n)
  | .query sql params => return .rows (← Database.query (.written .query sql params))
  | .scalar sql params => return .number (← Database.scalar (.written .query sql params))
  | .typed .. | .refused _ => pure .nothing

def answer : Request g → Answering (Answer g)
  | .refused why => .known (.error why)
  | .typed s origin refinements purpose => do
    let first ← Answering.ofAction (origin.query (g := g) (s := s))
    let q ← Answering.known (refinements.foldlM Query.refine first)
    Answering.ofAction (purpose.answer q)
  | request => Answering.ofAction request.untyped

end Request

namespace Session

variable {g : ShapeGraph} {n : Nat}

def host {ρ : Type} (k : Fin n) : UnitHost (Session n × ρ) Interruption where
  nest w := (w.1.handle k).nest
  setNest nest w := (w.1.setHandle k { w.1.handle k with nest }, w.2)
  control c w :=
    let (outcome, after) := w.1.acting k (Database.onEngine (Engine.control c))
    (outcome, after, w.2)
  isAutocommit w := (w.1.database k).engine.isAutocommit
  record e w := (w.1.replace k ((w.1.database k).recordEvent e), w.2)
  ofFailure failure := .refused (.failed failure)
  unwinds
    | .panicked => true
    | .refused _ => false

def ask (s : Session n) (k : Fin n) (request : Request g) : Except Refusal (Answer g) × Session n :=
  let (outcome, db) := request.answer.run (s.database k)
  (outcome, s.replace k db)

def report (s : Session n) (k : Fin n) (outcome : Except Refusal (Answer g))
    (inner : Option (List (Report g))) : Report g × Session n :=
  let (logged, after) := s.drain
  (.of outcome (s.handle k).nest.phase logged inner, after)

end Session

def Ending.outcome : Ending → Except Interruption Document
  | .fails text => .error (.refused (.failed (.malformed (.stated text))))
  | .panics => .error .panicked
  | .gives value => .ok value

def unitOutcome {g : ShapeGraph} : Except Interruption Document → Except Refusal (Answer g)
  | .ok value => .ok (.value value)
  | .error .panicked => .ok .panicked
  | .error (.refused why) => .error why

def goesOn {g : ShapeGraph} (caught : Bool) : Except Refusal (Answer g) → Except Interruption Unit
  | .ok _ => .ok ()
  | .error why => if caught then .ok () else .error (.refused why)

mutual

def Step.run {g : ShapeGraph} {n : Nat} : Step g n → Session n → Report g × Session n
  | .request k request _, s =>
    let (outcome, s) := s.ask k request
    s.report k outcome none
  | .unit k steps ending _, s =>
    let body (w : Session n × Option (List (Report g))) :=
      let (outcome, reports, after) := runBody steps w.1
      (outcome.bind fun _ => ending.outcome, after, some reports)
    let (outcome, after, inner) := (Session.host k).run body (s, none)
    after.report k (unitOutcome outcome) inner

def runBody {g : ShapeGraph} {n : Nat} :
    List (Step g n) → Session n → Except Interruption Unit × List (Report g) × Session n
  | [], s => (.ok (), [], s)
  | step :: rest, s =>
    let (report, s) := step.run s
    match goesOn step.caught report.outcome with
    | .error stop => (.error stop, [report], s)
    | .ok _ =>
      let (outcome, reports, s) := runBody rest s
      (outcome, report :: reports, s)

end

def Session.run {g : ShapeGraph} {n : Nat} (s : Session n) : List (Step g n) → List (Report g) × Session n
  | [] => ([], s)
  | step :: rest =>
    let (report, s) := step.run s
    let (reports, s) := Session.run s rest
    (report :: reports, s)

end RecordMapper
