import RecordMapper.Proofs.Schema.Idempotence
import RecordMapper.Proofs.Unit.Asking

namespace RecordMapper

open RecordMapper.Store RecordMapper.Text

/-- One thing that a schema operation asks for: rows, a definition, or a line in the log. -/
inductive Deed where
  | read (c : Sql.Command)
  | define (c : Sql.Command)
  | note (text : String)

def Deed.perform : Deed → Database → Except Failure (List (List Value)) × Database
  | .read c, db => (Database.query c.statement).run db
  | .define c, db =>
    let (outcome, after) := (Database.define c).run db
    (outcome.map fun _ => [], after)
  | .note text, db =>
    let (outcome, after) := (Database.noteSchema text).run db
    (outcome.map fun _ => [], after)

abbrev Course (α : Type) := Script Deed (List (List Value)) Failure α

namespace Course

def numberIn : List (List Value) → Except Failure Int64
  | (.integer n :: _) :: _ => .ok n
  | (v :: _) :: _ => .error (.decoding (.scalarClass v.storageClass))
  | _ => .error (.decoding .scalarMissing)

def read {α : Type} (c : Sql.Command) (take : List (List Value) → Except Failure α) : Course α :=
  .statement (.read c) fun rows => .done (rows.bind take)

def define (c : Sql.Command) : Course Unit :=
  .statement (.define c) fun outcome => .done (outcome.map fun _ => ())

def note (text : String) : Course Unit :=
  .statement (.note text) fun outcome => .done (outcome.map fun _ => ())

def tableExists (name : String) : Course Bool :=
  read (.tableExists name) fun rows => (numberIn rows).map (0 < ·)

def liveColumns (name : String) : Course (List LiveColumn) :=
  read (.tableInfo name) (Database.readLive name)

def recreate (t : Table) : Course Unit :=
  (define (.dropTable t.name)).bind fun _ => (define t.create).bind fun _ => note ("recreated table " ++ t.name)

def createAbsent (t : Table) : Course Unit :=
  (define t.create).bind fun _ => note ("created table " ++ t.name)

def addAll (t : Table) : List Column → Course Unit
  | [] => .done (.ok ())
  | column :: columns => (define (t.addColumn column)).bind fun _ => addAll t columns

def noteAdded (t : Table) (missing : List Column) : Course Unit :=
  if !missing.isEmpty then
    note ("reconciled table " ++ t.name ++ ": added " ++ joined ", " (missing.map Column.name))
  else .done (.ok ())

def addMissing (t : Table) : Course Unit :=
  (liveColumns t.name).bind fun live =>
    (Script.done ((t.missingFrom live).mapError .conflict)).bind fun missing =>
      (addAll t missing).bind fun _ => noteAdded t missing

def align (policy : Policy) (t : Table) : Course Unit :=
  if policy.contains .drop then recreate t
  else (tableExists t.name).bind fun present =>
    if !present then createAbsent t
    else if policy.contains .reconcile then addMissing t
    else .done (.ok ())

def alignAll (policy : Policy) : List (Except Failure Table) → Course Unit
  | [] => .done (.ok ())
  | table :: tables => ((Script.done table).bind (align policy)).bind fun _ => alignAll policy tables

def reconcile (g : ShapeGraph) (policy : Policy) (d : Descriptor g.size) : Course Unit :=
  .nested (alignAll policy (if policy.contains .shallowOnly then [.ok d.table] else g.reach d)) .done

/-- A course does what an action does. -/
def Runs {α : Type} (course : Course α) (act : Database.Action α) : Prop :=
  ∀ db, course.perform Database.host Deed.perform db = act.run db

variable {α β : Type}

theorem Runs.bind {course : Course α} {act : Database.Action α} {next : α → Course β} {later : α → Database.Action β}
    (first : Runs course act) (rest : ∀ a, Runs (next a) (later a)) : Runs (course.bind next) (act >>= later) := by
  intro db
  rw [Script.perform_bind, first db, run_bind]
  rcases act.run db with ⟨failure | a, after⟩
  · rfl
  · exact rest a after

theorem runs_known (outcome : Except Failure α) : Runs (.done outcome) (Database.known outcome) :=
  fun _ => rfl

theorem runs_pure (a : α) : Runs (.done (.ok a)) (pure a) :=
  fun _ => rfl

theorem runs_define (c : Sql.Command) : Runs (define c) (Database.define c) := by
  intro db
  rcases ran : (Database.define c).run db with ⟨failure | ⟨⟩, after⟩ <;>
    simp [define, Script.perform, Deed.perform, ran, Except.map]

theorem runs_note (text : String) : Runs (note text) (Database.noteSchema text) :=
  fun _ => rfl

theorem runs_read {c : Sql.Command} {take : List (List Value) → Except Failure α} :
    Runs (read c take) (Database.query c.statement >>= fun rows => Database.known (take rows)) := by
  intro db
  rw [run_bind]
  rcases ran : (Database.query c.statement).run db with ⟨failure | rows, after⟩ <;>
    simp [read, Script.perform, Deed.perform, ran, Except.bind, Database.run_known]

theorem scalar_eq (s : Sql.Statement) :
    Database.scalar s = Database.query s >>= fun rows => Database.known (numberIn rows) := by
  funext db
  show (Database.scalar s).run db = (Database.query s >>= fun rows => Database.known (numberIn rows)).run db
  rw [run_bind, Database.scalar, Database.query, Database.run_onEngine, Database.run_onEngine, Engine.scalar, run_bind]
  rcases (Engine.query s).run db.engine with ⟨failure | rows, after⟩
  · rfl
  · rcases rows with _ | ⟨_ | ⟨v, values⟩, rows⟩
    · rfl
    · rfl
    · cases v <;> rfl

theorem runs_tableExists (name : String) : Runs (tableExists name) (Database.tableExists name) := by
  intro db
  rw [tableExists, runs_read db, Database.tableExists, scalar_eq, run_bind, run_bind, run_bind]
  rcases (Database.query (Sql.Command.tableExists name).statement).run db with ⟨failure | rows, after⟩
  · rfl
  · simp only [Database.run_known]
    cases numberIn rows <;> rfl

theorem runs_liveColumns (name : String) : Runs (liveColumns name) (Database.liveColumns name) :=
  runs_read

variable (t : Table) (policy : Policy)

theorem runs_recreate : Runs (recreate t) (Database.recreate t) :=
  (runs_define _).bind fun _ => (runs_define _).bind fun _ => runs_note _

theorem runs_createAbsent : Runs (createAbsent t) (Database.createAbsent t) :=
  (runs_define _).bind fun _ => runs_note _

theorem runs_addAll (missing : List Column) :
    Runs (addAll t missing) (missing.forM fun column => Database.define (t.addColumn column)) := by
  induction missing with
  | nil => exact runs_pure ()
  | cons column missing ih => exact (runs_define _).bind fun _ => ih

theorem runs_noteAdded (missing : List Column) : Runs (noteAdded t missing) (if !missing.isEmpty then
    Database.noteSchema ("reconciled table " ++ t.name ++ ": added " ++ joined ", " (missing.map Column.name))
    else pure ()) := by
  unfold noteAdded
  split
  · exact runs_note _
  · exact runs_pure ()

theorem runs_addMissing : Runs (addMissing t) (Database.addMissing t) :=
  (runs_liveColumns _).bind fun _ => (runs_known _).bind fun missing =>
    (runs_addAll t missing).bind fun _ => runs_noteAdded t missing

theorem runs_align : Runs (align policy t) (Database.align policy t) := by
  unfold align Database.align
  split
  · exact runs_recreate t
  · apply (runs_tableExists t.name).bind
    intro present
    split
    · exact runs_createAbsent t
    · split
      · exact runs_addMissing t
      · exact runs_pure ()

theorem runs_alignAll (tables : List (Except Failure Table)) :
    Runs (alignAll policy tables) (Database.alignAll policy tables) := by
  induction tables with
  | nil => exact runs_pure ()
  | cons table tables ih =>
    exact ((runs_known table).bind fun t => runs_align t policy).bind fun _ => ih

theorem runs_reconcile (g : ShapeGraph) (d : Descriptor g.size) :
    Runs (reconcile g policy d) (Database.reconcile g policy d) := by
  intro db
  have body := runs_alignAll policy (if policy.contains .shallowOnly then [.ok d.table] else g.reach d)
  show Database.host.run _ db = Database.host.run _ db
  congr 1
  funext before
  exact body before

end Course

end RecordMapper
