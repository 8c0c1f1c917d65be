import Mathlib.Logic.Relation
import RecordMapper.Proofs.Unit.Atomicity
import RecordMapper.Proofs.Unit.Ensuring

namespace RecordMapper

open RecordMapper.Store

namespace Store.Outline

variable {may : Sql.Command → Prop} {o after : Outline} {enforces : Bool}

/-- What one statement makes of an outline: nothing, or what a command does that it may be and that neither begins nor
    ends a transaction. -/
inductive Step (may : Sql.Command → Prop) (o : Outline) : Outline → Prop where
  | untouched {after : Outline} (touched : o.Untouched after) : Step may o after
  | ran {command : Sql.Command} {rows : Rows} {after : Outline} (plain : isControl command = false)
      (allowed : may command) (ended : o.Ended command (.ok rows) after) : Step may o after

abbrev Steps (may : Sql.Command → Prop) : Outline → Outline → Prop :=
  Relation.ReflTransGen (Step may)

theorem Step.sound (step : Step may o after) (sound : o.Sound enforces) : after.Sound enforces := by
  cases step with
  | untouched touched => exact touched.sound sound
  | ran _ _ ended => exact ended.sound sound

theorem Step.base {c : Content} (step : Step may o after) (within : o.base = some c) : after.base = some c := by
  cases step with
  | untouched touched => rw [touched.base, within]
  | ran _ _ ended => rw [ended.stands.2, within]

theorem Steps.sound (steps : Steps may o after) (sound : o.Sound enforces) : after.Sound enforces := by
  induction steps with
  | refl => exact sound
  | tail _ step ih => exact step.sound ih

theorem Steps.base {c : Content} (steps : Steps may o after) (within : o.base = some c) : after.base = some c := by
  induction steps with
  | refl => exact within
  | tail _ step ih => exact step.base ih

theorem Step.mono {may' : Sql.Command → Prop} (step : Step may o after) (weaker : ∀ command, may command → may' command) :
    Step may' o after := by
  cases step with
  | untouched touched => exact .untouched touched
  | ran plain allowed ended => exact .ran plain (weaker _ allowed) ended

end Store.Outline

namespace Transactional

variable {ω σ ρ ε δ α : Type} {h : UnitHost ω ε} {exec : σ → ω → Except Failure ρ × ω} {sound : ω → Prop}
  {standing : ω → Standing δ} {effect : σ → δ → δ} (t : Transactional h exec sound standing effect)

include t

theorem sound_rollBack {w : ω} (unit : Nat) (why : Undoing) (ready : sound w) : sound (h.rollBack unit why w) := by
  have undone := t.sound_control .rollback ready
  unfold UnitHost.rollBack
  split
  · exact ready
  · rcases rolled : h.control .rollback w with ⟨_ | _, after⟩
    · rw [rolled] at undone
      exact t.sound_record _ undone
    · rw [rolled] at undone
      exact t.sound_record _ undone

theorem sound_finish {w : ω} (unit : Nat) (outcome : Except ε α) (ready : sound w) :
    sound (h.finish unit outcome w).2 := by
  have closed : sound (h.mapNest .closed w) := t.sound_setNest _ ready
  have committed := t.sound_control .commit closed
  unfold UnitHost.finish
  cases outcome with
  | error e => exact t.sound_rollBack _ _ closed
  | ok a =>
    simp only []
    split
    · exact t.sound_rollBack _ _ closed
    · rcases ended : h.control .commit (h.mapNest .closed w) with ⟨_ | _, after⟩
      · rw [ended] at committed
        exact t.sound_rollBack _ _ committed
      · rw [ended] at committed
        exact committed

end Transactional

namespace Database

variable {α β : Type} {may : Sql.Command → Prop} {enforces : Bool}

/-- Whatever comes of an action, the statements that it has run are such commands, and the units that are open on the
    database are those that were. -/
def Does (may : Sql.Command → Prop) (act : Action α) : Prop :=
  ∀ db, (act.run db).2.nest = db.nest ∧ Outline.Steps may db.engine.outline (act.run db).2.engine.outline

section Doing

variable {act : Action α}

theorem Does.mono {may' : Sql.Command → Prop} (does : Does may act) (weaker : ∀ command, may command → may' command) :
    Does may' act :=
  fun db => ⟨(does db).1, Relation.ReflTransGen.mono (fun _ _ step => step.mono weaker) _ _ (does db).2⟩

theorem does_known (outcome : Except Failure α) : Does may (known outcome) :=
  fun _ => ⟨rfl, .refl⟩

theorem does_pure (a : α) : Does may (pure a) :=
  fun _ => ⟨rfl, .refl⟩

theorem does_note (e : Event) : Does may (note e) :=
  fun _ => ⟨rfl, .refl⟩

theorem Does.bind {next : α → Action β} (first : Does may act) (second : ∀ a, Does may (next a)) :
    Does may (act >>= next) := by
  intro db
  obtain ⟨nest, steps⟩ := first db
  rw [run_bind]
  rcases ran : act.run db with ⟨failure | a, middle⟩
  · rw [ran] at nest steps
    exact ⟨nest, steps⟩
  · rw [ran] at nest steps
    obtain ⟨nest', steps'⟩ := second a middle
    exact ⟨nest'.trans nest, steps.trans steps'⟩

theorem Does.of_known {outcome : Except Failure α} {next : α → Action β}
    (later : ∀ a, outcome = .ok a → Does may (next a)) : Does may (known outcome >>= next) := by
  intro db
  rw [run_bind, run_known]
  cases outcome with
  | error failure => exact ⟨rfl, .refl⟩
  | ok a => exact later a rfl db

theorem does_forM {entries : List β} {each : β → Action PUnit} (all : ∀ entry ∈ entries, Does may (each entry)) :
    Does may (entries.forM each) := by
  induction entries with
  | nil => exact does_pure _
  | cons entry entries ih =>
    exact (all entry List.mem_cons_self).bind fun _ => ih fun later member => all later (List.mem_cons_of_mem _ member)

end Doing

section Statements

variable {command : Sql.Command}

theorem steps_of_concluded {o after : Outline} {outcome : Except Failure α} (plain : isControl command = false)
    (allowed : may command) (concluded : Engine.Concluded o command.statement outcome after) :
    Outline.Steps may o after := by
  cases outcome with
  | error failure => exact .single (.untouched concluded)
  | ok a =>
    obtain ⟨asked, rows, asks, ended⟩ := concluded
    obtain rfl := Engine.eq_of_asked asks
    exact .single (.ran plain allowed ended)

theorem does_fold (take : β → List Value → Except Failure β) (start : β) (plain : isControl command = false)
    (allowed : may command) : Does may (onEngine (Engine.fold command.statement take start)) :=
  fun db => ⟨rfl, steps_of_concluded plain allowed
    (Engine.fold_concluded (Engine.isPlain_statement plain) take start db.engine)⟩

theorem does_query (plain : isControl command = false) (allowed : may command) : Does may (query command.statement) :=
  does_fold _ _ plain allowed

theorem does_scalar (plain : isControl command = false) (allowed : may command) :
    Does may (scalar command.statement) := by
  intro db
  obtain ⟨-, steps⟩ := does_query plain allowed db
  refine ⟨rfl, ?_⟩
  rw [scalar, run_onEngine, Engine.scalar_left]
  exact steps

theorem does_execute (plain : isControl command = false) (allowed : may command) :
    Does may (execute command.statement) :=
  fun db => ⟨rfl, steps_of_concluded plain allowed
    (Engine.execute_concluded (Engine.isPlain_statement plain) db.engine)⟩

end Statements

section Units

structure Idle (db : Database) : Prop where
  closed : db.nest.isOpen = false
  outside : db.engine.outline.explicit = false

theorem base_of_idle {db : Database} (idle : Idle db) : (standing db).base = none := by
  rw [standing, Outline.base, idle.outside]
  rfl

/-- An outermost unit leaves the database idle again. If it succeeds, what its statements did inside the transaction is
    there, and if it fails nothing of it. -/
theorem atomically_contained {act : Action α} (does : Does may act) {db : Database} (sound : Sound enforces db)
    (idle : Idle db) :
    Sound enforces ((atomically act).run db).2 ∧ Idle ((atomically act).run db).2 ∧
      ((∃ failure, ((atomically act).run db).1 = .error failure) ∧
          standing ((atomically act).run db).2 = standing db ∨
        (∃ a, ((atomically act).run db).1 = .ok a) ∧
          ∃ o, Outline.Steps may { db.engine.outline with explicit := true } o ∧
            (standing ((atomically act).run db).2).content = o.content) := by
  have t := host_transactional enforces
  have apart := base_of_idle idle
  have outermost : ¬(host.nest db).isOpen = true := by
    show ¬db.nest.isOpen = true
    rw [idle.closed]
    decide
  obtain ⟨opened, began⟩ : ∃ opened, host.control .begin (host.mapNest .numbered db) = (.ok (), opened) :=
    begin_runs idle.outside
  have begun : opened.engine.outline = { db.engine.outline with explicit := true } := by
    have outline := begin_run began
    exact outline
  obtain ⟨inside, within, -, -⟩ := t.begun_outermost sound apart began
  obtain ⟨-, steps⟩ := does (host.mapNest .opened opened)
  rw [run_atomically, UnitHost.run, if_neg outermost, UnitHost.runOutermost, began]
  rcases ran : act.run (host.mapNest .opened opened) with ⟨body, w⟩
  rw [ran] at steps
  have ready : Sound enforces w := steps.sound inside
  have base : (standing w).base = some (standing db).content := steps.base (congrArg Standing.base within)
  obtain ⟨outcome, left, closed⟩ :=
    t.finish_accounted (host.nest db).next body ⟨[], (host.nest w).doomed⟩ ready base rfl
  simp only [ran]
  have succeeds := congrArg Except.isOk outcome
  rw [Account.isOk_outcome] at succeeds
  refine ⟨t.sound_finish _ _ ready, ⟨closed, outside (congrArg Standing.base left)⟩, ?_⟩
  rcases ended : host.finish (host.nest db).next body w with ⟨failure | a, after⟩
  · rw [ended] at left succeeds
    refine .inl ⟨⟨failure, rfl⟩, left.trans ?_⟩
    rw [← succeeds, ← apart]
    rfl
  · rw [ended] at left succeeds
    refine .inr ⟨⟨a, rfl⟩, w.engine.outline, begun ▸ steps, (congrArg Standing.content left).trans ?_⟩
    rw [← succeeds]
    rfl

end Units

end Database

end RecordMapper
