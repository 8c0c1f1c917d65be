import RecordMapper.Database
import RecordMapper.Proofs.Store.Transaction
import RecordMapper.Proofs.Unit.Transactional

namespace RecordMapper

open RecordMapper.Store

def Failure.OfStatement : Failure → Prop
  | .binding .. | .execution .. => True
  | _ => False

namespace Engine

def outline (engine : Engine) : Outline :=
  engine.store.outline

variable {α β : Type}

theorem run_acting {ε : Type} (sql : String) (toFault : ε → Fault) (act : Store.State → Except ε α × Store.State)
    (engine : Engine) : (acting sql toFault act).run engine =
      ((act engine.store).1.mapError fun e => .execution sql (toFault e),
        { engine with store := (act engine.store).2 }) := rfl

def Concluded (o : Outline) (s : Sql.Statement) (outcome : Except Failure α) (after : Outline) : Prop :=
  match outcome with
  | .error _ => o.Untouched after
  | .ok _ => ∃ command rows, s.asked = .ok command ∧ o.Ended command (.ok rows) after

theorem checkParams_outline (s : Sql.Statement) (engine : Engine) :
    ((checkParams s).run engine).2.outline = engine.outline := by
  unfold checkParams
  split
  · rfl
  · rfl

theorem prepare_outline (s : Sql.Statement) (engine : Engine) :
    ((prepare s).run engine).2.outline = engine.outline ∧
      ∀ command, ((prepare s).run engine).1 = .ok command → s.asked = .ok command := by
  unfold prepare
  rw [run_bind, run_acting]
  rcases asked : s.asked with fault | command
  · exact ⟨rfl, fun command none => nomatch none⟩
  · have ready := engine.store.prepare_outline s.sql command
    simp only [Except.mapError, run_bind, run_acting]
    rcases prepared : engine.store.prepare s.sql command with ⟨_ | _, store⟩
    · rw [prepared] at ready
      exact ⟨ready, fun command none => nomatch none⟩
    · rw [prepared] at ready
      have checked := checkParams_outline s { engine with store }
      simp only []
      rcases counted : (checkParams s).run { engine with store } with ⟨_ | _, after⟩
      · rw [counted] at checked
        exact ⟨checked.trans ready, fun command none => nomatch none⟩
      · rw [counted] at checked
        exact ⟨checked.trans ready, fun _ same => by simpa [run_pure] using same⟩

def Refuses (act : Action α) : Prop :=
  ∀ engine failure, (act.run engine).1 = .error failure → failure.OfStatement

theorem Refuses.bind {act : Action α} {next : α → Action β} (first : Refuses act) (rest : ∀ a, Refuses (next a)) :
    Refuses (act >>= next) := by
  intro engine failure failed
  rw [run_bind] at failed
  rcases ran : act.run engine with ⟨_ | a, after⟩
  · rw [ran] at failed
    simp only [Except.error.injEq] at failed
    exact failed ▸ first engine _ (congrArg Prod.fst ran)
  · rw [ran] at failed
    exact rest a after failure failed

theorem refuses_acting {ε : Type} (sql : String) (toFault : ε → Fault) (act : Store.State → Except ε α × Store.State) :
    Refuses (acting sql toFault act) := by
  intro engine failure failed
  rw [run_acting] at failed
  rcases outcome : (act engine.store).1 with fault | a
  · rw [outcome] at failed
    rw [← Except.error.inj failed]
    exact trivial
  · rw [outcome] at failed
    cases failed

theorem refuses_pure (a : α) : Refuses (pure a) :=
  fun _ _ failed => nomatch failed

theorem refuses_checkParams (s : Sql.Statement) : Refuses (checkParams s) := by
  unfold checkParams
  split
  · exact refuses_pure ()
  · intro engine failure failed
    rw [← Except.error.inj failed]
    exact trivial

theorem refuses_prepare (s : Sql.Statement) : Refuses (prepare s) :=
  (refuses_acting _ _ _).bind fun _ => (refuses_acting _ _ _).bind fun _ =>
    (refuses_checkParams s).bind fun _ => refuses_pure _

def StaysInside (s : Sql.Statement) : Prop :=
  ∀ command, s.asked = .ok command → demarcates command = false

def IsPlain (s : Sql.Statement) : Prop :=
  ∀ command, s.asked = .ok command → isControl command = false

theorem IsPlain.inside {s : Sql.Statement} (plain : IsPlain s) : StaysInside s := by
  intro command asked
  refine Bool.eq_false_iff.2 fun asks => ?_
  exact absurd ((plain command asked).symm.trans (isControl_of_demarcates asks)) (by decide)

/-- How a statement that fails leaves the connection: as it was, or without the transaction that it has ended. -/
def Spares (o : Outline) (s : Sql.Statement) (after : Outline) : Prop :=
  o.Untouched after ∨ ¬IsPlain s ∧ o.Lapsed after

def Leaves (o : Outline) (s : Sql.Statement) (outcome : Except Failure α) (after : Outline) : Prop :=
  Concluded o s outcome after ∨ outcome.isOk = false ∧ ¬IsPlain s ∧ o.Lapsed after

theorem Spares.leaves {o after : Outline} {s : Sql.Statement} (spares : Spares o s after) (failure : Failure) :
    Leaves o s (.error failure : Except Failure α) after :=
  spares.imp id fun lapsed => ⟨rfl, lapsed⟩

theorem Leaves.concluded {o after : Outline} {s : Sql.Statement} {outcome : Except Failure α}
    (leaves : Leaves o s outcome after) (plain : IsPlain s) : Concluded o s outcome after :=
  leaves.resolve_right fun lapsed => lapsed.2.1 plain

theorem run_outline {s : Sql.Statement} {command : Sql.Command} (inside : StaysInside s)
    (asked : s.asked = .ok command) (engine : Engine) :
    (∃ failure, ((run s.sql command).run engine).1 = .error failure ∧
      Spares engine.outline s ((run s.sql command).run engine).2.outline) ∨
    ∃ rows, ((run s.sql command).run engine).1 = .ok rows ∧
      engine.outline.Ended command (.ok rows) ((run s.sql command).run engine).2.outline := by
  unfold run
  rw [run_acting]
  rcases engine.store.run_cases s.sql (inside command asked) with ended | ⟨⟨fault, failed⟩, control, lapsed⟩
  · rcases outcome : (engine.store.run s.sql command).1 with fault | rows
    · rw [outcome] at ended
      cases ended with
      | refused touched => exact .inl ⟨_, rfl, .inl touched⟩
    · rw [outcome] at ended
      exact .inr ⟨rows, rfl, ended⟩
  · rw [failed]
    exact .inl ⟨_, rfl, .inr ⟨fun plain => absurd (control.symm.trans (plain command asked)) (by decide), lapsed⟩⟩

theorem eq_of_asked {command asked : Sql.Command} (asks : command.statement.asked = .ok asked) : command = asked := by
  simp only [Sql.Command.statement] at asks
  split at asks
  · cases asks
  · exact Except.ok.inj asks

theorem isPlain_statement {command : Sql.Command} (plain : isControl command = false) : IsPlain command.statement :=
  fun _ asks => eq_of_asked asks ▸ plain

theorem statement_cases {s : Sql.Statement} (inside : StaysInside s) (next : Rows → Action α) (engine : Engine) :
    (∃ failure after, (prepare s >>= fun command => run s.sql command >>= next).run engine = (.error failure, after) ∧
      Spares engine.outline s after.outline) ∨
    ∃ command rows after, s.asked = .ok command ∧ engine.outline.Ended command (.ok rows) after.outline ∧
      (prepare s >>= fun command => run s.sql command >>= next).run engine = (next rows).run after := by
  obtain ⟨same, asks⟩ := prepare_outline s engine
  rcases prepared : (prepare s).run engine with ⟨failure | command, ready⟩
  · rw [prepared] at same
    exact .inl ⟨failure, ready, by simp [run_bind, prepared], .inl (.inl same)⟩
  · rw [prepared] at same asks
    have asked := asks command rfl
    have ran := run_outline inside asked ready
    rw [show ready.outline = engine.outline from same] at ran
    rcases result : (run s.sql command).run ready with ⟨outcome, after⟩
    simp only [result] at ran
    rcases ran with ⟨failure, rfl, spares⟩ | ⟨rows, rfl, ended⟩
    · exact .inl ⟨failure, after, by simp [run_bind, prepared, result], spares⟩
    · exact .inr ⟨command, rows, after, asked, ended, by simp [run_bind, prepared, result]⟩

theorem Concluded.map {o after : Outline} {s : Sql.Statement} {outcome : Except Failure α} (f : α → β)
    (concluded : Concluded o s outcome after) : Concluded o s (outcome.map f) after := by
  cases outcome <;> exact concluded

theorem Leaves.map {o after : Outline} {s : Sql.Statement} {outcome : Except Failure α} (f : α → β)
    (leaves : Leaves o s outcome after) : Leaves o s (outcome.map f) after := by
  refine leaves.imp (·.map f) fun ⟨failed, lapsed⟩ => ⟨?_, lapsed⟩
  cases outcome <;> exact failed

theorem fold_leaves {s : Sql.Statement} (inside : StaysInside s) (take : β → List Value → Except Failure β) (start : β)
    (engine : Engine) :
    Leaves engine.outline s ((fold s take start).run engine).1 ((fold s take start).run engine).2.outline := by
  unfold fold
  rcases statement_cases inside _ engine with ⟨failure, after, failed, spares⟩ | ⟨command, rows, after, asked, ended, goes⟩
  · rw [failed]
    exact spares.leaves failure
  · rw [goes]
    rcases taken : rows.foldlM (takeRow take) start with failure | last
    · have some : rows ≠ [] := by
        rintro rfl
        cases taken
      exact .inl (ended.untouched some)
    · exact .inl ⟨command, rows, asked, ended⟩

theorem fold_concluded {s : Sql.Statement} (plain : IsPlain s) (take : β → List Value → Except Failure β) (start : β)
    (engine : Engine) :
    Concluded engine.outline s ((fold s take start).run engine).1 ((fold s take start).run engine).2.outline :=
  (fold_leaves plain.inside take start engine).concluded plain

theorem execute_leaves {s : Sql.Statement} (inside : StaysInside s) (engine : Engine) :
    Leaves engine.outline s ((execute s).run engine).1 ((execute s).run engine).2.outline := by
  unfold execute
  rcases statement_cases inside _ engine with ⟨failure, after, failed, spares⟩ | ⟨command, rows, after, asked, ended, goes⟩
  · rw [failed]
    exact spares.leaves failure
  · rw [goes]
    cases rows with
    | nil => exact .inl ⟨command, [], asked, ended⟩
    | cons row rows => exact .inl (ended.untouched (List.cons_ne_nil _ _))

theorem execute_concluded {s : Sql.Statement} (plain : IsPlain s) (engine : Engine) :
    Concluded engine.outline s ((execute s).run engine).1 ((execute s).run engine).2.outline :=
  (execute_leaves plain.inside engine).concluded plain

/-- A change that is executed is one that the content can run. It has its effect, and gives the number of rows that
    the effect counts. -/
theorem execute_eq_ok {command : Sql.Command} (plain : isControl command = false) {engine : Engine}
    (writing : writes engine.store.content command = true) {n : Nat}
    (done : ((execute command.statement).run engine).1 = .ok n) :
    ∃ effect, checkCommand engine.store.content engine.store.connection.enforces command = .ok () ∧
      effectOf engine.store.content engine.store.connection.enforces command = .ok effect ∧
      ((execute command.statement).run engine).2.store.content = effect.content ∧
      ∀ m, effect.counted = some m → n = m := by
  obtain ⟨same, asks⟩ := prepare_outline command.statement engine
  rcases prepared : (prepare command.statement).run engine with ⟨failure | asked, ready⟩
  · simp [execute, run_bind, prepared] at done
  · rw [prepared] at same asks
    obtain rfl := eq_of_asked (asks asked rfl)
    have content : ready.store.content = engine.store.content := by
      rw [State.content_eq, State.content_eq]
      exact congrArg Outline.content same
    have enforces : ready.store.connection.enforces = engine.store.connection.enforces :=
      congrArg Outline.enforces same
    have ended := ready.store.run_ended command.statement.sql command plain
    simp only [execute, run_bind, prepared, run, run_acting] at done ⊢
    rcases ran : ready.store.run command.statement.sql command with ⟨fault | rows, store⟩
    · rw [ran] at done
      cases done
    · rw [← content] at writing
      obtain ⟨effect, effected, changes⟩ := ready.store.run_changes plain writing (congrArg Prod.fst ran)
      rw [ran] at ended changes
      have checked : checkCommand engine.store.content engine.store.connection.enforces command = .ok () ∧
          rows = [] ∧ store.content = effect.content := by
        rw [← content, ← enforces, State.content_eq, State.content_eq]
        rw [State.content_eq] at writing effected
        rcases ended.content_cases with ⟨reading, -⟩ | ⟨-, checked, none, other, done, seen⟩
        · exact absurd (writing.symm.trans reading) (by decide)
        · obtain rfl := Except.ok.inj (effected.symm.trans done)
          exact ⟨checked, none, seen⟩
      obtain ⟨checked, rfl, seen⟩ := checked
      rw [content, enforces] at effected
      rw [ran] at done
      refine ⟨effect, checked, effected, seen, fun m counted => ?_⟩
      exact (Except.ok.inj done).symm.trans (changes m counted)

end Engine

inductive Instruction where
  | query (s : Sql.Statement) (plain : Engine.IsPlain s)
  | execute (s : Sql.Statement) (plain : Engine.IsPlain s)

namespace Instruction

def statement : Instruction → Sql.Statement
  | .query s _ | .execute s _ => s

def effect (enforces : Bool) (r : Instruction) (c : Content) : Content :=
  match r.statement.asked with
  | .ok command => c.after enforces command
  | .error _ => c

def perform (r : Instruction) (db : Database) : Except Failure (List (List Value) ⊕ Nat) × Database :=
  match r with
  | .query s _ =>
    let (outcome, db) := (Database.query s).run db
    (outcome.map .inl, db)
  | .execute s _ =>
    let (outcome, db) := (Database.execute s).run db
    (outcome.map .inr, db)

end Instruction

namespace Database

def Sound (enforces : Bool) (db : Database) : Prop :=
  db.engine.outline.Sound enforces

def standing (db : Database) : Standing Content :=
  ⟨db.engine.outline.content, db.engine.outline.base⟩

theorem perform_concluded (r : Instruction) (db : Database) :
    Engine.Concluded db.engine.outline r.statement (r.perform db).1 (r.perform db).2.engine.outline := by
  cases r with
  | query s plain => exact (Engine.fold_concluded plain _ [] db.engine).map _
  | execute s plain => exact (Engine.execute_concluded plain db.engine).map _

theorem control_outline (c : Control) (db : Database) :
    (host.control c db).1.isOk = (db.engine.store.run c.command.text c.command).1.isOk ∧
      (host.control c db).2.engine.outline = (db.engine.store.run c.command.text c.command).2.outline := by
  have goes : ((Engine.control c).run db.engine).1.isOk = (db.engine.store.run c.command.text c.command).1.isOk ∧
      ((Engine.control c).run db.engine).2.outline = (db.engine.store.run c.command.text c.command).2.outline := by
    rw [Engine.control, run_bind, Engine.run, Engine.run_acting]
    rcases db.engine.store.run c.command.text c.command with ⟨_ | _, store⟩
    · exact ⟨rfl, rfl⟩
    · exact ⟨rfl, rfl⟩
  exact goes

variable {db : Database} {c : Content} {enforces : Bool}

theorem outside (apart : (standing db).base = none) : db.engine.outline.explicit = false := by
  by_cases explicit : db.engine.outline.explicit = true
  · simp [standing, Outline.base, explicit] at apart
  · simpa using explicit

theorem inside (within : (standing db).base = some c) :
    db.engine.outline.explicit = true ∧ db.engine.outline.kept = c := by
  by_cases explicit : db.engine.outline.explicit = true
  · exact ⟨explicit, by simpa [standing, Outline.base, explicit] using within⟩
  · simp [standing, Outline.base, explicit] at within

theorem sound_control (c : Control) (sound : Sound enforces db) : Sound enforces (host.control c db).2 := by
  have same := (control_outline c db).2
  unfold Sound at sound ⊢
  rw [same]
  cases c with
  | begin =>
    rcases db.engine.store.begin_cases with ⟨-, after, -⟩ | ⟨-, after, -⟩
    · exact (congrArg State.outline after) ▸ sound
    · exact after ▸ sound.opened
  | commit =>
    rcases db.engine.store.commit_cases with ⟨-, after⟩ | ⟨-, after⟩
    · exact (congrArg State.outline after) ▸ sound
    · exact after ▸ sound.closed (sound.published ▸ sound.content)
  | rollback =>
    rcases db.engine.store.rollback_cases with ⟨-, after, -⟩ | ⟨-, after⟩
    · exact (congrArg State.outline after) ▸ sound
    · exact after ▸ sound.closed sound.kept

theorem sound_of_concluded {α : Type} {s : Sql.Statement} {outcome : Except Failure α} {after : Database}
    (sound : Sound enforces db) (concluded : Engine.Concluded db.engine.outline s outcome after.engine.outline) :
    Sound enforces after := by
  cases outcome with
  | error failure => exact Outline.Untouched.sound concluded sound
  | ok a =>
    obtain ⟨command, rows, -, ended⟩ := concluded
    exact ended.sound sound

/-- What fails changes nothing. What succeeds has the effect of its command, and leaves what a rollback returns to. -/
theorem standing_of_concluded {α : Type} {s : Sql.Statement} {outcome : Except Failure α} {after : Database}
    (sound : Sound enforces db) (concluded : Engine.Concluded db.engine.outline s outcome after.engine.outline) :
    (outcome.isOk = false ∧ standing after = standing db) ∨
      (outcome.isOk = true ∧ ∃ command, s.asked = .ok command ∧
        standing after = ⟨(standing db).content.after enforces command, (standing db).base⟩) := by
  cases outcome with
  | error failure =>
    have touched : db.engine.outline.Untouched after.engine.outline := concluded
    exact .inl ⟨rfl, by rw [standing, touched.content, touched.base]; rfl⟩
  | ok a =>
    obtain ⟨command, rows, asked, ended⟩ := concluded
    obtain ⟨content, base⟩ := ended.stands
    refine .inr ⟨rfl, command, asked, ?_⟩
    rw [standing, content, base, sound.enforces]
    rfl

theorem standing_closed {after : Database} {kept : Content}
    (closed : after.engine.outline = db.engine.outline.closed kept) : standing after = ⟨kept, none⟩ := by
  rw [standing, closed]
  rfl

theorem begin_standing (sound : Sound enforces db) (apart : (standing db).base = none) :
    (host.control .begin db).1.isOk = true ∧
      standing (host.control .begin db).2 = ⟨(standing db).content, some (standing db).content⟩ := by
  obtain ⟨same, left⟩ := control_outline .begin db
  have explicit := outside apart
  rcases db.engine.store.begin_cases with ⟨-, -, within⟩ | ⟨succeeds, after, -⟩
  · exact absurd (within.symm.trans explicit) (by decide)
  · have kept : db.engine.outline.content = db.engine.outline.kept := by
      rw [Outline.content, sound.outside explicit]
      rfl
    refine ⟨same.trans (congrArg Except.isOk succeeds), ?_⟩
    rw [standing, left.trans after]
    exact congrArg (fun base => Standing.mk db.engine.outline.content (some base)) kept.symm

theorem commit_standing (sound : Sound enforces db) :
    (¬(host.control .commit db).1.isOk ∧ standing (host.control .commit db).2 = standing db) ∨
      ((host.control .commit db).1.isOk ∧ standing (host.control .commit db).2 = ⟨(standing db).content, none⟩) := by
  obtain ⟨same, left⟩ := control_outline .commit db
  rcases db.engine.store.commit_cases with ⟨⟨fault, failed⟩, after⟩ | ⟨succeeds, after⟩
  · refine .inl ⟨?_, ?_⟩
    · rw [same]
      exact Bool.eq_false_iff.1 (congrArg Except.isOk failed)
    · rw [standing, left.trans (congrArg State.outline after)]
      rfl
  · refine .inr ⟨same.trans (congrArg Except.isOk succeeds), ?_⟩
    rw [standing_closed (left.trans after)]
    exact congrArg (fun content => Standing.mk content none) sound.published

theorem rollback_standing (within : (standing db).base = some c) :
    (host.control .rollback db).1.isOk = true ∧ standing (host.control .rollback db).2 = ⟨c, none⟩ := by
  obtain ⟨same, left⟩ := control_outline .rollback db
  obtain ⟨explicit, rfl⟩ := inside within
  rcases db.engine.store.rollback_cases with ⟨-, -, apart⟩ | ⟨succeeds, after⟩
  · exact absurd (apart.symm.trans explicit) (by decide)
  · exact ⟨same.trans (congrArg Except.isOk succeeds), standing_closed (left.trans after)⟩

theorem perform_standing (r : Instruction) (sound : Sound enforces db) :
    standing (r.perform db).2 =
      if (r.perform db).1.isOk then ⟨r.effect enforces (standing db).content, (standing db).base⟩ else standing db := by
  rcases standing_of_concluded sound (perform_concluded r db) with ⟨failed, same⟩ | ⟨succeeds, command, asked, stands⟩
  · rw [failed, same]
    rfl
  · rw [succeeds, stands]
    simp [Instruction.effect, asked]

/-- A database handle keeps transactions. -/
theorem host_transactional (enforces : Bool) :
    Transactional host Instruction.perform (Sound enforces) standing (Instruction.effect enforces) where
  nest_setNest _ _ := rfl
  nest_record _ _ := rfl
  nest_control _ _ := rfl
  nest_exec r _ := by cases r <;> rfl
  standing_setNest _ _ := rfl
  standing_record _ _ := rfl
  sound_setNest _ sound := sound
  sound_record _ sound := sound
  sound_control c sound := sound_control c sound
  sound_exec r sound := sound_of_concluded sound (perform_concluded r _)
  autocommit {db} _ := by
    show (!db.engine.outline.explicit) = _
    unfold standing Outline.base
    cases db.engine.outline.explicit <;> rfl
  begin_ok sound apart _ := (begin_standing sound apart).2
  begin_failed sound apart failed := absurd (begin_standing sound apart).1 failed
  exec_ok sound within succeeds := by rw [perform_standing _ sound, if_pos succeeds, within]
  exec_failed sound _ failed := by rw [perform_standing _ sound, if_neg failed]
  commit_ok sound _ succeeds := by
    rcases commit_standing sound with ⟨failed, -⟩ | ⟨-, same⟩
    · exact absurd succeeds failed
    · exact same
  commit_failed sound _ failed := by
    rcases commit_standing sound with ⟨-, same⟩ | ⟨succeeds, -⟩
    · exact .inl same
    · exact absurd succeeds failed
  rollback_ok _ within := rollback_standing within

end Database

end RecordMapper
