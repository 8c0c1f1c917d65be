import RecordMapper.Proofs.Query.Running

namespace RecordMapper

open RecordMapper.Store

theorem Engine.scalar_left (s : Sql.Statement) (engine : Engine) :
    ((Engine.scalar s).run engine).2 = ((Engine.query s).run engine).2 := by
  unfold Engine.scalar
  rw [run_bind]
  rcases (Engine.query s).run engine with ⟨_ | rows, left⟩
  · rfl
  · simp only []
    split <;> rfl

namespace Database

variable {α β : Type} {enforces : Bool}

section Ensuring

structure Stays (enforces : Bool) (db after : Database) : Prop where
  sound : Sound enforces after
  nest : after.nest = db.nest

/-- What an action that succeeds on a sound database says of the content before, its result, and the content after. -/
def Ensures (enforces : Bool) (act : Action α) (post : Content → α → Content → Prop) : Prop :=
  ∀ db a after, Sound enforces db → act.run db = (.ok a, after) →
    Stays enforces db after ∧ post db.engine.store.content a after.engine.store.content

variable {act : Action α} {post post' : Content → α → Content → Prop}

theorem Ensures.mono (ensures : Ensures enforces act post) (weaker : ∀ c a c', post c a c' → post' c a c') :
    Ensures enforces act post' := by
  intro db a after sound done
  obtain ⟨kept, holds⟩ := ensures db a after sound done
  exact ⟨kept, weaker _ _ _ holds⟩

theorem Ensures.and (one : Ensures enforces act post) (two : Ensures enforces act post') :
    Ensures enforces act fun c a c' => post c a c' ∧ post' c a c' := by
  intro db a after sound done
  obtain ⟨kept, first⟩ := one db a after sound done
  exact ⟨kept, first, (two db a after sound done).2⟩

theorem Ensures.distinct (ensures : Ensures enforces act post) :
    Ensures enforces act fun c a c' => c.Distinct ∧ post c a c' := by
  intro db a after sound done
  obtain ⟨kept, holds⟩ := ensures db a after sound done
  exact ⟨kept, db.engine.store.content_eq ▸ sound.content, holds⟩

theorem Ensures.bind {next : α → Action β} {later : α → Content → β → Content → Prop}
    (first : Ensures enforces act post) (second : ∀ a, Ensures enforces (next a) (later a)) :
    Ensures enforces (act >>= next) fun c b c'' => ∃ a c', post c a c' ∧ later a c' b c'' := by
  intro db b after sound done
  rw [run_bind] at done
  rcases ran : act.run db with ⟨failure | a, middle⟩
  · rw [ran] at done
    cases done
  · rw [ran] at done
    obtain ⟨between, one⟩ := first db a middle sound ran
    obtain ⟨kept, two⟩ := second a middle b after between.sound done
    exact ⟨⟨kept.sound, kept.nest.trans between.nest⟩, a, _, one, two⟩

theorem ensures_known (outcome : Except Failure α) :
    Ensures enforces (known outcome) fun c a c' => outcome = .ok a ∧ c' = c := by
  intro db a after sound done
  obtain ⟨same, rfl⟩ := Prod.mk.inj done
  exact ⟨⟨sound, rfl⟩, same, rfl⟩

theorem ensures_pure (a : α) : Ensures enforces (pure a) fun c b c' => b = a ∧ c' = c := by
  intro db b after sound done
  obtain ⟨same, rfl⟩ := Prod.mk.inj done
  exact ⟨⟨sound, rfl⟩, (Except.ok.inj same).symm, rfl⟩

theorem ensures_note (e : Event) : Ensures enforces (note e) fun c _ c' => c' = c := by
  intro db b after sound done
  obtain ⟨-, rfl⟩ := Prod.mk.inj done
  exact ⟨⟨sound, rfl⟩, rfl⟩

end Ensuring

section Statements

variable {command : Sql.Command}

theorem ensures_fold {β : Type} (take : β → List Value → Except Failure β) (start : β)
    (plain : isControl command = false) (reads : ∀ c, writes c command = false) :
    Ensures enforces (onEngine (Engine.fold command.statement take start)) fun c b c' =>
      (rowsOf c command).foldlM (Engine.takeRow take) start = .ok b ∧ c' = c := by
  intro db b after sound done
  rw [run_onEngine, Prod.mk.injEq] at done
  obtain ⟨outcome, rfl⟩ := done
  have concluded := Engine.fold_concluded (Engine.isPlain_statement plain) take start db.engine
  rw [outcome] at concluded
  obtain ⟨asked, rows, asks, ended⟩ := concluded
  obtain rfl := Engine.eq_of_asked asks
  refine ⟨⟨ended.sound sound, rfl⟩, Engine.fold_eq_ok plain reads outcome, ?_⟩
  rw [State.content_eq, State.content_eq]
  exact (ended.touches_nothing reads).content

theorem ensures_scalar {m : Content → Nat} (plain : isControl command = false)
    (reads : ∀ c, writes c command = false) (one : ∀ c, rowsOf c command = given [countRow (m c)]) :
    Ensures enforces (scalar command.statement) fun c n c' => n = Int64.ofNat (m c) ∧ c' = c := by
  intro db n after sound done
  rw [scalar, run_onEngine, Prod.mk.injEq] at done
  obtain ⟨outcome, rfl⟩ := done
  have value := Engine.scalar_eq_ok plain reads (one _) outcome
  have concluded := Engine.fold_concluded (Engine.isPlain_statement plain)
    (fun rows row => .ok (rows ++ [row])) [] db.engine
  have touched : db.engine.outline.Untouched ((Engine.query command.statement).run db.engine).2.outline := by
    rcases ran : ((Engine.query command.statement).run db.engine).1 with failure | rows
    · rw [← Engine.query, ran] at concluded
      exact concluded
    · rw [← Engine.query, ran] at concluded
      obtain ⟨asked, rows, asks, ended⟩ := concluded
      obtain rfl := Engine.eq_of_asked asks
      exact ended.touches_nothing reads
  rw [← Engine.scalar_left] at touched
  refine ⟨⟨touched.sound sound, rfl⟩, value, ?_⟩
  rw [State.content_eq, State.content_eq]
  exact touched.content

theorem ensures_execute (plain : isControl command = false) :
    Ensures enforces (execute command.statement) fun c _ c' => (writes c command = false ∧ c' = c) ∨
      checkCommand c enforces command = .ok () ∧ ∃ effect, effectOf c enforces command = .ok effect ∧
        c' = effect.content := by
  intro db n after sound done
  rw [execute, run_onEngine, Prod.mk.injEq] at done
  obtain ⟨outcome, rfl⟩ := done
  have concluded := Engine.execute_concluded (Engine.isPlain_statement plain) db.engine
  rw [outcome] at concluded
  obtain ⟨asked, rows, asks, ended⟩ := concluded
  obtain rfl := Engine.eq_of_asked asks
  refine ⟨⟨ended.sound sound, rfl⟩, ?_⟩
  rw [State.content_eq, State.content_eq, ← sound.enforces]
  rcases ended.content_cases with unchanged | ⟨-, checked, -, effect, done, content⟩
  · exact .inl unchanged
  · exact .inr ⟨checked, effect, done, content⟩

end Statements

section Reading

variable {db middle after : Database}

def Undefining (log after : Log) : Prop :=
  ∃ events : List Event, after = events.foldl Log.record log ∧ ∀ e ∈ events, e.category ≠ .ddl

theorem Undefining.trans {log later after : Log} (first : Undefining log later) (second : Undefining later after) :
    Undefining log after := by
  obtain ⟨events, rfl, plain⟩ := first
  obtain ⟨more, rfl, plain'⟩ := second
  refine ⟨events ++ more, List.foldl_append.symm, fun e member => ?_⟩
  exact (List.mem_append.1 member).elim (plain e) (plain' e)

theorem undefining_record {e : Event} (plain : e.category ≠ .ddl) (log : Log) : Undefining log (log.record e) :=
  ⟨[e], rfl, fun _ member => List.mem_singleton.1 member ▸ plain⟩

/-- Nothing has happened but reads, none of which is logged as a definition of the schema. -/
structure Reads (db after : Database) : Prop where
  nest : after.nest = db.nest
  outline : db.engine.outline.Untouched after.engine.outline
  log : Undefining db.engine.log after.engine.log

theorem Reads.refl (db : Database) : Reads db db :=
  ⟨rfl, .inl rfl, [], rfl, by simp⟩

theorem Reads.trans (first : Reads db middle) (second : Reads middle after) : Reads db after :=
  ⟨second.nest.trans first.nest, first.outline.trans second.outline, first.log.trans second.log⟩

theorem Reads.content (reads : Reads db after) : after.engine.store.content = db.engine.store.content := by
  rw [State.content_eq, State.content_eq]
  exact reads.outline.content

theorem query_reads (db : Database) {c : Sql.Command} {rows : List (List Value)} (plain : isControl c = false)
    (reads : ∀ content, writes content c = false) (query : c.kind = .query)
    (asked : c.statement.asked = .ok c)
    (counted : c.statement.placeholders = c.statement.params.length)
    (checked : ∀ content, checkCommand content db.engine.store.connection.enforces c = .ok ())
    (examined : ∀ content, examine content c = .ok ())
    (read : rowsOf db.engine.store.content c = given rows) :
    ∃ after, (Engine.query c.statement).run db.engine = (.ok rows, after) ∧ Reads db { db with engine := after } := by
  obtain ⟨store, prepared⟩ := db.engine.store.prepare_anywhere checked c.statement.sql
  have folded : (rowsOf db.engine.store.content c).foldlM
      (Engine.takeRow fun rows row => .ok (rows ++ [row])) [] = .ok rows := by
    rw [read, Engine.foldlM_collected, List.nil_append]
  obtain ⟨after, ran, touched, level, note, log⟩ :=
    Engine.fold_ready plain reads asked counted (checked _) (examined _) prepared folded
  refine ⟨after, ran, rfl, touched, ?_⟩
  show Undefining db.engine.log after.log
  rw [log]
  refine undefining_record ?_ _
  show Category.ofKind c.kind ≠ .ddl
  rw [query]
  decide

end Reading

section Units

variable {db : Database}

theorem run_atomically (act : Action α) (db : Database) :
    (atomically act).run db = host.run act.run db := rfl

theorem control_run {c : Control} {db after : Database} {u : Unit} (ran : host.control c db = (.ok u, after)) :
    after.nest = db.nest ∧ after.engine.outline = (db.engine.store.run c.command.text c.command).2.outline ∧
      after.engine.log = db.engine.log.record (.plain .debug .transaction c.command.text) := by
  have goes : ∀ result : Except Failure Unit × Database, (onEngine (Engine.control c)).run db = result →
      result.1.isOk = true → result.2.nest = db.nest ∧
        result.2.engine.log = db.engine.log.record (.plain .debug .transaction c.command.text) := by
    rw [run_onEngine, Engine.control, run_bind, Engine.run, Engine.run_acting]
    rcases (db.engine.store.run c.command.text c.command).1 with fault | rows
    · rintro result rfl succeeded
      cases succeeded
    · rintro result rfl -
      exact ⟨rfl, rfl⟩
  have outline := (control_outline c db).2
  rw [ran] at outline
  exact ⟨(goes _ ran rfl).1, outline, (goes _ ran rfl).2⟩

theorem begin_run {after : Database} {u : Unit} (ran : host.control .begin db = (.ok u, after)) :
    after.engine.outline = { db.engine.outline with explicit := true } := by
  have same := (control_run ran).2.1
  have succeeded := (control_outline .begin db).1
  rw [ran] at succeeded
  rcases db.engine.store.begin_cases with ⟨⟨fault, failed⟩, -⟩ | ⟨-, opened, -⟩
  · exact absurd (succeeded.trans (congrArg Except.isOk failed)) (by simp [Except.isOk, Except.toBool])
  · exact same.trans opened

theorem commit_run {after : Database} {u : Unit} (ran : host.control .commit db = (.ok u, after)) :
    after.engine.outline = db.engine.outline.closed db.engine.outline.published ∧
      db.engine.store.breaksLate db.engine.store.content = false := by
  have same := (control_run ran).2.1
  have succeeded := (control_outline .commit db).1
  rw [ran] at succeeded
  refine ⟨?_, ?_⟩
  · rcases db.engine.store.commit_cases with ⟨⟨fault, failed⟩, -⟩ | ⟨-, closed⟩
    · exact absurd (succeeded.trans (congrArg Except.isOk failed)) (by simp [Except.isOk, Except.toBool])
    · exact same.trans closed
  · have committed : db.engine.store.commit.1.isOk = true := succeeded.symm
    unfold State.commit at committed
    split at committed
    · cases committed
    · split at committed
      · cases committed
      · rename_i met
        simpa using met

def Ready (db : Database) : Prop :=
  db.nest.isOpen = true ∨ db.nest.isOpen = false ∧ db.engine.outline.explicit = false ∧
    db.engine.store.breaksLate db.engine.store.content = false

/-- After a unit that succeeds, the body's effect stands. A unit inside another leaves that open; an outermost one
    leaves no transaction open and no reference broken. -/
theorem atomically_eq_ok {act : Action α} {post : Content → α → Content → Prop} (ensures : Ensures enforces act post)
    {a : α} {after : Database} (sound : Sound enforces db) (done : (atomically act).run db = (.ok a, after)) :
    Sound enforces after ∧ post db.engine.store.content a after.engine.store.content ∧
      (after.nest.isOpen = true ∨
        after.nest.isOpen = false ∧ after.engine.outline.explicit = false ∧
          after.engine.store.breaksLate after.engine.store.content = false) := by
  rw [run_atomically, UnitHost.run] at done
  split at done
  · rename_i isOpen
    rw [UnitHost.runNested] at done
    rcases ran : act.run (host.mapNest .entered db) with ⟨failure | b, w⟩
    · rw [ran] at done
      cases done
    · rw [ran] at done
      cases done
      obtain ⟨stays, holds⟩ := ensures (host.mapNest .entered db) a w sound ran
      refine ⟨stays.sound, holds, .inl ?_⟩
      show w.nest.left.isOpen = true
      rw [stays.nest]
      exact isOpen
  · rename_i isClosed
    rw [UnitHost.runOutermost] at done
    rcases began : host.control .begin (host.mapNest .numbered db) with ⟨failure | _, opened⟩
    · rw [began] at done
      cases done
    · rw [began] at done
      have ready : Sound enforces (host.mapNest .opened opened) := by
        have numbered : Sound enforces (host.mapNest .numbered db) := sound
        have kept := sound_control .begin numbered
        rw [began] at kept
        exact kept
      have content : opened.engine.store.content = db.engine.store.content := by
        rw [State.content_eq, State.content_eq]
        have begun := congrArg Outline.content (begin_run began)
        exact begun
      rcases ran : act.run (host.mapNest .opened opened) with ⟨failure | b, w⟩
      · simp only [ran, UnitHost.finish] at done
        cases done
      · obtain ⟨stays, holds⟩ := ensures (host.mapNest .opened opened) b w ready ran
        simp only [ran, UnitHost.finish] at done
        split at done
        · cases done
        · rcases committed : host.control .commit (host.mapNest .closed w) with ⟨failure | _, z⟩
          · rw [committed] at done
            cases done
          · rw [committed] at done
            cases done
            obtain ⟨closed, met⟩ := commit_run committed
            have same : after.engine.store.content = w.engine.store.content := by
              rw [State.content_eq, State.content_eq]
              exact (congrArg Outline.content closed).trans stays.sound.published
            have closes : Sound enforces after := by
              have left : Sound enforces (host.mapNest .closed w) := stays.sound
              have kept := sound_control .commit left
              rw [committed] at kept
              exact kept
            refine ⟨closes, ?_, .inr ⟨?_, congrArg Outline.explicit closed, ?_⟩⟩
            · rw [same, ← content]
              exact holds
            · exact congrArg Nest.isOpen (control_run committed).1
            · have enforced : after.engine.store.connection.enforces = w.engine.store.connection.enforces :=
                congrArg Outline.enforces closed
              rw [same, State.breaksLate, enforced]
              exact met

theorem begin_runs (apart : db.engine.outline.explicit = false) :
    ∃ after, host.control .begin db = (.ok (), after) := by
  have succeeds : (host.control .begin db).1.isOk = true := by
    rw [(control_outline .begin db).1]
    rcases db.engine.store.begin_cases with ⟨-, -, within⟩ | ⟨begun, -⟩
    · exact absurd (within.symm.trans apart) (by decide)
    · exact congrArg Except.isOk begun
  rcases ran : host.control .begin db with ⟨failure | ⟨⟩, after⟩
  · rw [ran] at succeeds
    cases succeeds
  · exact ⟨after, rfl⟩

theorem commit_runs (within : db.engine.outline.explicit = true)
    (met : db.engine.store.breaksLate db.engine.store.content = false) :
    ∃ after, host.control .commit db = (.ok (), after) := by
  have succeeds : (host.control .commit db).1.isOk = true := by
    rw [(control_outline .commit db).1]
    show db.engine.store.commit.1.isOk = true
    have explicit : db.engine.store.connection.explicit = true := within
    simp only [State.commit, State.isAutocommit, explicit, met]
    rfl
  rcases ran : host.control .commit db with ⟨failure | ⟨⟩, after⟩
  · rw [ran] at succeeds
    cases succeeds
  · exact ⟨after, rfl⟩

theorem atomically_reads {act : Action α} {a : α} (sound : Sound enforces db) (ready : Ready db)
    (reads : ∀ before : Database, before.engine.store.content = db.engine.store.content →
      ∃ after, act.run before = (.ok a, after) ∧ Reads before after) :
    ∃ after, (atomically act).run db = (.ok a, after) ∧ after.nest.isOpen = db.nest.isOpen ∧
      after.engine.outline.kept = db.engine.outline.kept ∧
      after.engine.store.content = db.engine.store.content ∧
      Undefining db.engine.log after.engine.log := by
  rw [run_atomically, UnitHost.run]
  rcases ready with isOpen | ⟨isClosed, apart, met⟩
  · obtain ⟨w, ran, read⟩ := reads (host.mapNest .entered db) rfl
    have within : (host.nest db).isOpen = true := isOpen
    refine ⟨host.mapNest .left w, ?_, ?_, read.outline.kept, read.content, read.log⟩
    · rw [if_pos within, UnitHost.runNested, ran]
    · show w.nest.left.isOpen = _
      rw [read.nest]
      rfl
  · have outermost : ¬(host.nest db).isOpen = true := by
      show ¬db.nest.isOpen = true
      rw [isClosed]
      decide
    obtain ⟨opened, began⟩ := begin_runs (show (host.mapNest .numbered db).engine.outline.explicit = false from apart)
    obtain ⟨-, -, begun⟩ := control_run began
    have outline : opened.engine.outline = { db.engine.outline with explicit := true } := by
      have begun := begin_run began
      exact begun
    have content : opened.engine.store.content = db.engine.store.content := by
      rw [State.content_eq, State.content_eq]
      have begun := congrArg Outline.content outline
      exact begun
    obtain ⟨w, ran, read⟩ := reads (host.mapNest .opened opened) content
    have unspoiled : (host.nest w).doomed = false := congrArg Nest.doomed read.nest
    have touched : opened.engine.outline.Untouched w.engine.outline := read.outline
    have within : (host.mapNest .closed w).engine.outline.explicit = true := by
      refine touched.explicit.trans ?_
      rw [outline]
    have unbroken : (host.mapNest .closed w).engine.store.breaksLate (host.mapNest .closed w).engine.store.content =
        false := by
      have enforced : w.engine.store.connection.enforces = db.engine.store.connection.enforces :=
        touched.same_enforces.trans (congrArg Outline.enforces outline)
      show w.engine.store.breaksLate w.engine.store.content = false
      rw [read.content, State.breaksLate, enforced]
      show (_ && opened.engine.store.content.breaks true) = false
      rw [content]
      exact met
    obtain ⟨after, committed⟩ := commit_runs within unbroken
    obtain ⟨nest, -, log⟩ := control_run committed
    have closed : after.engine.outline = w.engine.outline.closed w.engine.outline.published := (commit_run committed).1
    have kept : w.engine.outline.published = db.engine.outline.kept := by
      have ready : w.engine.outline.Sound enforces := touched.sound (outline ▸ Outline.Sound.opened sound)
      rw [ready.published, touched.content, outline]
      show db.engine.outline.content = _
      exact Outline.Sound.content_outside sound apart
    refine ⟨after, ?_, ?_, ?_, ?_, ?_⟩
    · rw [if_neg outermost, UnitHost.runOutermost, began]
      simp only [ran, UnitHost.finish, unspoiled, Bool.false_eq_true, if_false, committed]
    · rw [nest, isClosed]
      rfl
    · rw [closed]
      exact kept
    · rw [State.content_eq, State.content_eq]
      refine (congrArg Outline.content closed).trans ?_
      exact kept.trans (Outline.Sound.content_outside sound apart).symm
    · rw [log]
      refine (Undefining.trans ?_ read.log).trans (undefining_record (by decide) _)
      show Undefining db.engine.log opened.engine.log
      rw [begun]
      exact undefining_record (by decide) _

end Units

end Database

end RecordMapper
