import RecordMapper.Proofs.Unit.Connection
import RecordMapper.Session.Run

namespace RecordMapper

open RecordMapper.Store

variable {ω σ ρ ε : Type}

/-- A host whose engine begins and ends transactions only when it is told to, and can always roll an open one back. -/
structure Obedient (h : UnitHost ω ε) (exec : σ → ω → Except Failure ρ × ω) : Prop where
  nest_setNest (n : Nest) (w : ω) : h.nest (h.setNest n w) = n
  nest_record (e : Event) (w : ω) : h.nest (h.record e w) = h.nest w
  nest_control (c : Control) (w : ω) : h.nest (h.control c w).2 = h.nest w
  nest_exec (s : σ) (w : ω) : h.nest (exec s w).2 = h.nest w
  autocommit_setNest (n : Nest) (w : ω) : h.isAutocommit (h.setNest n w) = h.isAutocommit w
  autocommit_record (e : Event) (w : ω) : h.isAutocommit (h.record e w) = h.isAutocommit w
  autocommit_exec (s : σ) (w : ω) : h.isAutocommit (exec s w).2 = h.isAutocommit w
  autocommit_begin (w : ω) : h.isAutocommit (h.control .begin w).2 =
    if (h.control .begin w).1.isOk then false else h.isAutocommit w
  autocommit_commit (w : ω) : h.isAutocommit (h.control .commit w).2 =
    if (h.control .commit w).1.isOk then true else h.isAutocommit w
  rollback_open {w : ω} : h.isAutocommit w = false →
    (h.control .rollback w).1.isOk = true ∧ h.isAutocommit (h.control .rollback w).2 = true

namespace Store.Outline

variable {o after : Outline} {command : Sql.Command} {outcome : Except FaultCause Rows}

theorem Ended.explicit (ended : o.Ended command outcome after) : after.explicit = o.explicit := by
  cases ended with
  | refused touched => exact touched.explicit
  | read _ touched => exact touched.explicit
  | written => exact o.explicit_accepting command _

end Store.Outline

namespace Database

theorem perform_explicit (r : Instruction) (db : Database) :
    (r.perform db).2.engine.outline.explicit = db.engine.outline.explicit := by
  have concluded := perform_concluded r db
  rcases outcome : (r.perform db).1 with failure | reply
  · rw [outcome] at concluded
    have touched : db.engine.outline.Untouched (r.perform db).2.engine.outline := concluded
    exact touched.explicit
  · rw [outcome] at concluded
    obtain ⟨command, rows, -, ended⟩ := concluded
    exact ended.explicit

theorem begin_explicit (db : Database) : (host.control .begin db).2.engine.outline.explicit =
    if (host.control .begin db).1.isOk then true else db.engine.outline.explicit := by
  obtain ⟨same, left⟩ := control_outline .begin db
  have outcome : (host.control .begin db).1.isOk = db.engine.store.begin.1.isOk := same
  rw [outcome, left]
  rcases db.engine.store.begin_cases with ⟨⟨fault, failed⟩, after, -⟩ | ⟨succeeds, after, -⟩
  · rw [congrArg Except.isOk failed]
    exact congrArg (fun s : State => s.outline.explicit) after
  · rw [congrArg Except.isOk succeeds]
    exact congrArg Outline.explicit after

theorem commit_explicit (db : Database) : (host.control .commit db).2.engine.outline.explicit =
    if (host.control .commit db).1.isOk then false else db.engine.outline.explicit := by
  obtain ⟨same, left⟩ := control_outline .commit db
  have outcome : (host.control .commit db).1.isOk = db.engine.store.commit.1.isOk := same
  rw [outcome, left]
  rcases db.engine.store.commit_cases with ⟨⟨fault, failed⟩, after⟩ | ⟨succeeds, after⟩
  · rw [congrArg Except.isOk failed]
    exact congrArg (fun s : State => s.outline.explicit) after
  · rw [congrArg Except.isOk succeeds]
    exact congrArg Outline.explicit after

theorem rollback_explicit {db : Database} (within : db.engine.outline.explicit = true) :
    (host.control .rollback db).1.isOk = true ∧ (host.control .rollback db).2.engine.outline.explicit = false := by
  obtain ⟨same, left⟩ := control_outline .rollback db
  rcases db.engine.store.rollback_cases with ⟨-, -, apart⟩ | ⟨succeeds, after⟩
  · exact absurd (apart.symm.trans within) (by decide)
  · exact ⟨same.trans (congrArg Except.isOk succeeds), (congrArg Outline.explicit left).trans (congrArg Outline.explicit after)⟩

theorem host_obedient : Obedient host Instruction.perform where
  nest_setNest _ _ := rfl
  nest_record _ _ := rfl
  nest_control _ _ := rfl
  nest_exec r _ := by cases r <;> rfl
  autocommit_setNest _ _ := rfl
  autocommit_record _ _ := rfl
  autocommit_exec r db := congrArg not (perform_explicit r db)
  autocommit_begin db := (congrArg not (begin_explicit db)).trans (apply_ite not _ _ _)
  autocommit_commit db := (congrArg not (commit_explicit db)).trans (apply_ite not _ _ _)
  rollback_open {db} within := by
    have explicit : (!db.engine.outline.explicit) = false := within
    obtain ⟨succeeds, after⟩ := rollback_explicit (by simpa using explicit)
    exact ⟨succeeds, congrArg not after⟩

end Database

namespace Session

variable {n : Nat} (k : Fin n)

theorem handle_setHandle (s : Session n) (own : Handle n) : (s.setHandle k own).handle k = own :=
  Vector.getElem_set_self k.isLt

theorem nest_replace (s : Session n) (db : Database) : ((s.replace k db).handle k).nest = db.nest :=
  congrArg Handle.nest (handle_setHandle k s _)

theorem autocommit_replace (s : Session n) (db : Database) :
    ((s.replace k db).database k).engine.isAutocommit = db.engine.isAutocommit :=
  congrArg (fun own : Handle n => !own.connection.explicit) (handle_setHandle k s _)

def perform (r : Instruction) (w : Session n × ρ) : Except Failure (List (List Value) ⊕ Nat) × Session n × ρ :=
  let (outcome, db) := r.perform (w.1.database k)
  (outcome, w.1.replace k db, w.2)

theorem host_obedient : Obedient (host (ρ := ρ) k) (perform k) where
  nest_setNest n w := congrArg Handle.nest (handle_setHandle k w.1 _)
  nest_record _ w := nest_replace k w.1 _
  nest_control c w := (nest_replace k w.1 _).trans (Database.host_obedient.nest_control c (w.1.database k))
  nest_exec r w := (nest_replace k w.1 _).trans (Database.host_obedient.nest_exec r (w.1.database k))
  autocommit_setNest nest w := by
    have same := congrArg (fun own : Handle n => !own.connection.explicit)
      (handle_setHandle k w.1 { w.1.handle k with nest })
    exact same
  autocommit_record _ w := autocommit_replace k w.1 _
  autocommit_exec r w :=
    (autocommit_replace k w.1 _).trans (Database.host_obedient.autocommit_exec r (w.1.database k))
  autocommit_begin w := (autocommit_replace k w.1 _).trans (Database.host_obedient.autocommit_begin (w.1.database k))
  autocommit_commit w := (autocommit_replace k w.1 _).trans (Database.host_obedient.autocommit_commit (w.1.database k))
  rollback_open {w} within := by
    obtain ⟨succeeds, after⟩ := Database.host_obedient.rollback_open (w := w.1.database k) within
    exact ⟨succeeds, (autocommit_replace k w.1 _).trans after⟩

end Session

end RecordMapper
