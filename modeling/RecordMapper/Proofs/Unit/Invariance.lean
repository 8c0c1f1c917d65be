import RecordMapper.Proofs.Unit.Agreement
import RecordMapper.Proofs.Unit.Containment

namespace RecordMapper

open RecordMapper.Store

namespace Store

/-- What holds of a content holds after every command of a kind that it can run. -/
def Content.KeptBy (may : Sql.Command → Prop) (good : Content → Prop) : Prop :=
  ∀ c enforces command effect, good c → may command → checkCommand c enforces command = .ok () →
    effectOf c enforces command = .ok effect → good effect.content

theorem Content.KeptBy.mono {may may' : Sql.Command → Prop} {good : Content → Prop} (kept : Content.KeptBy may good)
    (stronger : ∀ command, may' command → may command) : Content.KeptBy may' good :=
  fun c enforces command effect holds allowed => kept c enforces command effect holds (stronger command allowed)

namespace Outline

variable {may : Sql.Command → Prop} {good : Content → Prop} {o after : Outline}

/-- Something holds of what the file holds and of what a transaction sees; outside one nothing is fixed. -/
structure Holds (good : Content → Prop) (o : Outline) : Prop where
  kept : good o.kept
  seen : ∀ content changed, o.seen = some (content, changed) → good content
  outside : o.explicit = false → o.seen = none

theorem Holds.content (holds : o.Holds good) : good o.content := by
  unfold Outline.content
  rcases seen : o.seen with _ | ⟨content, changed⟩
  · exact holds.kept
  · exact holds.seen content changed seen

theorem Holds.published (holds : o.Holds good) : good o.published := by
  unfold Outline.published
  rcases seen : o.seen with _ | ⟨content, _ | _⟩
  · exact holds.kept
  · exact holds.kept
  · exact holds.seen content true seen

theorem holds_closed {kept : Content} (own : good kept) : (o.closed kept).Holds good :=
  ⟨own, fun _ _ none => absurd none (Option.some_ne_none _).symm, fun _ => rfl⟩

theorem Holds.mono {better : Content → Prop} (holds : o.Holds good) (weaker : ∀ c, good c → better c) : o.Holds better :=
  ⟨weaker _ holds.kept, fun content changed seen => weaker _ (holds.seen content changed seen), holds.outside⟩

theorem Holds.opened (holds : o.Holds good) : Holds good { o with explicit := true } :=
  ⟨holds.kept, holds.seen, fun inside => absurd inside (Ne.symm Bool.false_ne_true)⟩

theorem Holds.sound (holds : o.Holds good) (apart : o.explicit = false) (distinct : o.kept.Distinct) :
    o.Sound o.enforces := by
  have unseen := holds.outside apart
  refine ⟨rfl, distinct, fun content changed seen => ?_, fun _ => unseen⟩
  rw [unseen] at seen
  cases seen

theorem Untouched.holds (touched : o.Untouched after) (holds : o.Holds good) : after.Holds good := by
  rcases touched with rfl | rfl
  · exact holds
  · unfold Outline.fixed
    split
    · rename_i unseen
      refine ⟨holds.kept, ?_, fun outside => ?_⟩
      · rintro content changed ⟨rfl, rfl⟩
        exact holds.kept
      · rw [show o.explicit = false from outside] at unseen
        cases unseen
    · exact holds

theorem Holds.accepting {effect : Effect} (holds : o.Holds good) (own : good effect.content) (command : Sql.Command) :
    (o.accepting command effect).Holds good := by
  unfold Outline.accepting
  split
  · rename_i fixed
    refine ⟨holds.kept, ?_, fun outside => ?_⟩
    · rintro content changed ⟨rfl, rfl⟩
      exact own
    · -- Outside a transaction nothing is seen that could be changed.
      have unseen := holds.outside outside
      rw [Outline.fixed, show o.explicit = false from outside, Bool.false_and, if_neg Bool.false_ne_true, unseen] at fixed
      cases fixed
  · exact ⟨own, holds.seen, holds.outside⟩

theorem Step.holds (keeps : Content.KeptBy may good) (step : Step may o after) (holds : o.Holds good) :
    after.Holds good := by
  cases step with
  | untouched touched => exact touched.holds holds
  | ran _ allowed ended =>
    cases ended with
    | read _ touched => exact touched.holds holds
    | written _ checked done => exact holds.accepting (keeps _ _ _ _ holds.content allowed checked done) _

theorem Steps.holds (keeps : Content.KeptBy may good) (steps : Steps may o after) (holds : o.Holds good) :
    after.Holds good := by
  induction steps with
  | refl => exact holds
  | tail _ step ih => exact step.holds keeps ih

theorem Step.keeps (keeps : Content.KeptBy may good) (step : Step may o after) (holds : good o.content) :
    good after.content := by
  cases step with
  | untouched touched => exact touched.content ▸ holds
  | ran _ allowed ended =>
    rcases ended.content_cases with ⟨-, same⟩ | ⟨-, checked, -, effect, done, same⟩
    · exact same ▸ holds
    · exact same ▸ keeps _ _ _ _ holds allowed checked done

theorem Steps.keeps (keeps : Content.KeptBy may good) (steps : Steps may o after) (holds : good o.content) :
    good after.content := by
  induction steps with
  | refl => exact holds
  | tail _ step ih => exact step.keeps keeps ih

theorem Step.explicit (step : Step may o after) : after.explicit = o.explicit := by
  cases step with
  | untouched touched => exact touched.explicit
  | ran _ _ ended => exact ended.explicit

theorem Steps.explicit (steps : Steps may o after) : after.explicit = o.explicit := by
  induction steps with
  | refl => rfl
  | tail _ step ih => exact step.explicit.trans ih

end Outline

end Store

theorem UnitHost.run_keeps {ω ε α : Type} (h : UnitHost ω ε) (good : ω → Prop)
    (nest : ∀ n w, good w → good (h.setNest n w)) (control : ∀ c w, good w → good (h.control c w).2)
    (record : ∀ e w, good w → good (h.record e w)) {body : ω → Except ε α × ω}
    (keeps : ∀ w, good w → good (body w).2) {w : ω} (holds : good w) : good (h.run body w).2 := by
  have undone (unit : Nat) (why : Undoing) (w : ω) (before : good w) : good (h.rollBack unit why w) := by
    have rolled := control .rollback w before
    unfold rollBack
    split
    · exact before
    · rcases ended : h.control .rollback w with ⟨_ | _, after⟩ <;> (rw [ended] at rolled; exact record _ _ rolled)
  have finished (unit : Nat) (outcome : Except ε α) (w : ω) (before : good w) : good (h.finish unit outcome w).2 := by
    have closed : good (h.mapNest .closed w) := nest _ _ before
    have committed := control .commit _ closed
    unfold finish
    cases outcome with
    | error e => exact undone _ _ _ closed
    | ok a =>
      simp only []
      split
      · exact undone _ _ _ closed
      · rcases ended : h.control .commit (h.mapNest .closed w) with ⟨_ | _, after⟩
        · rw [ended] at committed
          exact undone _ _ _ committed
        · rw [ended] at committed
          exact committed
  unfold run
  split
  · have inside := keeps _ (nest (h.nest w).entered w holds)
    unfold runNested UnitHost.mapNest
    rcases ended : body (h.setNest (h.nest w).entered w) with ⟨_ | _, after⟩
    · rw [ended] at inside
      simp only []
      split
      · exact inside
      · exact nest _ _ inside
    · rw [ended] at inside
      exact nest _ _ inside
  · have begun := control .begin _ (nest (h.nest w).numbered w holds)
    unfold runOutermost UnitHost.mapNest
    rcases began : h.control .begin (h.setNest (h.nest w).numbered w) with ⟨_ | _, after⟩
    · rw [began] at begun
      exact begun
    · rw [began] at begun
      exact finished _ _ _ (keeps _ (nest _ _ begun))

section Standing

variable {ω ω' σ ρ ε ε' α : Type} {h : UnitHost ω ε} {h' : UnitHost ω' ε'} {frames : Nat} {w : ω} {w' : ω'}

/-- Inside as many units a transaction is open, and outside any none is. The nest may be too deep after a panic. -/
structure UnitHost.Stands (h : UnitHost ω ε) (frames : Nat) (w : ω) : Prop where
  autocommit : h.isAutocommit w = (frames == 0)
  deep : frames ≤ (h.nest w).depth
  shut : frames = 0 → (h.nest w).depth = 0

theorem UnitHost.Stands.of_same (stands : h.Stands frames w) (autocommit : h'.isAutocommit w' = h.isAutocommit w)
    (depth : (h'.nest w').depth = (h.nest w).depth) : h'.Stands frames w' :=
  ⟨autocommit.trans stands.autocommit, depth ▸ stands.deep, fun none => depth.trans (stands.shut none)⟩

theorem Obedient.stands_mapNest {exec : σ → ω → Except Failure ρ × ω} (o : Obedient h exec) {f : Nest → Nest}
    {later : Nat} (stands : h.Stands frames w) (some : 0 < frames) (also : 0 < later)
    (deep : later ≤ (f (h.nest w)).depth) : h.Stands later (h.mapNest f w) := by
  refine ⟨?_, ?_, fun none => absurd none (Nat.ne_of_gt also)⟩
  · rw [UnitHost.mapNest, o.autocommit_setNest, stands.autocommit, beq_false_of_ne (Nat.ne_of_gt some),
      beq_false_of_ne (Nat.ne_of_gt also)]
  · rw [UnitHost.mapNest, o.nest_setNest]
    exact deep

theorem Obedient.run_stands {exec : σ → ω → Except Failure ρ × ω} (o : Obedient h exec) {body : ω → Except ε α × ω}
    (keeps : ∀ frames w, h.Stands frames w → h.Stands frames (body w).2) (stands : h.Stands frames w) :
    h.Stands frames (h.run body w).2 := by
  cases frames with
  | zero =>
    have numbered : h.isAutocommit (h.mapNest .numbered w) = true :=
      (o.autocommit_setNest _ _).trans stands.autocommit
    have began := o.autocommit_begin (h.mapNest .numbered w)
    have nest := o.nest_control .begin (h.mapNest .numbered w)
    rw [UnitHost.mapNest, o.nest_setNest, ← UnitHost.mapNest] at nest
    rw [run_outside ⟨stands.autocommit, stands.shut rfl⟩, UnitHost.runOutermost]
    rcases begun : h.control .begin (h.mapNest .numbered w) with ⟨failure | done, after⟩
    · rw [begun] at began nest
      have shut : (h.nest after).depth = 0 := (congrArg Nest.depth nest).trans (stands.shut rfl)
      exact ⟨began.trans numbered, Nat.zero_le _, fun _ => shut⟩
    · rw [begun] at began
      have opened : h.Stands 1 (h.mapNest .opened after) := by
        refine ⟨(o.autocommit_setNest _ _).trans began, ?_, fun none => absurd none Nat.one_ne_zero⟩
        rw [UnitHost.mapNest, o.nest_setNest]
        exact Nat.le_refl 1
      have apart := o.outside_finish (h.nest w).next (body (h.mapNest .opened after)).1 (keeps 1 _ opened).autocommit
      exact ⟨apart.autocommit, Nat.zero_le _, fun _ => apart.depth⟩
  | succ frames =>
    have some := Nat.succ_pos frames
    have isOpen : (h.nest w).isOpen = true := decide_eq_true (Nat.lt_of_lt_of_le some stands.deep)
    have entered : h.Stands (frames + 2) (h.mapNest .entered w) :=
      o.stands_mapNest stands some (Nat.succ_pos _) (Nat.succ_le_succ stands.deep)
    have inside := keeps _ _ entered
    rw [run_inside isOpen, UnitHost.runNested]
    rcases ended : body (h.mapNest .entered w) with ⟨_ | _, after⟩
    · rw [ended] at inside
      simp only []
      split
      · exact ⟨inside.autocommit, Nat.le_of_succ_le inside.deep, fun none => absurd none (Nat.succ_ne_zero _)⟩
      · exact o.stands_mapNest inside (Nat.succ_pos _) some (Nat.le_sub_one_of_lt inside.deep)
    · rw [ended] at inside
      exact o.stands_mapNest inside (Nat.succ_pos _) some (Nat.le_sub_one_of_lt inside.deep)

end Standing

namespace Database

variable {ε ε' α β : Type} {may : Sql.Command → Prop}

theorem control_holds {good : Content → Prop} (c : Control) (db : Database) (holds : db.engine.outline.Holds good) :
    (host.control c db).2.engine.outline.Holds good := by
  rw [(control_outline c db).2]
  cases c with
  | begin =>
    rcases db.engine.store.begin_cases with ⟨-, after, -⟩ | ⟨-, after, -⟩
    · exact (congrArg State.outline after) ▸ holds
    · exact after ▸ holds.opened
  | commit =>
    rcases db.engine.store.commit_cases with ⟨-, after⟩ | ⟨-, after⟩
    · exact (congrArg State.outline after) ▸ holds
    · exact after ▸ Outline.holds_closed holds.published
  | rollback =>
    rcases db.engine.store.rollback_cases with ⟨-, after, -⟩ | ⟨-, after⟩
    · exact (congrArg State.outline after) ▸ holds
    · exact after ▸ Outline.holds_closed holds.kept

/-- An action changes contents by such commands alone, in whatever units: what they keep, it keeps. It leaves as many
    units open as it finds. -/
structure Confined (may : Sql.Command → Prop) (act : ExceptT ε (StateM Database) α) : Prop where
  keeps : ∀ good, Content.KeptBy may good → ∀ db, db.engine.outline.Holds good →
    (act.run db).2.engine.outline.Holds good
  stands : ∀ frames db, host.Stands frames db → host.Stands frames (act.run db).2

theorem Does.confined {act : Action α} (does : Does may act) : Confined may act where
  keeps _ kept db holds := (does db).2.holds kept holds
  stands _ db stands := stands.of_same (congrArg not (does db).2.explicit) (congrArg Nest.depth (does db).1)

theorem Confined.mono {may' : Sql.Command → Prop} {act : ExceptT ε (StateM Database) α} (confined : Confined may act)
    (weaker : ∀ command, may command → may' command) : Confined may' act :=
  ⟨fun good kept => confined.keeps good (kept.mono weaker), confined.stands⟩

theorem Does.ensures {good : Content → Prop} {act : Action α} {enforces : Bool} (does : Does may act)
    (keeps : Content.KeptBy may good) : Ensures enforces act fun c _ c' => good c → good c' := by
  intro db a after sound done
  obtain ⟨nest, steps⟩ := does db
  rw [done] at nest steps
  refine ⟨⟨steps.sound sound, nest⟩, fun holds => ?_⟩
  rw [State.content_eq] at holds ⊢
  exact steps.keeps keeps holds

theorem bind_keeps {good : Database → Prop} {act : ExceptT ε (StateM Database) α}
    {next : α → ExceptT ε (StateM Database) β} (first : ∀ db, good db → good (act.run db).2)
    (second : ∀ a db, good db → good ((next a).run db).2) (db : Database) (holds : good db) :
    good ((act >>= next).run db).2 := by
  have one := first db holds
  rw [run_bind]
  rcases ran : act.run db with ⟨failure | a, middle⟩
  · rw [ran] at one
    exact one
  · rw [ran] at one
    exact second a middle one

theorem Confined.bind {act : ExceptT ε (StateM Database) α} {next : α → ExceptT ε (StateM Database) β}
    (first : Confined may act) (second : ∀ a, Confined may (next a)) : Confined may (act >>= next) where
  keeps good kept := bind_keeps (first.keeps good kept) fun a => (second a).keeps good kept
  stands frames := bind_keeps (first.stands frames) fun a => (second a).stands frames

theorem Confined.of_known {outcome : Except Failure α} {next : α → Action β}
    (later : ∀ a, outcome = .ok a → Confined may (next a)) : Confined may (known outcome >>= next) := by
  cases outcome with
  | error failure => exact ⟨fun _ _ _ holds => holds, fun _ _ stands => stands⟩
  | ok a =>
    have goes (db : Database) : (known (.ok a) >>= next).run db = (next a).run db := by
      rw [run_bind, run_known]
    have confined := later a rfl
    exact ⟨fun good kept db holds => goes db ▸ confined.keeps good kept db holds,
      fun frames db stands => goes db ▸ confined.stands frames db stands⟩

theorem confined_pure (a : α) : Confined may (pure a : ExceptT ε (StateM Database) α) :=
  ⟨fun _ _ _ holds => holds, fun _ _ stands => stands⟩

theorem confined_atomically {act : Action α} (confined : Confined may act) : Confined may (atomically act) where
  keeps good kept _ holds := host.run_keeps (fun db => db.engine.outline.Holds good)
    (fun _ _ before => before) control_holds (fun _ _ before => before) (confined.keeps good kept) holds
  stands _ _ stands := host_obedient.run_stands confined.stands stands

end Database

end RecordMapper
