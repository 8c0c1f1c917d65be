import RecordMapper.Proofs.Unit.Unwinding

namespace RecordMapper

variable {ω σ ρ ε δ α β : Type}

def noStatement (s : Empty) (_ : ω) : Except Failure Unit × ω :=
  nomatch s

def noEffect (s : Empty) (_ : δ) : δ :=
  nomatch s

/-- A host whose engine may end a transaction by itself, and that still keeps transactions but for its statements. One
    that succeeds has its effect, whether or not a transaction is open. One that fails has none, but may undo the
    transaction that is open and leave none. Without a transaction nothing can be committed. -/
structure Lapsing (h : UnitHost ω ε) (exec : σ → ω → Except Failure ρ × ω) (sound : ω → Prop)
    (standing : ω → Standing δ) (effect : σ → δ → δ) : Prop where
  ends : Transactional h noStatement sound standing noEffect
  nest_exec (s : σ) (w : ω) : h.nest (exec s w).2 = h.nest w
  sound_exec {w : ω} (s : σ) : sound w → sound (exec s w).2
  exec_ok {w : ω} {s : σ} : sound w → (exec s w).1.isOk →
    standing (exec s w).2 = ⟨effect s (standing w).content, (standing w).base⟩
  exec_failed {w : ω} {s : σ} : sound w → ¬(exec s w).1.isOk →
    standing (exec s w).2 = standing w ∨
      ∃ d, (standing w).base = some d ∧ standing (exec s w).2 = ⟨d, none⟩
  commit_apart {w : ω} : sound w → (standing w).base = none →
    ¬(h.control .commit w).1.isOk ∧ standing (h.control .commit w).2 = standing w

theorem Transactional.silent {h : UnitHost ω ε} {exec : σ → ω → Except Failure ρ × ω} {sound : ω → Prop}
    {standing : ω → Standing δ} {effect : σ → δ → δ} (t : Transactional h exec sound standing effect) :
    Transactional h noStatement sound standing noEffect :=
  { t with
    nest_exec := fun s => nomatch s
    sound_exec := fun s => nomatch s
    exec_ok := fun {_ _ s} => nomatch s
    exec_failed := fun {_ _ s} => nomatch s }

/-- Whether the transaction has ended by itself, and the statements that have succeeded while none was open. -/
structure Drift (σ : Type) where
  lapsed : Bool
  strays : List σ
  deriving DecidableEq, Repr

namespace Drift

def none : Drift σ := ⟨false, []⟩

def ofStatement (h : UnitHost ω ε) (s : σ) (outcome : Except Failure ρ) (before after : ω) : Drift σ :=
  ⟨!h.isAutocommit before && h.isAutocommit after, if h.isAutocommit before && outcome.isOk then [s] else []⟩

def append (first later : Drift σ) : Drift σ :=
  ⟨first.lapsed || later.lapsed, first.strays ++ later.strays⟩

theorem append_assoc (a b c : Drift σ) : (a.append b).append c = a.append (b.append c) := by
  simp [append, Bool.or_assoc]

theorem append_none (a : Drift σ) : a.append .none = a := by
  simp [append, none]

theorem none_append (a : Drift σ) : Drift.none.append a = a := by
  simp [append, none]

end Drift

def Script.drift (h : UnitHost ω ε) (exec : σ → ω → Except Failure ρ × ω) : {α : Type} → Script σ ρ ε α → ω → Drift σ
  | _, .done _, _ => .none
  | _, .statement s next, w =>
    let (outcome, after) := exec s w
    (Drift.ofStatement h s outcome w after).append ((next outcome).drift h exec after)
  | _, .nested inner next, w =>
    let (outcome, after) := h.run (inner.perform h exec) w
    (inner.drift h exec (h.mapNest .entered w)).append ((next outcome).drift h exec after)

def Call.drift (h : UnitHost ω ε) (exec : σ → ω → Except Failure ρ × ω) (call : Call σ ρ ε) (w : ω) : Drift σ :=
  match h.control .begin (h.mapNest .numbered w) with
  | (.ok _, begun) => call.body.drift h exec (h.mapNest .opened begun)
  | (.error _, _) => .none

/-- What stands inside units whose transaction has begun from `content`: all that has succeeded while it is open, and
    once it has lapsed only what has succeeded since. -/
inductive Stands (effect : σ → δ → δ) (content : δ) (done : List σ) : Drift σ → Standing δ → Prop where
  | open : Stands effect content done .none ⟨afterAll effect done content, some content⟩
  | lapsed (strays : List σ) (late : strays <:+ done) :
      Stands effect content done ⟨true, strays⟩ ⟨afterAll effect strays content, none⟩

theorem Stands.strays {effect : σ → δ → δ} {content : δ} {done : List σ} {drift : Drift σ} {s : Standing δ}
    (stands : Stands effect content done drift s) :
    drift.strays <:+ done ∧ (drift.lapsed = false → drift.strays = []) := by
  cases stands with
  | «open» => exact ⟨List.nil_suffix, fun _ => rfl⟩
  | lapsed strays late => exact ⟨late, fun none => (nomatch none)⟩

structure Adrift (h : UnitHost ω ε) (sound : ω → Prop) (standing : ω → Standing δ) (effect : σ → δ → δ) (content : δ)
    (frames : Nat) (tally : Tally σ) (drift : Drift σ) (w : ω) : Prop where
  within : 0 < frames
  sound : sound w
  stands : Stands effect content tally.done drift (standing w)
  counts : (h.nest w).Counts frames tally

section Drifting

variable {h : UnitHost ω ε} {exec : σ → ω → Except Failure ρ × ω} {sound : ω → Prop} {standing : ω → Standing δ}
  {effect : σ → δ → δ} {content : δ} {frames : Nat} {tally : Tally σ} {drift : Drift σ} {w : ω}

theorem Adrift.opened (ready : sound w) (within : standing w = ⟨content, some content⟩) (deep : (h.nest w).depth = 1)
    (unmarked : (h.nest w).doomed = false) : Adrift h sound standing effect content 1 .empty .none w :=
  ⟨Nat.one_pos, ready, within ▸ .open, deep, unmarked⟩

theorem Adrift.isOpen (adrift : Adrift h sound standing effect content frames tally drift w) :
    (h.nest w).isOpen = true := by
  have within := adrift.within
  have depth := adrift.counts.depth
  simp only [Nest.isOpen, decide_eq_true_eq]
  omega

theorem afterAll_concat (effect : σ → δ → δ) (done : List σ) (s : σ) (d : δ) :
    afterAll effect (done ++ [s]) d = effect s (afterAll effect done d) := by
  simp [afterAll]

namespace Lapsing

variable (l : Lapsing h exec sound standing effect)

include l

theorem stands_exec {done : List σ} (s : σ) (ready : sound w) (before : Stands effect content done drift (standing w)) :
    Stands effect content (done ++ (History.ofStatement s (exec s w).1).done)
      (drift.append (.ofStatement h s (exec s w).1 w (exec s w).2)) (standing (exec s w).2) := by
  have found := l.ends.autocommit ready
  have left := l.ends.autocommit (l.sound_exec s ready)
  have ran : (exec s w).1.isOk = true ∧ standing (exec s w).2 = ⟨effect s (standing w).content, (standing w).base⟩ ∨
      (exec s w).1.isOk = false ∧ (standing (exec s w).2 = standing w ∨
        ∃ d, (standing w).base = some d ∧ standing (exec s w).2 = ⟨d, none⟩) := by
    cases succeeds : (exec s w).1.isOk with
    | true => exact .inl ⟨rfl, l.exec_ok ready succeeds⟩
    | false => exact .inr ⟨rfl, l.exec_failed ready (by simp [succeeds])⟩
  simp only [Drift.ofStatement, History.ofStatement, found, left]
  generalize standing w = stood at before ran
  cases before with
  | «open» =>
    rcases ran with ⟨succeeds, after⟩ | ⟨failed, after | ⟨_, ⟨⟩, after⟩⟩
    · rw [after, succeeds]
      exact (afterAll_concat effect done s content).symm ▸ .open
    · rw [after, failed]
      exact (List.append_nil done).symm ▸ .open
    · -- Here the transaction lapses, and nothing has strayed yet.
      rw [after, failed]
      exact .lapsed [] List.nil_suffix
  | lapsed strays late =>
    -- No transaction is open, so none can lapse again.
    rcases ran with ⟨succeeds, after⟩ | ⟨failed, after | ⟨_, ⟨⟩, after⟩⟩
    · obtain ⟨early, rfl⟩ := late
      rw [after, succeeds]
      have later : strays ++ [s] <:+ early ++ strays ++ [s] := ⟨early, (List.append_assoc early strays [s]).symm⟩
      exact (afterAll_concat effect strays s content).symm ▸ .lapsed (strays ++ [s]) later
    · rw [after, failed]
      simpa [Drift.append] using Stands.lapsed strays late

theorem adrift_exec (s : σ) (before : Adrift h sound standing effect content frames tally drift w) :
    Adrift h sound standing effect content frames (tally.append (.ofStatement s (exec s w).1))
      (drift.append (.ofStatement h s (exec s w).1 w (exec s w).2)) (exec s w).2 := by
  refine ⟨before.within, l.sound_exec s before.sound, l.stands_exec s before.sound before.stands, ?_⟩
  rw [l.nest_exec]
  refine ⟨before.counts.depth, ?_⟩
  rw [before.counts.doomed]
  simp [Tally.append, Tally.ofStatement, History.append, History.ofStatement]

theorem adrift_entered (before : Adrift h sound standing effect content frames tally drift w) :
    Adrift h sound standing effect content (frames + 1) tally drift (h.mapNest .entered w) := by
  refine ⟨Nat.succ_pos frames, l.ends.sound_setNest _ before.sound, ?_, ?_⟩
  · rw [UnitHost.mapNest, l.ends.standing_setNest]
    exact before.stands
  · rw [UnitHost.mapNest, l.ends.nest_setNest]
    exact before.counts.entered

theorem adrift_left {body : ω → Except ε β × ω} (some : 0 < frames)
    (ended : Adrift h sound standing effect content (frames + 1) tally drift (body (h.mapNest .entered w)).2) :
    Adrift h sound standing effect content frames (tally.append (.ofUnit h (h.runNested body w).1)) drift
      (h.runNested body w).2 := by
  obtain ⟨result, nest, stands, kept⟩ := l.ends.runNested_behind body w
  have counts := ended.counts.behind h (body (h.mapNest .entered w)).1
  rw [← nest, ← result] at counts
  refine ⟨some, kept ended.sound, ?_, counts⟩
  rw [stands, Tally.done_append_ofUnit]
  exact ended.stands

/-- What a body does inside `frames` units is what its tally and its drift say. -/
theorem adrift_perform (s : Script σ ρ ε α)
    (before : Adrift h sound standing effect content frames tally drift w) :
    Adrift h sound standing effect content frames (tally.append (s.tally h exec w)) (drift.append (s.drift h exec w))
      (s.perform h exec w).2 := by
  induction s generalizing w frames tally drift with
  | done outcome =>
    simpa only [Script.tally, Script.drift, Script.perform, Tally.append_empty, Drift.append_none] using before
  | statement s next ih =>
    have rest := ih (exec s w).1 (l.adrift_exec s before)
    rw [Tally.append_assoc, Drift.append_assoc] at rest
    exact rest
  | nested inner next ihInner ihNext =>
    -- The inner unit runs inside the open nest even when its transaction is gone.
    have left := l.adrift_left before.within (ihInner (l.adrift_entered before))
    rw [← run_inside before.isOpen] at left
    have rest := ihNext (h.run (inner.perform h exec) w).1 left
    rw [Tally.append_assoc, Tally.append_assoc, ← Tally.append_assoc (inner.tally _ _ _), Drift.append_assoc] at rest
    exact rest

theorem finish_apart (unit : Nat) (body : Except ε α) (history : History σ) (ready : sound w)
    (apart : (standing w).base = none) (marked : (h.nest w).doomed = history.spoiled) :
    let account : Account σ ε α := ⟨.ok (), body, history, (h.control .commit (h.mapNest .closed w)).1⟩
    (h.finish unit body w).1 = account.outcome h unit ∧ account.succeeds = false ∧
      standing (h.finish unit body w).2 = standing w ∧ (h.nest (h.finish unit body w).2).isOpen = false := by
  intro account
  have closedReady : sound (h.mapNest .closed w) := l.ends.sound_setNest _ ready
  have same : standing (h.mapNest .closed w) = standing w := l.ends.standing_setNest _ _
  have closedApart : (standing (h.mapNest .closed w)).base = none := by rw [same, apart]
  have closed : (h.nest (h.mapNest .closed w)).isOpen = false := by
    simp [UnitHost.mapNest, l.ends.nest_setNest, Nest.closed, Nest.isOpen]
  have nest := l.ends.nest_control .commit (h.mapNest .closed w)
  obtain ⟨refused, stays⟩ := l.commit_apart closedReady closedApart
  obtain ⟨outcome, ended⟩ := h.finish_cases unit body history marked
  refine ⟨outcome, ?_⟩
  rcases ended with ⟨-, committed, -⟩ | ⟨fails, why, ended | ⟨-, ended⟩⟩
  · exact absurd committed refused
  · rw [ended, l.ends.rollBack_of_closed unit why closedReady closedApart]
    exact ⟨fails, same, closed⟩
  · have ready := l.ends.sound_control .commit closedReady
    rw [ended, l.ends.rollBack_of_closed unit why ready (by rw [stays, closedApart]), nest, stays]
    exact ⟨fails, same, closed⟩

theorem finish_adrift (unit : Nat) (body : Except ε α)
    (adrift : Adrift h sound standing effect content frames tally drift w) :
    let account : Account σ ε α := ⟨.ok (), body, tally.toHistory, (h.control .commit (h.mapNest .closed w)).1⟩
    (h.finish unit body w).1 = account.outcome h unit ∧ (drift.lapsed = true → account.succeeds = false) ∧
      standing (h.finish unit body w).2 =
        ⟨afterAll effect (if account.succeeds then tally.done else drift.strays) content, none⟩ ∧
      (h.nest (h.finish unit body w).2).isOpen = false := by
  intro account
  have stands := adrift.stands
  generalize stood : standing w = s at stands
  cases stands with
  | «open» =>
    obtain ⟨outcome, stands, closed⟩ := l.ends.finish_accounted unit body ⟨[], tally.spoiled⟩ adrift.sound
      (congrArg Standing.base stood) adrift.counts.doomed
    refine ⟨outcome, fun none => (nomatch none), ?_, closed⟩
    rw [stands, stood]
    change (⟨if account.succeeds then afterAll effect tally.done content else content, none⟩ : Standing δ) = _
    cases account.succeeds <;> rfl
  | lapsed strays late =>
    obtain ⟨outcome, fails, stands, closed⟩ := l.finish_apart unit body tally.toHistory adrift.sound
      (congrArg Standing.base stood) adrift.counts.doomed
    refine ⟨outcome, fun _ => fails, ?_, closed⟩
    rw [stands, stood, fails]
    rfl

theorem runOutermost_adrift (call : Call σ ρ ε) (ready : sound w) (apart : (standing w).base = none)
    (idle : (h.nest w).isOpen = false) :
    let account := call.account h exec w
    let drift := call.drift h exec w
    let ended := h.runOutermost (call.body.perform h exec) w
    ended.1 = account.outcome h (h.nest w).next ∧ (drift.lapsed = true → account.succeeds = false) ∧
      standing ended.2 =
        ⟨afterAll effect (if account.succeeds then account.history.done else drift.strays) (standing w).content, none⟩ ∧
      (drift.strays <:+ account.history.done ∧ (drift.lapsed = false → drift.strays = [])) ∧
      (h.nest ended.2).isOpen = false := by
  unfold Call.account Call.drift UnitHost.account UnitHost.runOutermost
  rcases begun : h.control .begin (h.mapNest .numbered w) with ⟨failure | ⟨⟩, after⟩
  · obtain ⟨-, same, nest⟩ := l.ends.runOutermost_not_begun (call.body.perform h exec) ready apart begun
    refine ⟨rfl, fun none => (nomatch none), ?_, ⟨List.nil_suffix, fun _ => rfl⟩, ?_⟩
    · exact same.trans (by rw [← apart]; rfl)
    · exact (congrArg Nest.isOpen nest).trans idle
  · obtain ⟨sound, within, deep, unmarked⟩ := l.ends.begun_outermost ready apart begun
    have left := l.adrift_perform call.body (.opened sound within deep unmarked)
    rw [Tally.empty_append, Drift.none_append] at left
    obtain ⟨outcome, fails, stands, closed⟩ := l.finish_adrift (h.nest w).next
      (call.body.perform h exec (h.mapNest .opened after)).1 left
    exact ⟨outcome, fails, stands, left.stands.strays, closed⟩

/-- A unit whose engine may end its transaction by itself. It succeeds exactly when it can begin, its body succeeds, no
    inner unit has returned an error, the transaction has not lapsed and the commit succeeds; then all that has
    succeeded in it is kept. Else the content is the old one with what has succeeded after the lapse, which is nothing
    if there was none. In any case no unit and no transaction stays open. -/
theorem run_drifting (call : Call σ ρ ε) (w : ω) (ready : sound w) (apart : (standing w).base = none)
    (idle : (h.nest w).isOpen = false) :
    let account := call.account h exec w
    let drift := call.drift h exec w
    let ended := call.perform h exec w
    (ended.1.isOk = true ↔ account.began.isOk = true ∧ account.body.isOk = true ∧ account.history.spoiled = false ∧
      drift.lapsed = false ∧ account.committed.isOk = true) ∧
    ended.1 = account.outcome h (h.nest w).next ∧
    standing ended.2 =
      ⟨afterAll effect (if ended.1.isOk then account.history.done else drift.strays) (standing w).content, none⟩ ∧
    drift.strays <:+ account.history.done ∧ (drift.lapsed = false → drift.strays = []) ∧
    (h.nest ended.2).depth = 0 := by
  have outermost : call.perform h exec w = h.runOutermost (call.body.perform h exec) w := by
    simp [Call.perform, UnitHost.run, idle]
  intro account drift ended
  obtain ⟨result, fails, stands, ⟨late, early⟩, closed⟩ := l.runOutermost_adrift call ready apart idle
  rw [← outermost] at result stands closed
  have succeeds : ended.1.isOk = account.succeeds := by
    rw [← Account.isOk_outcome h (h.nest w).next account]
    exact congrArg Except.isOk result
  refine ⟨?_, result, ?_, late, early, ?_⟩
  · rw [succeeds, Account.succeeds_iff]
    constructor
    · rintro ⟨began, body, spoiled, committed⟩
      refine ⟨began, body, spoiled, Bool.eq_false_iff.2 fun lapsed => ?_, committed⟩
      exact absurd (Account.succeeds_iff.2 ⟨began, body, spoiled, committed⟩) (by rw [fails lapsed]; decide)
    · rintro ⟨began, body, spoiled, -, committed⟩
      exact ⟨began, body, spoiled, committed⟩
  · rw [succeeds]
    exact stands
  · simpa [Nest.isOpen] using closed

end Lapsing

end Drifting

structure Errand where
  reads : Bool
  statement : Sql.Statement
  inside : Engine.StaysInside statement

namespace Errand

open RecordMapper.Store

def effect (enforces : Bool) (e : Errand) (c : Content) : Content :=
  match e.statement.asked with
  | .ok command => c.after enforces command
  | .error _ => c

def perform (e : Errand) (db : Database) : Except Failure (List (List Value) ⊕ Nat) × Database :=
  if e.reads then
    let (outcome, db) := (Database.query e.statement).run db
    (outcome.map .inl, db)
  else
    let (outcome, db) := (Database.execute e.statement).run db
    (outcome.map .inr, db)

theorem perform_leaves (e : Errand) (db : Database) :
    Engine.Leaves db.engine.outline e.statement (e.perform db).1 (e.perform db).2.engine.outline := by
  unfold perform
  split
  · exact (Engine.fold_leaves e.inside _ [] db.engine).map _
  · exact (Engine.execute_leaves e.inside db.engine).map _

end Errand

namespace Database

variable {db : Database} {enforces : Bool}

theorem standing_of_lapsed {after : Database} (lapsed : db.engine.outline.Lapsed after.engine.outline) :
    ∃ d, (standing db).base = some d ∧ standing after = ⟨d, none⟩ := by
  obtain ⟨within, closed⟩ := lapsed
  exact ⟨_, if_pos within, standing_closed closed⟩

/-- A database handle whose statements may end the transaction still keeps what a unit relies on. -/
theorem host_lapsing (enforces : Bool) :
    Lapsing host Errand.perform (Sound enforces) standing (Errand.effect enforces) where
  ends := (host_transactional enforces).silent
  nest_exec e db := by
    unfold Errand.perform
    split <;> rfl
  sound_exec {db} e sound := by
    rcases e.perform_leaves db with concluded | ⟨-, -, -, closed⟩
    · exact sound_of_concluded sound concluded
    · rw [Sound, closed]
      exact sound.closed sound.kept
  exec_ok {db e} sound succeeds := by
    rcases e.perform_leaves db with concluded | ⟨failed, -⟩
    · rcases standing_of_concluded sound concluded with ⟨failed, -⟩ | ⟨-, command, asked, stands⟩
      · exact absurd succeeds (by simp [failed])
      · simp [stands, Errand.effect, asked]
    · exact absurd succeeds (by simp [failed])
  exec_failed {db e} sound failed := by
    rcases e.perform_leaves db with concluded | ⟨-, -, lapsed⟩
    · rcases standing_of_concluded sound concluded with ⟨-, same⟩ | ⟨succeeds, -⟩
      · exact .inl same
      · exact absurd succeeds failed
    · exact .inr (standing_of_lapsed lapsed)
  commit_apart {db} sound apart := by
    obtain ⟨same, left⟩ := control_outline .commit db
    have refused : db.engine.store.run Control.commit.command.text Control.commit.command =
        (.error .nothingToCommit, db.engine.store) :=
      db.engine.store.commit_outside (outside apart)
    rw [refused] at same left
    refine ⟨Bool.eq_false_iff.1 same, ?_⟩
    rw [standing, left]
    rfl

end Database

namespace Session

variable {n : Nat} (k : Fin n)

def performErrand {ρ : Type} (e : Errand) (w : Session n × ρ) :
    Except Failure (List (List Value) ⊕ Nat) × Session n × ρ :=
  let (outcome, db) := e.perform (w.1.database k)
  (outcome, w.1.replace k db, w.2)

theorem host_lapsing {ρ : Type} (enforces : Bool) :
    Lapsing (host (ρ := ρ) k) (performErrand k) (fun w => Database.Sound enforces (w.1.database k))
      (fun w => Database.standing (w.1.database k)) (Errand.effect enforces) := by
  have own := Database.host_lapsing enforces
  refine ⟨(host_transactional k enforces).silent, ?_, ?_, ?_, ?_, ?_⟩
  · intro e w
    exact (nest_replace k w.1 _).trans (own.nest_exec e (w.1.database k))
  · intro w e sound
    exact sound_replace k (own.sound_exec e sound)
  · intro w e sound succeeds
    exact (standing_replace k _).trans (own.exec_ok sound succeeds)
  · intro w e sound failed
    refine (own.exec_failed sound failed).imp (standing_replace k _).trans ?_
    rintro ⟨d, within, after⟩
    exact ⟨d, within, (standing_replace k _).trans after⟩
  · intro w sound apart
    obtain ⟨refused, same⟩ := own.commit_apart sound apart
    exact ⟨refused, (standing_replace k _).trans same⟩

end Session

section Sessions

open RecordMapper.Store

def errand (command : Sql.Command) (inside : demarcates command = false) : Errand :=
  ⟨false, command.statement, fun _ asks => Engine.eq_of_asked asks ▸ inside⟩

def unaware : Script Errand (List (List Value) ⊕ Nat) Interruption Unit :=
  let make := errand (.create notesTable) rfl
  let write (id : Int64) := errand (.insert "notes" none [[.integer id]]) rfl
  .statement make fun _ => .statement (write 1) fun _ =>
    .nested (β := Unit)
      (.statement (errand (.insertOrRollback "notes" none [[.integer 1]]) rfl) fun _ => .done (.ok ()))
      fun _ => .statement make fun _ => .statement (write 2) fun _ => .done (.ok ())

def unawareCall : Call Errand (List (List Value) ⊕ Nat) Interruption :=
  ⟨Unit, unaware⟩

theorem run_drifting_unaware :
    let h : UnitHost (Session 1 × Unit) Interruption := Session.host 0
    let exec := Session.performErrand 0
    let w := (loneSession, ())
    let account := unawareCall.account h exec w
    let drift := unawareCall.drift h exec w
    let ended := unawareCall.perform h exec w
    let before := (Database.standing (w.1.database 0)).content
    Database.Sound true (w.1.database 0) ∧ (Database.standing (w.1.database 0)).base = none ∧ (h.nest w).isOpen = false ∧
    (ended.1.isOk = true ↔ account.began.isOk = true ∧ account.body.isOk = true ∧ account.history.spoiled = false ∧
      drift.lapsed = false ∧ account.committed.isOk = true) ∧
    ended.1 = account.outcome h (h.nest w).next ∧
    Database.standing (ended.2.1.database 0) =
      ⟨afterAll (Errand.effect true) (if ended.1.isOk then account.history.done else drift.strays) before, none⟩ ∧
    drift.strays <:+ account.history.done ∧ (drift.lapsed = false → drift.strays = []) ∧
    (h.nest ended.2).depth = 0 := by
  have sound : Database.Sound true (loneSession.database 0) :=
    ⟨rfl, List.nodup_nil, fun _ _ none => (nomatch none), fun _ => rfl⟩
  exact ⟨sound, rfl, rfl, (Session.host_lapsing 0 true).run_drifting unawareCall (loneSession, ()) sound rfl rfl⟩

/-- The unit fails, as its transaction is gone, but what it has made after that lasts. -/
theorem strays_outlast_failure :
    let h : UnitHost (Session 1 × Unit) Interruption := Session.host 0
    let exec := Session.performErrand 0
    let ended := unawareCall.perform h exec (loneSession, ())
    (unawareCall.drift h exec (loneSession, ())).lapsed = true ∧ ended.1.isOk = false ∧
      (loneSession.content 0).tables = [] ∧
      ((ended.2.1.content 0).tables.map fun t => t.rows) = [[⟨2, [.integer 2]⟩]] := by
  decide +kernel

end Sessions

end RecordMapper
