import RecordMapper.Proofs.Unit.Connection
import RecordMapper.Proofs.Unit.Script

namespace RecordMapper

variable {ω σ ρ ε δ α β : Type}

def afterAll (effect : σ → δ → δ) (statements : List σ) (d : δ) : δ :=
  statements.foldl (fun d s => effect s d) d

/-- How a state inside a transaction follows from another: the transaction is still open, what happened in
    between has been applied to the content, and the nest is as deep as before. -/
structure Follows (h : UnitHost ω ε) (sound : ω → Prop) (standing : ω → Standing δ) (effect : σ → δ → δ)
    (before : ω) (history : History σ) (after : ω) : Prop where
  sound : sound after
  content : (standing after).content = afterAll effect history.done (standing before).content
  base : (standing after).base = (standing before).base
  nest : h.nest after = { h.nest before with doomed := (h.nest before).doomed || history.spoiled }

section Run

variable {h : UnitHost ω ε} {exec : σ → ω → Except Failure ρ × ω} {sound : ω → Prop}
  {standing : ω → Standing δ} {effect : σ → δ → δ}

theorem Follows.trans {first second third : ω} {early late : History σ}
    (one : Follows h sound standing effect first early second)
    (two : Follows h sound standing effect second late third) :
    Follows h sound standing effect first (early.append late) third := by
  refine ⟨two.sound, ?_, two.base.trans one.base, ?_⟩
  · rw [two.content, one.content, History.append, afterAll, afterAll, afterAll, List.foldl_append]
  · rw [two.nest, one.nest, History.append, Bool.or_assoc]

theorem Follows.refl {w : ω} (ready : sound w) : Follows h sound standing effect w .empty w :=
  ⟨ready, rfl, rfl, by simp [History.empty]⟩

theorem Follows.isOpen {w after : ω} {history : History σ} (ran : Follows h sound standing effect w history after)
    (inside : (h.nest w).isOpen = true) : (h.nest after).isOpen = true := by
  rw [ran.nest]
  exact inside

/-- The ways for an outermost unit to end: by a commit, by a rollback, or by a rollback after a commit that fails. -/
theorem UnitHost.finish_cases (h : UnitHost ω ε) {w : ω} (unit : Nat) (body : Except ε α) (history : History σ)
    (marked : (h.nest w).doomed = history.spoiled) :
    let closed := h.mapNest .closed w
    let committed := h.control .commit closed
    let account : Account σ ε α := ⟨.ok (), body, history, committed.1⟩
    let ended := h.finish unit body w
    ended.1 = account.outcome h unit ∧
      (account.succeeds = true ∧ committed.1.isOk = true ∧ ended.2 = committed.2 ∨
        account.succeeds = false ∧ ∃ why, ended.2 = h.rollBack unit why closed ∨
          committed.1.isOk = false ∧ ended.2 = h.rollBack unit why committed.2) := by
  rcases history with ⟨done, spoiled⟩
  subst marked
  simp only [finish]
  cases body with
  | error e => exact ⟨rfl, .inr ⟨rfl, _, .inl rfl⟩⟩
  | ok a =>
    cases doomed : (h.nest w).doomed with
    | true => exact ⟨rfl, .inr ⟨rfl, .nestedFailed, .inl rfl⟩⟩
    | false =>
      rcases h.control .commit (h.mapNest .closed w) with ⟨failure | done, after⟩
      · exact ⟨rfl, .inr ⟨rfl, .commitFailed, .inr ⟨rfl, rfl⟩⟩⟩
      · exact ⟨rfl, .inl ⟨rfl, rfl, rfl⟩⟩

namespace Transactional

variable (t : Transactional h exec sound standing effect)

include t

theorem follows_exec {w : ω} {d : δ} (s : σ) (ready : sound w) (within : (standing w).base = some d) :
    Follows h sound standing effect w (.ofStatement s (exec s w).1) (exec s w).2 := by
  have nest := t.nest_exec s w
  by_cases succeeds : (exec s w).1.isOk
  · have after := t.exec_ok ready within succeeds
    refine ⟨t.sound_exec s ready, ?_, ?_, by simp [nest, History.ofStatement]⟩
    · simp [after, History.ofStatement, succeeds, afterAll]
    · rw [after, within]
  · have after := t.exec_failed ready within succeeds
    refine ⟨t.sound_exec s ready, ?_, by rw [after], by simp [nest, History.ofStatement]⟩
    simp [after, History.ofStatement, succeeds, afterAll]

theorem follows_nested {w : ω} {history : History σ} {body : ω → Except ε β × ω}
    (inside : (h.nest w).isOpen = true)
    (ran : Follows h sound standing effect (h.mapNest .entered w) history (body (h.mapNest .entered w)).2)
    (calm : ∀ e, (body (h.mapNest .entered w)).1 = .error e → h.unwinds e = false) :
    Follows h sound standing effect w (history.append (.ofUnit (h.run body w).1)) (h.run body w).2 := by
  rcases performed : body (h.mapNest .entered w) with ⟨outcome, after⟩
  rw [performed] at ran calm
  obtain ⟨ready, content, base, nest⟩ := ran
  simp only [UnitHost.mapNest, t.standing_setNest, t.nest_setNest, Nest.entered] at content base nest
  cases outcome with
  | ok b =>
    have result : h.run body w = (.ok b, h.mapNest .left after) := by
      simp only [UnitHost.run, inside, if_true, UnitHost.runNested, performed]
    rw [result]
    refine ⟨t.sound_setNest _ ready, ?_, ?_, ?_⟩
    · simpa [UnitHost.mapNest, t.standing_setNest, History.append, History.ofUnit] using content
    · simpa [UnitHost.mapNest, t.standing_setNest] using base
    · simp [UnitHost.mapNest, t.nest_setNest, nest, Nest.left, History.append, History.ofUnit, Except.isOk,
        Except.toBool]
  | error e =>
    have result : h.run body w = (.error e, h.mapNest (Nest.spoiled ∘ Nest.left) after) := by
      simp [UnitHost.run, inside, UnitHost.runNested, performed, calm e rfl]
    rw [result]
    refine ⟨t.sound_setNest _ ready, ?_, ?_, ?_⟩
    · simpa [UnitHost.mapNest, t.standing_setNest, History.append, History.ofUnit] using content
    · simpa [UnitHost.mapNest, t.standing_setNest] using base
    · simp [UnitHost.mapNest, t.nest_setNest, nest, Nest.left, Nest.spoiled, History.append, History.ofUnit,
        Except.isOk, Except.toBool]

theorem follows_perform (s : Script σ ρ ε α) (calm : s.Calm h) {w : ω} {d : δ} (ready : sound w)
    (within : (standing w).base = some d) (inside : (h.nest w).isOpen = true) :
    Follows h sound standing effect w (s.history h exec w) (s.perform h exec w).2 ∧
      ∀ e, (s.perform h exec w).1 = .error e → h.unwinds e = false := by
  induction s generalizing w with
  | done outcome =>
    refine ⟨.refl ready, ?_⟩
    intro e failed
    cases outcome with
    | ok a => cases failed
    | error e' =>
      cases failed
      exact calm
  | statement s next ih =>
    have step := t.follows_exec s ready within
    obtain ⟨rest, quiet⟩ := ih (exec s w).1 (calm _) step.sound (step.base.trans within)
      (step.isOpen inside)
    exact ⟨step.trans rest, quiet⟩
  | nested inner next ihInner ihNext =>
    -- An inner unit never ends the transaction, failed or not, so what comes after it still runs inside.
    have entered := ihInner calm.1 (t.sound_setNest (h.nest w).entered ready)
      (by rw [t.standing_setNest]; exact within) (by simp [t.nest_setNest, Nest.entered, Nest.isOpen])
    have step := t.follows_nested inside entered.1 entered.2
    obtain ⟨rest, quiet⟩ := ihNext (h.run (inner.perform h exec) w).1 (calm.2 _) step.sound
      (step.base.trans within) (step.isOpen inside)
    have whole := step.trans rest
    rw [History.append_assoc] at whole
    exact ⟨whole, quiet⟩

theorem standing_rollBack {w : ω} {d : δ} (unit : Nat) (why : Undoing) (ready : sound w)
    (within : (standing w).base = some d) : standing (h.rollBack unit why w) = ⟨d, none⟩ := by
  have inside : h.isAutocommit w = false := by simp [t.autocommit ready, within]
  obtain ⟨succeeds, after⟩ := t.rollback_ok ready within
  unfold UnitHost.rollBack
  rcases undone : h.control .rollback w with ⟨_ | _, undoneTo⟩
  · simp [undone, Except.isOk, Except.toBool] at succeeds
  · rw [undone] at after
    simp [inside, t.standing_record, after]

theorem rollBack_of_closed {w : ω} (unit : Nat) (why : Undoing) (ready : sound w)
    (closed : (standing w).base = none) : h.rollBack unit why w = w := by
  have outside : h.isAutocommit w = true := by simp [t.autocommit ready, closed]
  simp [UnitHost.rollBack, outside]

theorem nest_rollBack (unit : Nat) (why : Undoing) (w : ω) : h.nest (h.rollBack unit why w) = h.nest w := by
  have kept := t.nest_control .rollback w
  unfold UnitHost.rollBack
  split
  · rfl
  · rcases undone : h.control .rollback w with ⟨_ | _, after⟩
    · rw [undone] at kept
      exact (t.nest_record _ _).trans kept
    · rw [undone] at kept
      exact (t.nest_record _ _).trans kept

theorem finish_accounted {w : ω} {d : δ} (unit : Nat) (body : Except ε α) (history : History σ) (ready : sound w)
    (within : (standing w).base = some d) (marked : (h.nest w).doomed = history.spoiled) :
    let account : Account σ ε α := ⟨.ok (), body, history, (h.control .commit (h.mapNest .closed w)).1⟩
    (h.finish unit body w).1 = account.outcome h unit ∧
      standing (h.finish unit body w).2 = ⟨if account.succeeds then (standing w).content else d, none⟩ ∧
      (h.nest (h.finish unit body w).2).isOpen = false := by
  intro account
  have closedReady : sound (h.mapNest .closed w) := t.sound_setNest _ ready
  have same : standing (h.mapNest .closed w) = standing w := t.standing_setNest _ _
  have closedBase : (standing (h.mapNest .closed w)).base = some d := by rw [same, within]
  have closed : (h.nest (h.mapNest .closed w)).isOpen = false := by
    simp [UnitHost.mapNest, t.nest_setNest, Nest.closed, Nest.isOpen]
  have nest := t.nest_control .commit (h.mapNest .closed w)
  obtain ⟨outcome, ended⟩ := h.finish_cases unit body history marked
  refine ⟨outcome, ?_⟩
  rcases ended with ⟨succeeds, committed, ended⟩ | ⟨fails, why, ended | ⟨refused, ended⟩⟩
  · rw [ended, succeeds, t.commit_ok closedReady closedBase committed, nest, same]
    exact ⟨rfl, closed⟩
  · rw [ended, fails, t.standing_rollBack unit why closedReady closedBase, t.nest_rollBack]
    exact ⟨rfl, closed⟩
  · have left := t.commit_failed closedReady closedBase (by simp [refused])
    have ready := t.sound_control .commit closedReady
    rw [ended, fails, t.nest_rollBack, nest]
    refine ⟨?_, closed⟩
    rcases left with kept | gone
    · exact t.standing_rollBack unit why ready ((congrArg Standing.base kept).trans closedBase)
    · rw [t.rollBack_of_closed unit why ready (by rw [gone]), gone]
      rfl

theorem runOutermost_not_begun (body : ω → Except ε α × ω) {w after : ω} {failure : Failure} (ready : sound w)
    (apart : (standing w).base = none) (begun : h.control .begin (h.mapNest .numbered w) = (.error failure, after)) :
    h.runOutermost body w = (.error (h.ofFailure failure), after) ∧ standing after = standing w ∧
      h.nest after = (h.nest w).numbered := by
  have numbered : standing (h.mapNest .numbered w) = standing w := t.standing_setNest _ _
  have same := t.begin_failed (t.sound_setNest (h.nest w).numbered ready) (by rw [t.standing_setNest, apart])
    (by rw [← UnitHost.mapNest, begun]; simp [Except.isOk, Except.toBool])
  have nest := t.nest_control .begin (h.mapNest .numbered w)
  rw [← UnitHost.mapNest, begun, numbered] at same
  rw [begun, UnitHost.mapNest, t.nest_setNest] at nest
  exact ⟨by simp [UnitHost.runOutermost, begun], same, nest⟩

theorem begun_outermost {w after : ω} (ready : sound w) (apart : (standing w).base = none)
    (begun : h.control .begin (h.mapNest .numbered w) = (.ok (), after)) :
    sound (h.mapNest .opened after) ∧
      standing (h.mapNest .opened after) = ⟨(standing w).content, some (standing w).content⟩ ∧
      (h.nest (h.mapNest .opened after)).depth = 1 ∧ (h.nest (h.mapNest .opened after)).doomed = false := by
  have numbered : standing (h.mapNest .numbered w) = standing w := t.standing_setNest _ _
  have ready : sound (h.mapNest .numbered w) := t.sound_setNest _ ready
  have kept := t.sound_control .begin ready
  have within := t.begin_ok ready (by rw [numbered, apart]) (by simp [begun, Except.isOk, Except.toBool])
  rw [begun] at kept within
  rw [numbered] at within
  refine ⟨t.sound_setNest _ kept, (t.standing_setNest _ _).trans within, ?_, ?_⟩
  · simp [UnitHost.mapNest, t.nest_setNest, Nest.opened]
  · simp [UnitHost.mapNest, t.nest_setNest, Nest.opened]

/-- What becomes of an outermost unit, whatever its body is, from what the body leaves behind once it is opened. -/
theorem runOutermost_accounts (body : ω → Except ε α × ω) (history : ω → History σ) {w : ω} (ready : sound w)
    (apart : (standing w).base = none) (idle : (h.nest w).isOpen = false)
    (runs : ∀ opened, sound opened → standing opened = ⟨(standing w).content, some (standing w).content⟩ →
      (h.nest opened).depth = 1 → (h.nest opened).doomed = false →
      sound (body opened).2 ∧ (h.nest (body opened).2).doomed = (history opened).spoiled ∧
        standing (body opened).2 =
          ⟨afterAll effect (history opened).done (standing w).content, some (standing w).content⟩) :
    let account := h.account body history w
    let ended := h.runOutermost body w
    ended.1 = account.outcome h (h.nest w).next ∧
      standing ended.2 = ⟨if account.succeeds then afterAll effect account.history.done (standing w).content
        else (standing w).content, none⟩ ∧
      (h.nest ended.2).isOpen = false := by
  rcases begun : h.control .begin (h.mapNest .numbered w) with ⟨failure | ⟨⟩, after⟩
  · obtain ⟨result, same, nest⟩ := t.runOutermost_not_begun body ready apart begun
    have none : (standing w) = ⟨(standing w).content, none⟩ := by rw [← apart]
    simp only [result, UnitHost.account, begun]
    refine ⟨rfl, same.trans none, ?_⟩
    rw [nest]
    exact idle
  · obtain ⟨inside, within, deep, unmarked⟩ := t.begun_outermost ready apart begun
    obtain ⟨left, marked, stands⟩ := runs _ inside within deep unmarked
    rcases performed : body (h.mapNest .opened after) with ⟨reply, final⟩
    rw [performed] at left marked stands
    obtain ⟨outcome, standing, closed⟩ := t.finish_accounted (h.nest w).next reply
      (history (h.mapNest .opened after)) left (by rw [stands]) marked
    have result : h.runOutermost body w = h.finish (h.nest w).next reply final := by
      simp [UnitHost.runOutermost, begun, performed]
    rw [stands] at standing
    simp only [result, UnitHost.account, begun, performed]
    exact ⟨outcome, standing, closed⟩

theorem runOutermost_accounted (s : Script σ ρ ε α) (calm : s.Calm h) {w : ω} (ready : sound w)
    (apart : (standing w).base = none) (idle : (h.nest w).isOpen = false) :
    let account := s.account h exec w
    let ended := h.runOutermost (s.perform h exec) w
    ended.1 = account.outcome h (h.nest w).next ∧
      standing ended.2 = ⟨if account.succeeds then afterAll effect account.history.done (standing w).content
        else (standing w).content, none⟩ ∧
      (h.nest ended.2).isOpen = false := by
  refine t.runOutermost_accounts (s.perform h exec) (s.history h exec) ready apart idle ?_
  intro opened inside within deep unmarked
  have isOpen : (h.nest opened).isOpen = true := by simp [Nest.isOpen, deep]
  obtain ⟨ran, -⟩ := t.follows_perform s calm inside (by rw [within]) isOpen
  refine ⟨ran.sound, ?_, ?_⟩
  · rw [ran.nest, unmarked, Bool.false_or]
  · have base := ran.base
    have content := ran.content
    rw [within] at base content
    exact congrArg₂ Standing.mk content base

/-- An outermost unit is all or nothing. It succeeds exactly when its beginning, its body, every unit inside it and
    the commit do, and then the content is the old one with every successful statement applied, in order. Else its
    error is that of what failed first, and the content is the old one. -/
theorem run_all_or_nothing (s : Script σ ρ ε α) (calm : s.Calm h) (w : ω) (ready : sound w)
    (apart : (standing w).base = none) (idle : (h.nest w).isOpen = false) :
    let account := s.account h exec w
    let ended := h.run (s.perform h exec) w
    (ended.1.isOk = true ↔ account.began.isOk = true ∧ account.body.isOk = true ∧ account.history.spoiled = false ∧
      account.committed.isOk = true) ∧
    ended.1 = account.outcome h (h.nest w).next ∧
    standing ended.2 = ⟨if ended.1.isOk then afterAll effect account.history.done (standing w).content
      else (standing w).content, none⟩ ∧
    (h.nest ended.2).isOpen = false := by
  have outermost : h.run (s.perform h exec) w = h.runOutermost (s.perform h exec) w := by
    simp [UnitHost.run, idle]
  intro account ended
  obtain ⟨result, after, closed⟩ := t.runOutermost_accounted s calm ready apart idle
  rw [← outermost] at result after closed
  have succeeds : ended.1.isOk = account.succeeds := by
    rw [← Account.isOk_outcome h (h.nest w).next account]
    exact congrArg Except.isOk result
  refine ⟨?_, result, ?_, closed⟩
  · rw [succeeds]
    simp [Account.succeeds, and_assoc]
  · rw [succeeds]
    exact after

end Transactional

end Run

open RecordMapper.Store

def freshDatabase : Database :=
  .opened ⟨⟨.empty, .make 0 true .empty⟩, .collecting⟩

def counting (command : Sql.Command) (plain : isControl command = false) : Instruction :=
  .execute command.statement (Engine.isPlain_statement plain)

def careless : Script Instruction (List (List Value) ⊕ Nat) Failure Unit :=
  let write := counting (.insert "notes" none [[.integer 1]]) rfl
  .statement (counting (.create ⟨"notes", [⟨"id", "INTEGER", true, false, none⟩], []⟩) rfl) fun _ =>
    .nested (.statement write fun _ => .statement write fun again => .done (again.map fun _ => ())) fun _ =>
      .done (.ok ())

theorem run_all_or_nothing_careless :
    let account := careless.account Database.host Instruction.perform freshDatabase
    let ended := Database.host.run (careless.perform Database.host Instruction.perform) freshDatabase
    (ended.1.isOk = true ↔ account.began.isOk = true ∧ account.body.isOk = true ∧ account.history.spoiled = false ∧
      account.committed.isOk = true) ∧
    ended.1 = account.outcome Database.host (Database.host.nest freshDatabase).next ∧
    Database.standing ended.2 = ⟨if ended.1.isOk then
        afterAll (Instruction.effect true) account.history.done (Database.standing freshDatabase).content
      else (Database.standing freshDatabase).content, none⟩ ∧
    (Database.host.nest ended.2).isOpen = false :=
  Transactional.run_all_or_nothing (Database.host_transactional true) careless
    (Script.calm_of_quiet (fun _ => rfl) careless) freshDatabase
    ⟨rfl, List.nodup_nil, fun _ _ none => (nomatch none), fun _ => rfl⟩ rfl rfl

end RecordMapper
