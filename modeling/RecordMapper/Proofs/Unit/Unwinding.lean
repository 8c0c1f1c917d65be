import RecordMapper.Proofs.Session.Histories
import RecordMapper.Proofs.Unit.Agreement
import RecordMapper.Proofs.Unit.Atomicity

namespace RecordMapper

variable {ω σ ρ ε δ α β : Type}

/-- What a body leaves behind that may hold panics up. Only an inner unit that returned an error has spoiled it. -/
structure Tally (σ : Type) extends History σ where
  unwound : Nat
  deriving DecidableEq, Repr

namespace Tally

def empty : Tally σ := ⟨.empty, 0⟩

def ofStatement (s : σ) (outcome : Except Failure ρ) : Tally σ :=
  ⟨.ofStatement s outcome, 0⟩

def ofUnit (h : UnitHost ω ε) (outcome : Except ε β) : Tally σ :=
  if h.unwound outcome then ⟨.empty, 1⟩ else ⟨.ofUnit outcome, 0⟩

def append (first later : Tally σ) : Tally σ :=
  ⟨first.toHistory.append later.toHistory, first.unwound + later.unwound⟩

theorem append_assoc (a b c : Tally σ) : (a.append b).append c = a.append (b.append c) := by
  simp [append, History.append_assoc, Nat.add_assoc]

theorem append_empty (a : Tally σ) : a.append .empty = a := by
  simp [append, empty, History.append, History.empty]

theorem empty_append (a : Tally σ) : Tally.empty.append a = a := by
  simp [append, empty, History.append, History.empty]

variable {h : UnitHost ω ε} {e : ε} (tally : Tally σ)

theorem append_succeeded (b : β) : tally.append (.ofUnit h (.ok b)) = tally := by
  simp [append, ofUnit, UnitHost.unwound, History.append, History.ofUnit, Except.isOk, Except.toBool]

theorem append_unwound (unwinds : h.unwinds e = true) :
    tally.append (.ofUnit h (.error e : Except ε β)) = { tally with unwound := tally.unwound + 1 } := by
  simp [append, ofUnit, UnitHost.unwound, unwinds, History.append, History.empty]

theorem append_returned (returns : h.unwinds e = false) :
    tally.append (.ofUnit h (.error e : Except ε β)) = { tally with spoiled := true } := by
  simp [append, ofUnit, UnitHost.unwound, returns, History.append, History.ofUnit, Except.isOk, Except.toBool]

end Tally

/-- The nest behind an inner unit, from the one that its body leaves. A unit that a panic ends is never left. -/
def UnitHost.nestBehind (h : UnitHost ω ε) (outcome : Except ε β) (n : Nest) : Nest :=
  match outcome with
  | .ok _ => n.left
  | .error e => if h.unwinds e then n else n.left.spoiled

structure Nest.Counts (n : Nest) (frames : Nat) (tally : Tally σ) : Prop where
  depth : n.depth = frames + tally.unwound
  doomed : n.doomed = tally.spoiled

section Counting

variable {n : Nest} {frames : Nat} {tally : Tally σ}

theorem Nest.Counts.entered (counts : n.Counts frames tally) : n.entered.Counts (frames + 1) tally := by
  refine ⟨?_, counts.doomed⟩
  have depth := counts.depth
  simp only [Nest.entered]
  omega

theorem Nest.Counts.behind (counts : n.Counts (frames + 1) tally) (h : UnitHost ω ε) (outcome : Except ε β) :
    (h.nestBehind outcome n).Counts frames (tally.append (.ofUnit h outcome)) := by
  obtain ⟨depth, doomed⟩ := counts
  unfold UnitHost.nestBehind
  cases outcome with
  | ok b =>
    rw [Tally.append_succeeded]
    refine ⟨?_, doomed⟩
    simp only [Nest.left]
    omega
  | error e =>
    cases unwinds : h.unwinds e with
    | true =>
      simp only [unwinds, if_true, Tally.append_unwound tally unwinds]
      refine ⟨?_, doomed⟩
      simp only []
      omega
    | false =>
      simp only [unwinds, Bool.false_eq_true, if_false, Tally.append_returned tally unwinds]
      refine ⟨?_, rfl⟩
      simp only [Nest.left, Nest.spoiled]
      omega

theorem Tally.done_append_ofUnit (tally : Tally σ) (h : UnitHost ω ε) (outcome : Except ε β) :
    (tally.append (.ofUnit h outcome)).done = tally.done := by
  simp only [append, ofUnit, History.append]
  split <;> simp [History.empty, History.ofUnit]

end Counting

structure Sight (ω σ : Type) where
  state : ω
  frames : Nat
  tally : Tally σ

namespace Script

variable (h : UnitHost ω ε) (exec : σ → ω → Except Failure ρ × ω)

def tally : {α : Type} → Script σ ρ ε α → ω → Tally σ
  | _, .done _, _ => .empty
  | _, .statement s next, w =>
    let (outcome, after) := exec s w
    (Tally.ofStatement s outcome).append ((next outcome).tally after)
  | _, .nested inner next, w =>
    let (outcome, after) := h.run (inner.perform h exec) w
    ((inner.tally (h.mapNest .entered w)).append (.ofUnit h outcome)).append ((next outcome).tally after)

/-- The moments of a body inside `frames` units, those of inner bodies included, and those behind an inner unit that a
    panic has ended. -/
def sights : {α : Type} → Script σ ρ ε α → (frames : Nat) → (before : Tally σ) → ω → List (Sight ω σ)
  | _, .done _, frames, before, w => [⟨w, frames, before⟩]
  | _, .statement s next, frames, before, w =>
    let (outcome, after) := exec s w
    ⟨w, frames, before⟩ :: (next outcome).sights frames (before.append (.ofStatement s outcome)) after
  | _, .nested inner next, frames, before, w =>
    let entered := h.mapNest .entered w
    let (outcome, after) := h.run (inner.perform h exec) w
    let since := (before.append (inner.tally h exec entered)).append (.ofUnit h outcome)
    ⟨w, frames, before⟩ :: (inner.sights (frames + 1) before entered ++ (next outcome).sights frames since after)

end Script

namespace Call

def sights (h : UnitHost ω ε) (exec : σ → ω → Except Failure ρ × ω) (call : Call σ ρ ε) (w : ω) : List (Sight ω σ) :=
  match h.control .begin (h.mapNest .numbered w) with
  | (.ok _, begun) => call.body.sights h exec 1 .empty (h.mapNest .opened begun)
  | (.error _, _) => []

def account (h : UnitHost ω ε) (exec : σ → ω → Except Failure ρ × ω) (call : Call σ ρ ε) (w : ω) :
    Account σ ε call.result :=
  h.account (call.body.perform h exec) (fun opened => (call.body.tally h exec opened).toHistory) w

end Call

/-- How a state inside `frames` units follows from `content`, from which their transaction has begun. -/
structure Midway (h : UnitHost ω ε) (sound : ω → Prop) (standing : ω → Standing δ) (effect : σ → δ → δ) (content : δ)
    (frames : Nat) (tally : Tally σ) (w : ω) : Prop where
  within : 0 < frames
  sound : sound w
  standing : standing w = ⟨afterAll effect tally.done content, some content⟩
  depth : (h.nest w).depth = frames + tally.unwound
  doomed : (h.nest w).doomed = tally.spoiled

namespace Session

variable {n : Nat} (k : Fin n) {s : Session n}

theorem standing_replace (db : Database) : Database.standing ((s.replace k db).database k) = Database.standing db :=
  congrArg (fun o : Store.Outline => Standing.mk o.content o.base) (outline_replace db)

theorem sound_replace {enforces : Bool} {db : Database} (sound : Database.Sound enforces db) :
    Database.Sound enforces ((s.replace k db).database k) := by
  rw [Database.Sound, outline_replace]
  exact sound

theorem outline_setNest (nest : Nest) :
    ((s.setHandle k { s.handle k with nest }).database k).engine.outline = (s.database k).engine.outline := by
  rw [outline_database, handle_setHandle]
  rfl

theorem host_transactional (enforces : Bool) :
    Transactional (host (ρ := ρ) k) (perform k) (fun w => Database.Sound enforces (w.1.database k))
      (fun w => Database.standing (w.1.database k)) (Instruction.effect enforces) := by
  have own := Database.host_transactional enforces
  have obedient : Obedient (host (ρ := ρ) k) (perform k) := host_obedient k
  refine ⟨obedient.nest_setNest, obedient.nest_record, obedient.nest_control, obedient.nest_exec, ?_, ?_, ?_, ?_, ?_, ?_,
    ?_, ?_, ?_, ?_, ?_, ?_, ?_, ?_⟩
  · intro nest w
    exact congrArg (fun o : Store.Outline => Standing.mk o.content o.base) (outline_setNest k nest)
  · intro e w
    exact standing_replace k _
  · intro w nest sound
    have same := outline_setNest (s := w.1) k nest
    exact same.symm.subst (motive := Store.Outline.Sound enforces) sound
  · intro w e sound
    exact sound_replace k sound
  · intro w c sound
    exact sound_replace k (own.sound_control c sound)
  · intro w r sound
    exact sound_replace k (own.sound_exec r sound)
  · intro w sound
    exact own.autocommit sound
  · intro w sound apart succeeds
    exact (standing_replace k _).trans (own.begin_ok sound apart succeeds)
  · intro w sound apart failed
    exact (standing_replace k _).trans (own.begin_failed sound apart failed)
  · intro w d r sound within succeeds
    exact (standing_replace k _).trans (own.exec_ok sound within succeeds)
  · intro w d r sound within failed
    exact (standing_replace k _).trans (own.exec_failed sound within failed)
  · intro w d sound within succeeds
    exact (standing_replace k _).trans (own.commit_ok sound within succeeds)
  · intro w d sound within failed
    exact (own.commit_failed sound within failed).imp (standing_replace k _).trans (standing_replace k _).trans
  · intro w d sound within
    exact ⟨(own.rollback_ok sound within).1, (standing_replace k _).trans (own.rollback_ok sound within).2⟩

end Session

section Unwinding

variable {h : UnitHost ω ε} {exec : σ → ω → Except Failure ρ × ω} {sound : ω → Prop} {standing : ω → Standing δ}
  {effect : σ → δ → δ} {content : δ} {frames : Nat} {tally : Tally σ} {w : ω}

theorem Midway.opened (ready : sound w) (within : standing w = ⟨content, some content⟩) (deep : (h.nest w).depth = 1)
    (unmarked : (h.nest w).doomed = false) : Midway h sound standing effect content 1 .empty w :=
  ⟨Nat.one_pos, ready, within, deep, unmarked⟩

theorem Midway.isOpen (midway : Midway h sound standing effect content frames tally w) : (h.nest w).isOpen = true := by
  have within := midway.within
  have depth := midway.depth
  simp only [Nest.isOpen, decide_eq_true_eq]
  omega

theorem Midway.phase (midway : Midway h sound standing effect content frames tally w) :
    (h.nest w).phase = if tally.spoiled then .doomed else .active := by
  simp [Nest.phase, midway.isOpen, midway.doomed]

namespace Transactional

variable (t : Transactional h exec sound standing effect)

include t

theorem midway_exec (s : σ) (before : Midway h sound standing effect content frames tally w) :
    Midway h sound standing effect content frames (tally.append (.ofStatement s (exec s w).1)) (exec s w).2 := by
  have within : (standing w).base = some content := by rw [before.standing]
  have same := t.nest_exec s w
  refine ⟨before.within, t.sound_exec s before.sound, ?_, by rw [same]; exact before.depth, ?_⟩
  · by_cases succeeds : (exec s w).1.isOk
    · rw [t.exec_ok before.sound within succeeds, before.standing]
      simp [Tally.append, Tally.ofStatement, History.append, History.ofStatement, succeeds, afterAll]
    · rw [t.exec_failed before.sound within succeeds, before.standing]
      simp [Tally.append, Tally.ofStatement, History.append, History.ofStatement, succeeds]
  · rw [same, before.doomed]
    simp [Tally.append, Tally.ofStatement, History.append, History.ofStatement]

theorem midway_entered (before : Midway h sound standing effect content frames tally w) :
    Midway h sound standing effect content (frames + 1) tally (h.mapNest .entered w) := by
  have counts : (h.nest w).entered.Counts (frames + 1) tally := Nest.Counts.entered ⟨before.depth, before.doomed⟩
  refine ⟨Nat.succ_pos frames, t.sound_setNest _ before.sound, (t.standing_setNest _ _).trans before.standing, ?_, ?_⟩
  · rw [UnitHost.mapNest, t.nest_setNest, counts.depth]
  · rw [UnitHost.mapNest, t.nest_setNest, counts.doomed]

theorem runNested_behind (body : ω → Except ε β × ω) (w : ω) :
    let ended := body (h.mapNest .entered w)
    (h.runNested body w).1 = ended.1 ∧
      h.nest (h.runNested body w).2 = h.nestBehind ended.1 (h.nest ended.2) ∧
      standing (h.runNested body w).2 = standing ended.2 ∧
      (sound ended.2 → sound (h.runNested body w).2) := by
  unfold UnitHost.runNested UnitHost.nestBehind
  rcases body (h.mapNest .entered w) with ⟨e | b, after⟩
  · cases unwinds : h.unwinds e with
    | true =>
      simp only [unwinds, if_true]
      exact ⟨trivial, trivial, trivial, id⟩
    | false =>
      simp only [unwinds, Bool.false_eq_true, if_false]
      exact ⟨trivial, t.nest_setNest _ _, t.standing_setNest _ _, t.sound_setNest _⟩
  · exact ⟨rfl, t.nest_setNest _ _, t.standing_setNest _ _, t.sound_setNest _⟩

theorem midway_left {body : ω → Except ε β × ω} (some : 0 < frames)
    (ended : Midway h sound standing effect content (frames + 1) tally (body (h.mapNest .entered w)).2) :
    Midway h sound standing effect content frames (tally.append (.ofUnit h (h.runNested body w).1))
      (h.runNested body w).2 := by
  obtain ⟨result, nest, stands, kept⟩ := t.runNested_behind body w
  have counts := Nest.Counts.behind ⟨ended.depth, ended.doomed⟩ h (body (h.mapNest .entered w)).1
  rw [← nest] at counts
  rw [result]
  refine ⟨some, kept ended.sound, ?_, counts.depth, counts.doomed⟩
  rw [stands, Tally.done_append_ofUnit]
  exact ended.standing

/-- What a body does inside `frames` units is what its tally says, whether or not it holds panics up. -/
theorem midway_perform (s : Script σ ρ ε α)
    (before : Midway h sound standing effect content frames tally w) :
    Midway h sound standing effect content frames (tally.append (s.tally h exec w)) (s.perform h exec w).2 ∧
      ∀ m ∈ s.sights h exec frames tally w, Midway h sound standing effect content m.frames m.tally m.state := by
  induction s generalizing w frames tally with
  | done outcome =>
    refine ⟨?_, ?_⟩
    · simpa only [Script.tally, Script.perform, Tally.append_empty] using before
    · intro m member
      rw [List.mem_singleton.1 member]
      exact before
  | statement s next ih =>
    obtain ⟨rest, seen⟩ := ih (exec s w).1 (t.midway_exec s before)
    rw [Tally.append_assoc] at rest
    refine ⟨rest, ?_⟩
    intro m member
    rcases List.mem_cons.1 member with rfl | later
    · exact before
    · exact seen m later
  | nested inner next ihInner ihNext =>
    obtain ⟨within, seenInner⟩ := ihInner (t.midway_entered before)
    have left := t.midway_left before.within within
    rw [← run_inside before.isOpen] at left
    obtain ⟨rest, seenNext⟩ := ihNext _ left
    refine ⟨?_, ?_⟩
    · rw [Tally.append_assoc, Tally.append_assoc, ← Tally.append_assoc (inner.tally _ _ _)] at rest
      exact rest
    · intro m member
      rcases List.mem_cons.1 member with rfl | member
      · exact before
      · rcases List.mem_append.1 member with early | later
        · exact seenInner m early
        · exact seenNext m later

theorem sights_midway (call : Call σ ρ ε) (ready : sound w) (apart : (standing w).base = none) :
    ∀ m ∈ call.sights h exec w, Midway h sound standing effect (standing w).content m.frames m.tally m.state := by
  intro m member
  unfold Call.sights at member
  rcases begun : h.control .begin (h.mapNest .numbered w) with ⟨failure | ⟨⟩, after⟩ <;> rw [begun] at member
  · cases member
  · obtain ⟨sound, within, deep, unmarked⟩ := t.begun_outermost ready apart begun
    exact (t.midway_perform call.body (.opened sound within deep unmarked)).2 m member

theorem runOutermost_unwinding (call : Call σ ρ ε) (ready : sound w) (apart : (standing w).base = none)
    (idle : (h.nest w).isOpen = false) :
    let account := call.account h exec w
    let ended := h.runOutermost (call.body.perform h exec) w
    ended.1 = account.outcome h (h.nest w).next ∧
      standing ended.2 = ⟨if account.succeeds then afterAll effect account.history.done (standing w).content
        else (standing w).content, none⟩ ∧
      (h.nest ended.2).isOpen = false := by
  apply t.runOutermost_accounts _ _ ready apart idle
  intro opened sound within deep unmarked
  have left := (t.midway_perform call.body (.opened sound within deep unmarked)).1
  rw [Tally.empty_append] at left
  exact ⟨left.sound, left.doomed, left.standing⟩

/-- A panic that is held up inside an outermost unit leaves no mark. At every moment the transaction is open, with what
    the statements so far have done, units that panicked included; the nest is deeper than the units in progress by as
    many as a panic has ended; and it is doomed only if an inner unit has returned an error. The outermost unit succeeds,
    and keeps all of that, exactly when it can begin, its body succeeds, no inner unit has returned an error and the
    commit succeeds. Else the content is the old one, and in any case no unit stays open. -/
theorem run_unwinding (call : Call σ ρ ε) (w : ω) (ready : sound w) (apart : (standing w).base = none)
    (idle : (h.nest w).isOpen = false) :
    let account := call.account h exec w
    let ended := call.perform h exec w
    (∀ m ∈ call.sights h exec w, h.isAutocommit m.state = false ∧
      (h.nest m.state).depth = m.frames + m.tally.unwound ∧
      (h.nest m.state).phase = (if m.tally.spoiled then .doomed else .active) ∧
      (standing m.state).content = afterAll effect m.tally.done (standing w).content) ∧
    (ended.1.isOk = true ↔ account.began.isOk = true ∧ account.body.isOk = true ∧ account.history.spoiled = false ∧
      account.committed.isOk = true) ∧
    ended.1 = account.outcome h (h.nest w).next ∧
    standing ended.2 = ⟨if ended.1.isOk then afterAll effect account.history.done (standing w).content
      else (standing w).content, none⟩ ∧
    (h.nest ended.2).depth = 0 := by
  have outermost : call.perform h exec w = h.runOutermost (call.body.perform h exec) w := by
    simp [Call.perform, UnitHost.run, idle]
  intro account ended
  obtain ⟨result, after, closed⟩ := t.runOutermost_unwinding call ready apart idle
  rw [← outermost] at result after closed
  have succeeds : ended.1.isOk = account.succeeds := by
    rw [← Account.isOk_outcome h (h.nest w).next account]
    exact congrArg Except.isOk result
  refine ⟨?_, ?_, result, ?_, ?_⟩
  · intro m member
    have midway := t.sights_midway call ready apart m member
    refine ⟨?_, midway.depth, midway.phase, ?_⟩
    · rw [t.autocommit midway.sound, midway.standing]
      rfl
    · rw [midway.standing]
  · rw [succeeds]
    exact Account.succeeds_iff
  · rw [succeeds]
    exact after
  · simpa [Nest.isOpen] using closed

end Transactional

end Unwinding

section Sessions

open RecordMapper.Store

def lenient : Script Instruction (List (List Value) ⊕ Nat) Interruption Unit :=
  .statement (asking (.create notesTable) (isControl_create notesTable)) fun _ =>
    .nested (β := Unit)
      (.statement (asking (.insert "notes" none [[.integer 1]]) (isControl_insert _ _ _)) fun _ => .done (.error .panicked))
      fun _ => .done (.ok ())

def lenientCall : Call Instruction (List (List Value) ⊕ Nat) Interruption :=
  ⟨Unit, lenient⟩

theorem run_unwinding_lenient :
    let h : UnitHost (Session 1 × Unit) Interruption := Session.host 0
    let exec := Session.perform 0
    let w := (loneSession, ())
    let account := lenientCall.account h exec w
    let ended := lenientCall.perform h exec w
    let before := (Database.standing (w.1.database 0)).content
    Database.Sound true (w.1.database 0) ∧ (Database.standing (w.1.database 0)).base = none ∧ (h.nest w).isOpen = false ∧
    (∀ m ∈ lenientCall.sights h exec w, h.isAutocommit m.state = false ∧
      (h.nest m.state).depth = m.frames + m.tally.unwound ∧
      (h.nest m.state).phase = (if m.tally.spoiled then .doomed else .active) ∧
      (Database.standing (m.state.1.database 0)).content = afterAll (Instruction.effect true) m.tally.done before) ∧
    (ended.1.isOk = true ↔ account.began.isOk = true ∧ account.body.isOk = true ∧ account.history.spoiled = false ∧
      account.committed.isOk = true) ∧
    ended.1 = account.outcome h (h.nest w).next ∧
    Database.standing (ended.2.1.database 0) =
      ⟨if ended.1.isOk then afterAll (Instruction.effect true) account.history.done before else before, none⟩ ∧
    (h.nest ended.2).depth = 0 := by
  have sound : Database.Sound true (loneSession.database 0) :=
    ⟨rfl, List.nodup_nil, fun _ _ none => (nomatch none), fun _ => rfl⟩
  exact ⟨sound, rfl, rfl, (Session.host_transactional 0 true).run_unwinding lenientCall (loneSession, ()) sound rfl rfl⟩

/-- Behind the panic the depth is two inside one unit and nothing is marked, and the outermost unit commits the row of
    the unit that panicked. -/
theorem panic_leaves_no_mark :
    let h : UnitHost (Session 1 × Unit) Interruption := Session.host 0
    let exec := Session.perform 0
    let ended := lenientCall.perform h exec (loneSession, ())
    (∃ m ∈ lenientCall.sights h exec (loneSession, ()), m.tally.unwound = 1 ∧ m.frames = 1 ∧
      (h.nest m.state).depth = 2 ∧ (h.nest m.state).phase = .active) ∧
    ended.1.isOk = true ∧ ((ended.2.1.content 0).tables.map fun t => t.rows) = [[⟨1, [.integer 1]⟩]] := by
  decide +kernel

end Sessions

end RecordMapper
