import RecordMapper.Proofs.Unit.Obedient
import RecordMapper.Proofs.Unit.Script

namespace RecordMapper

variable {ω σ ρ ε α β : Type}

/-- A moment at which other code than that of units themselves runs: how many units are in progress, and whether one
    inside the outermost has ended with an error. -/
structure Moment (ω : Type) where
  state : ω
  frames : Nat
  failed : Bool

structure Moment.Agrees (h : UnitHost ω ε) (m : Moment ω) : Prop where
  autocommit : h.isAutocommit m.state = false ↔ 0 < (h.nest m.state).depth
  depth : (h.nest m.state).depth = m.frames
  phase : (h.nest m.state).phase = .doomed ↔ m.failed = true

namespace UnitHost

def unwound (h : UnitHost ω ε) : Except ε α → Bool
  | .ok _ => false
  | .error e => h.unwinds e

/-- A host that also writes down which of its commands to begin or end a transaction have succeeded. -/
def recording (h : UnitHost ω ε) : UnitHost (ω × List Control) ε where
  nest w := h.nest w.1
  setNest n w := (h.setNest n w.1, w.2)
  control c w :=
    let (outcome, after) := h.control c w.1
    (outcome, after, if outcome.isOk then w.2 ++ [c] else w.2)
  isAutocommit w := h.isAutocommit w.1
  record e w := (h.record e w.1, w.2)
  ofFailure := h.ofFailure
  unwinds := h.unwinds

end UnitHost

def recorded (exec : σ → ω → Except Failure ρ × ω) (s : σ) (w : ω × List Control) :
    Except Failure ρ × ω × List Control :=
  let (outcome, after) := exec s w.1
  (outcome, after, w.2)

namespace Script

def PassesPanics (h : UnitHost ω ε) : {α : Type} → Script σ ρ ε α → Prop
  | _, .done _ => True
  | _, .statement _ next => ∀ outcome, (next outcome).PassesPanics h
  | _, .nested inner next => inner.PassesPanics h ∧ ∀ outcome, (next outcome).PassesPanics h ∧
      (h.unwound outcome = true → ∃ e, next outcome = .done (.error e) ∧ h.unwinds e = true)

variable (h : UnitHost ω ε) (exec : σ → ω → Except Failure ρ × ω)

/-- The moments of a body inside `frames` units, those of inner bodies included. Behind an inner unit that unwinds
    there are none. -/
def moments : {α : Type} → Script σ ρ ε α → (frames : Nat) → (failed : Bool) → ω → List (Moment ω)
  | _, .done _, frames, failed, w => [⟨w, frames, failed⟩]
  | _, .statement s next, frames, failed, w =>
    let (outcome, after) := exec s w
    ⟨w, frames, failed⟩ :: (next outcome).moments frames failed after
  | _, .nested inner next, frames, failed, w =>
    let entered := h.mapNest .entered w
    let (outcome, after) := h.run (inner.perform h exec) w
    let failedBy := failed || (inner.history h exec entered).spoiled || !outcome.isOk
    ⟨w, frames, failed⟩ :: (inner.moments (frames + 1) failed entered ++
      if h.unwound outcome then [] else (next outcome).moments frames failedBy after)

end Script

structure Call (σ ρ ε : Type) where
  result : Type
  body : Script σ ρ ε result

namespace Call

variable (h : UnitHost ω ε) (exec : σ → ω → Except Failure ρ × ω)

def perform (call : Call σ ρ ε) (w : ω) : Except ε call.result × ω :=
  h.run (call.body.perform h exec) w

def moments (call : Call σ ρ ε) (w : ω) : List (Moment ω) :=
  match h.control .begin (h.mapNest .numbered w) with
  | (.ok _, begun) => call.body.moments h exec 1 false (h.mapNest .opened begun)
  | (.error _, _) => []

/-- The pair of commands that a unit leaves if it could begin: it commits exactly when it succeeds. -/
def controls (call : Call σ ρ ε) (w : ω) : List Control :=
  if (h.control .begin (h.mapNest .numbered w)).1.isOk then
    [.begin, if (call.perform h exec w).1.isOk then .commit else .rollback]
  else []

def performAll : List (Call σ ρ ε) → ω → ω
  | [], w => w
  | call :: calls, w => performAll calls (call.perform h exec w).2

def momentsAll : List (Call σ ρ ε) → ω → List (Moment ω)
  | [], w => [⟨w, 0, false⟩]
  | call :: calls, w => ⟨w, 0, false⟩ :: (call.moments h exec w ++ momentsAll calls (call.perform h exec w).2)

def controlsAll : List (Call σ ρ ε) → ω → List Control
  | [], _ => []
  | call :: calls, w => call.controls h exec w ++ controlsAll calls (call.perform h exec w).2

end Call

structure Inside (h : UnitHost ω ε) (frames : Nat) (failed : Bool) (w : ω) : Prop where
  some : 0 < frames
  autocommit : h.isAutocommit w = false
  depth : (h.nest w).depth = frames
  doomed : (h.nest w).doomed = failed

/-- What a body leaves behind inside a transaction that it cannot end: unless it unwinds, the nest as it was. -/
structure Left (h : UnitHost ω ε) (frames : Nat) (failed : Bool) (ended : Except ε α × ω) : Prop where
  autocommit : h.isAutocommit ended.2 = false
  inside : h.unwound ended.1 = false → Inside h frames failed ended.2

structure Outside (h : UnitHost ω ε) (w : ω) : Prop where
  autocommit : h.isAutocommit w = true
  depth : (h.nest w).depth = 0

section States

variable {h : UnitHost ω ε} {w : ω} {frames : Nat} {failed : Bool}

theorem Nest.phase_eq_idle_iff {n : Nest} : n.phase = .idle ↔ n.depth = 0 := by
  unfold Nest.phase Nest.isOpen
  cases n.doomed <;> simp

theorem Inside.isOpen (inside : Inside h frames failed w) : (h.nest w).isOpen = true := by
  simpa [Nest.isOpen, inside.depth] using inside.some

theorem Inside.agrees (inside : Inside h frames failed w) : Moment.Agrees h ⟨w, frames, failed⟩ where
  autocommit := by simp [inside.autocommit, inside.depth, inside.some]
  depth := inside.depth
  phase := by
    cases failed
    · simp [Nest.phase, inside.isOpen, inside.doomed]
    · simp [Nest.phase, inside.isOpen, inside.doomed]

theorem Outside.idle (outside : Outside h w) : (h.nest w).phase = .idle :=
  Nest.phase_eq_idle_iff.2 outside.depth

theorem Outside.agrees (outside : Outside h w) : Moment.Agrees h ⟨w, 0, false⟩ where
  autocommit := by simp [outside.autocommit, outside.depth]
  depth := outside.depth
  phase := by simp [outside.idle]

theorem run_inside (isOpen : (h.nest w).isOpen = true) (body : ω → Except ε α × ω) : h.run body w = h.runNested body w := by
  simp [UnitHost.run, isOpen]

theorem run_outside (outside : Outside h w) (body : ω → Except ε α × ω) : h.run body w = h.runOutermost body w := by
  simp [UnitHost.run, Nest.isOpen, outside.depth]

end States

namespace Obedient

variable {h : UnitHost ω ε} {exec : σ → ω → Except Failure ρ × ω} (o : Obedient h exec)

include o

theorem inside_mapNest {w : ω} {f : Nest → Nest} {frames : Nat} (some : 0 < frames)
    (within : h.isAutocommit w = false) (depth : (f (h.nest w)).depth = frames) :
    Inside h frames (f (h.nest w)).doomed (h.mapNest f w) where
  some := some
  autocommit := (o.autocommit_setNest _ _).trans within
  depth := by rw [UnitHost.mapNest, o.nest_setNest, depth]
  doomed := by rw [UnitHost.mapNest, o.nest_setNest]

theorem inside_exec {w : ω} {frames : Nat} {failed : Bool} (s : σ) (inside : Inside h frames failed w) :
    Inside h frames failed (exec s w).2 where
  some := inside.some
  autocommit := (o.autocommit_exec s w).trans inside.autocommit
  depth := by rw [o.nest_exec, inside.depth]
  doomed := by rw [o.nest_exec, inside.doomed]

theorem inside_entered {w : ω} {frames : Nat} {failed : Bool} (inside : Inside h frames failed w) :
    Inside h (frames + 1) failed (h.mapNest .entered w) := by
  have entered := o.inside_mapNest (f := Nest.entered) (Nat.succ_pos frames) inside.autocommit
    (by rw [Nest.entered, inside.depth])
  rwa [Nest.entered, inside.doomed] at entered

theorem left_nested {w : ω} {frames : Nat} {failed failedBy : Bool} {body : ω → Except ε α × ω}
    (inside : Inside h frames failed w) (left : Left h (frames + 1) failedBy (body (h.mapNest .entered w))) :
    Left h frames (failedBy || !(h.run body w).1.isOk) (h.run body w) := by
  rw [run_inside inside.isOpen]
  rcases performed : body (h.mapNest .entered w) with ⟨outcome, after⟩
  rw [performed] at left
  cases outcome with
  | ok a =>
    have result : h.runNested body w = (.ok a, h.mapNest .left after) := by
      simp only [UnitHost.runNested, performed]
    have within := left.inside rfl
    rw [result]
    refine ⟨(o.autocommit_setNest _ _).trans left.autocommit, fun _ => ?_⟩
    have closed := o.inside_mapNest (f := Nest.left) inside.some left.autocommit
      (by rw [Nest.left, within.depth, Nat.add_sub_cancel])
    simpa [Nest.left, within.doomed, Except.isOk, Except.toBool] using closed
  | error e =>
    cases unwinds : h.unwinds e with
    | true =>
      have result : h.runNested body w = (.error e, after) := by
        simp only [UnitHost.runNested, performed, unwinds, if_true]
      rw [result]
      exact ⟨left.autocommit, fun none => by simp [UnitHost.unwound, unwinds] at none⟩
    | false =>
      have result : h.runNested body w = (.error e, h.mapNest (Nest.spoiled ∘ Nest.left) after) := by
        simp [UnitHost.runNested, performed, unwinds]
      have within := left.inside unwinds
      rw [result]
      refine ⟨(o.autocommit_setNest _ _).trans left.autocommit, fun _ => ?_⟩
      have closed := o.inside_mapNest (f := Nest.spoiled ∘ Nest.left) inside.some left.autocommit
        (by rw [Function.comp_apply, Nest.spoiled, Nest.left, within.depth, Nat.add_sub_cancel])
      simpa [Nest.spoiled, Except.isOk, Except.toBool] using closed

/-- A body leaves the transaction open, and at each of its moments the nest and the engine agree. -/
theorem perform_agrees (s : Script σ ρ ε α) (passes : s.PassesPanics h) {w : ω} {frames : Nat} {failed : Bool}
    (inside : Inside h frames failed w) :
    Left h frames (failed || (s.history h exec w).spoiled) (s.perform h exec w) ∧
      ∀ m ∈ s.moments h exec frames failed w, m.Agrees h := by
  induction s generalizing w frames failed with
  | done outcome =>
    refine ⟨⟨inside.autocommit, fun _ => ?_⟩, ?_⟩
    · simpa [Script.perform, Script.history, History.empty] using inside
    · simpa [Script.moments] using inside.agrees
  | statement s next ih =>
    obtain ⟨left, agree⟩ := ih (exec s w).1 (passes _) (o.inside_exec s inside)
    refine ⟨?_, ?_⟩
    · simpa [Script.perform, Script.history, History.append, History.ofStatement] using left
    · intro m member
      rcases List.mem_cons.1 member with rfl | later
      · exact inside.agrees
      · exact agree m later
  | nested inner next ihInner ihNext =>
    obtain ⟨passesInner, passesNext⟩ := passes
    obtain ⟨leftInner, agreeInner⟩ := ihInner passesInner (o.inside_entered inside)
    have left := o.left_nested inside leftInner
    obtain ⟨passesLater, taken⟩ := passesNext (h.run (inner.perform h exec) w).1
    cases unwound : h.unwound (h.run (inner.perform h exec) w).1 with
    | true =>
      -- The body has nothing left to do but to unwind as well, so nothing is claimed of the nest.
      obtain ⟨e, last, unwinds⟩ := taken unwound
      refine ⟨⟨?_, fun none => ?_⟩, ?_⟩
      · simpa only [Script.perform, last] using left.autocommit
      · simp [Script.perform, last, UnitHost.unwound, unwinds] at none
      · intro m member
        simp only [Script.moments, unwound, if_true, List.append_nil] at member
        rcases List.mem_cons.1 member with rfl | within
        · exact inside.agrees
        · exact agreeInner m within
    | false =>
      obtain ⟨leftNext, agreeNext⟩ := ihNext _ passesLater (left.inside unwound)
      refine ⟨?_, ?_⟩
      · simpa [Script.perform, Script.history, History.append, History.ofUnit, Bool.or_assoc] using leftNext
      · intro m member
        simp only [Script.moments, unwound, Bool.false_eq_true, if_false] at member
        rcases List.mem_cons.1 member with rfl | within
        · exact inside.agrees
        · rcases List.mem_append.1 within with within | later
          · exact agreeInner m within
          · exact agreeNext m later

theorem outside_rollBack {w : ω} (unit : Nat) (why : Undoing) (within : h.isAutocommit w = false)
    (closed : (h.nest w).depth = 0) : Outside h (h.rollBack unit why w) := by
  obtain ⟨succeeds, after⟩ := o.rollback_open within
  have nest := o.nest_control .rollback w
  rcases undone : h.control .rollback w with ⟨failure | done, left⟩
  · simp [undone, Except.isOk, Except.toBool] at succeeds
  · rw [undone] at after nest
    have result : h.rollBack unit why w = h.record (UnitHost.undoneEvent unit why) left := by
      simp [UnitHost.rollBack, within, undone]
    rw [result]
    exact ⟨(o.autocommit_record _ _).trans after, by rw [o.nest_record, nest, closed]⟩

theorem outside_finish {w : ω} (unit : Nat) (outcome : Except ε α) (within : h.isAutocommit w = false) :
    Outside h (h.finish unit outcome w).2 := by
  have still : h.isAutocommit (h.mapNest .closed w) = false := (o.autocommit_setNest _ _).trans within
  have closed : (h.nest (h.mapNest .closed w)).depth = 0 := by
    rw [UnitHost.mapNest, o.nest_setNest, Nest.closed]
  have committed := o.autocommit_commit (h.mapNest .closed w)
  have nest := o.nest_control .commit (h.mapNest .closed w)
  unfold UnitHost.finish
  cases outcome with
  | error e => exact o.outside_rollBack _ _ still closed
  | ok a =>
    simp only []
    split
    · exact o.outside_rollBack _ _ still closed
    · rcases ended : h.control .commit (h.mapNest .closed w) with ⟨failure | done, after⟩
      · rw [ended] at committed nest
        exact o.outside_rollBack _ _ (committed.trans still) ((congrArg Nest.depth nest).trans closed)
      · rw [ended] at committed nest
        exact ⟨committed, (congrArg Nest.depth nest).trans closed⟩

theorem perform_outermost (call : Call σ ρ ε) (passes : call.body.PassesPanics h) {w : ω} (outside : Outside h w) :
    Outside h (call.perform h exec w).2 ∧ ∀ m ∈ call.moments h exec w, m.Agrees h := by
  have numbered : h.isAutocommit (h.mapNest .numbered w) = true :=
    (o.autocommit_setNest _ _).trans outside.autocommit
  have began := o.autocommit_begin (h.mapNest .numbered w)
  have nest := o.nest_control .begin (h.mapNest .numbered w)
  rw [UnitHost.mapNest, o.nest_setNest, ← UnitHost.mapNest] at nest
  rw [Call.perform, run_outside outside]
  unfold UnitHost.runOutermost Call.moments
  rcases begun : h.control .begin (h.mapNest .numbered w) with ⟨failure | done, after⟩
  · rw [begun] at began nest
    refine ⟨⟨began.trans numbered, ?_⟩, fun m none => (nomatch none)⟩
    rw [nest]
    exact outside.depth
  · rw [begun] at began
    have inside : Inside h 1 false (h.mapNest .opened after) :=
      o.inside_mapNest (f := Nest.opened) Nat.one_pos began rfl
    obtain ⟨left, agree⟩ := o.perform_agrees call.body passes inside
    exact ⟨o.outside_finish _ _ left.autocommit, agree⟩

end Obedient

section Recording

variable {h : UnitHost ω ε} {exec : σ → ω → Except Failure ρ × ω}

theorem recording_mapNest (f : Nest → Nest) (w : ω) (issued : List Control) :
    h.recording.mapNest f (w, issued) = (h.mapNest f w, issued) := rfl

theorem recording_control (c : Control) (w : ω) (issued : List Control) :
    h.recording.control c (w, issued) =
      ((h.control c w).1, (h.control c w).2, if (h.control c w).1.isOk then issued ++ [c] else issued) := rfl

theorem Obedient.depth_le_perform (o : Obedient h exec) (s : Script σ ρ ε α) {w : ω}
    (isOpen : (h.nest w).isOpen = true) : (h.nest w).depth ≤ (h.nest (s.perform h exec w).2).depth := by
  induction s generalizing w with
  | done outcome => exact Nat.le_refl _
  | statement s next ih =>
    have nest := o.nest_exec s w
    have rest := ih (exec s w).1 (w := (exec s w).2) (by rw [nest, isOpen])
    rwa [nest] at rest
  | nested inner next ihInner ihNext =>
    have entered : (h.nest (h.mapNest .entered w)).depth = (h.nest w).depth + 1 := by
      rw [UnitHost.mapNest, o.nest_setNest, Nest.entered]
    have within := ihInner (w := h.mapNest .entered w) (by simp [Nest.isOpen, entered])
    have after : (h.nest w).depth ≤ (h.nest (h.run (inner.perform h exec) w).2).depth := by
      rw [run_inside isOpen]
      unfold UnitHost.runNested
      rcases performed : inner.perform h exec (h.mapNest .entered w) with ⟨_ | _, left⟩
      · rw [performed, entered] at within
        simp only []
        split
        · exact Nat.le_of_succ_le within
        · rw [UnitHost.mapNest, o.nest_setNest]
          exact Nat.le_sub_one_of_lt within
      · rw [performed, entered] at within
        simp only [UnitHost.mapNest, o.nest_setNest]
        exact Nat.le_sub_one_of_lt within
    have still : (h.nest (h.run (inner.perform h exec) w).2).isOpen = true := by
      have some : 0 < (h.nest w).depth := by simpa [Nest.isOpen] using isOpen
      simpa [Nest.isOpen] using Nat.lt_of_lt_of_le some after
    exact Nat.le_trans after (ihNext _ still)

theorem recording_runNested {body : ω → Except ε α × ω} {recordedBody : ω × List Control → Except ε α × ω × List Control}
    {w : ω} {issued : List Control}
    (same : recordedBody (h.mapNest .entered w, issued) =
      ((body (h.mapNest .entered w)).1, (body (h.mapNest .entered w)).2, issued)) :
    h.recording.runNested recordedBody (w, issued) = ((h.runNested body w).1, (h.runNested body w).2, issued) := by
  unfold UnitHost.runNested
  rw [recording_mapNest, same]
  rcases body (h.mapNest .entered w) with ⟨e | a, after⟩
  · have unwinds : h.recording.unwinds e = h.unwinds e := rfl
    simp only [recording_mapNest, unwinds]
    split <;> rfl
  · rfl

theorem Obedient.recording_perform (o : Obedient h exec) (s : Script σ ρ ε α) {w : ω} (issued : List Control)
    (isOpen : (h.nest w).isOpen = true) :
    s.perform h.recording (recorded exec) (w, issued) = ((s.perform h exec w).1, (s.perform h exec w).2, issued) := by
  induction s generalizing w with
  | done outcome => rfl
  | statement s next ih => exact ih (exec s w).1 (w := (exec s w).2) (by rw [o.nest_exec, isOpen])
  | nested inner next ihInner ihNext =>
    have entered : (h.nest (h.mapNest .entered w)).isOpen = true := by
      simp [UnitHost.mapNest, o.nest_setNest, Nest.entered, Nest.isOpen]
    have inside : h.recording.run (inner.perform h.recording (recorded exec)) (w, issued) =
        ((h.run (inner.perform h exec) w).1, (h.run (inner.perform h exec) w).2, issued) := by
      rw [run_inside isOpen, run_inside (h := h.recording) (w := (w, issued)) isOpen]
      exact recording_runNested (ihInner entered)
    have still : (h.nest (h.run (inner.perform h exec) w).2).isOpen = true := by
      have deep : (h.nest w).depth ≤ (h.nest (h.run (inner.perform h exec) w).2).depth :=
        o.depth_le_perform (.nested inner fun outcome => .done outcome) isOpen
      have some : 0 < (h.nest w).depth := by simpa [Nest.isOpen] using isOpen
      simpa [Nest.isOpen] using Nat.lt_of_lt_of_le some deep
    rw [Script.perform, Script.perform, inside]
    exact ihNext _ still

theorem Obedient.recording_rollBack (o : Obedient h exec) {w : ω} (unit : Nat) (why : Undoing) (issued : List Control)
    (within : h.isAutocommit w = false) :
    h.recording.rollBack unit why (w, issued) = (h.rollBack unit why w, issued ++ [.rollback]) := by
  obtain ⟨succeeds, -⟩ := o.rollback_open within
  rcases undone : h.control .rollback w with ⟨failure | done, left⟩
  · simp [undone, Except.isOk, Except.toBool] at succeeds
  · simp [UnitHost.rollBack, UnitHost.recording, within, undone, Except.isOk, Except.toBool]

theorem Obedient.recording_finish (o : Obedient h exec) {w : ω} (unit : Nat) (outcome : Except ε α)
    (issued : List Control) (within : h.isAutocommit w = false) :
    h.recording.finish unit outcome (w, issued) =
      ((h.finish unit outcome w).1, (h.finish unit outcome w).2,
        issued ++ [if (h.finish unit outcome w).1.isOk then .commit else .rollback]) := by
  have still : h.isAutocommit (h.mapNest .closed w) = false := (o.autocommit_setNest _ _).trans within
  have committed := o.autocommit_commit (h.mapNest .closed w)
  unfold UnitHost.finish
  rw [recording_mapNest]
  cases outcome with
  | error e =>
    simp only [o.recording_rollBack _ _ _ still]
    rfl
  | ok a =>
    have nest : h.recording.nest (w, issued) = h.nest w := rfl
    simp only [nest]
    split
    · rw [o.recording_rollBack _ _ _ still]
      rfl
    · rw [recording_control]
      rcases ended : h.control .commit (h.mapNest .closed w) with ⟨failure | done, after⟩
      · rw [ended] at committed
        have failed : (Except.error failure : Except Failure Unit).isOk = false := rfl
        simp only [failed, Bool.false_eq_true, if_false]
        rw [o.recording_rollBack _ _ _ (committed.trans still)]
        rfl
      · rfl

theorem Obedient.recording_outermost (o : Obedient h exec) (call : Call σ ρ ε) (passes : call.body.PassesPanics h)
    {w : ω} (issued : List Control) (outside : Outside h w) :
    call.perform h.recording (recorded exec) (w, issued) =
      ((call.perform h exec w).1, (call.perform h exec w).2, issued ++ call.controls h exec w) := by
  have began := o.autocommit_begin (h.mapNest .numbered w)
  have apart : Outside h.recording (w, issued) := ⟨outside.autocommit, outside.depth⟩
  unfold Call.controls Call.perform
  rw [run_outside outside, run_outside apart]
  unfold UnitHost.runOutermost
  rw [recording_mapNest, recording_control]
  rcases begun : h.control .begin (h.mapNest .numbered w) with ⟨failure | done, after⟩
  · simp [Except.isOk, Except.toBool, UnitHost.recording]
  · rw [begun] at began
    have inside : Inside h 1 false (h.mapNest .opened after) :=
      o.inside_mapNest (f := Nest.opened) Nat.one_pos began rfl
    have succeeded : (Except.ok done : Except Failure Unit).isOk = true := rfl
    have number : h.recording.nest (w, issued) = h.nest w := rfl
    simp only [succeeded, if_true, recording_mapNest, number, o.recording_perform call.body _ inside.isOpen]
    rw [o.recording_finish _ _ _ (o.perform_agrees call.body passes inside).1.autocommit, List.append_assoc]
    rfl

end Recording

namespace Obedient

variable {h : UnitHost ω ε} {exec : σ → ω → Except Failure ρ × ω} (o : Obedient h exec)

include o

theorem moments_agree (calls : List (Call σ ρ ε)) (passes : ∀ call ∈ calls, call.body.PassesPanics h) {w : ω}
    (outside : Outside h w) : ∀ m ∈ Call.momentsAll h exec calls w, m.Agrees h := by
  induction calls generalizing w with
  | nil =>
    intro m member
    rw [List.mem_singleton.1 member]
    exact outside.agrees
  | cons call calls ih =>
    obtain ⟨apart, agree⟩ := o.perform_outermost call (passes call List.mem_cons_self) outside
    intro m member
    rcases List.mem_cons.1 member with rfl | later
    · exact outside.agrees
    · rcases List.mem_append.1 later with within | later
      · exact agree m within
      · exact ih (fun c known => passes c (List.mem_cons_of_mem _ known)) apart m later

theorem recording_performAll (calls : List (Call σ ρ ε)) (passes : ∀ call ∈ calls, call.body.PassesPanics h) {w : ω}
    (outside : Outside h w) (issued : List Control) :
    Call.performAll h.recording (recorded exec) calls (w, issued) =
      (Call.performAll h exec calls w, issued ++ Call.controlsAll h exec calls w) := by
  induction calls generalizing w issued with
  | nil => rw [Call.controlsAll, List.append_nil, Call.performAll, Call.performAll]
  | cons call calls ih =>
    have first := passes call List.mem_cons_self
    obtain ⟨apart, -⟩ := o.perform_outermost call first outside
    rw [Call.performAll, o.recording_outermost call first issued outside]
    rw [ih (fun c known => passes c (List.mem_cons_of_mem _ known)) apart, Call.performAll, Call.controlsAll,
      List.append_assoc]

/-- The nest and the engine never disagree. At every moment of a sequence of outermost units a transaction is open
    exactly while the depth is above zero, the depth is the number of units in progress, and the nest is doomed exactly
    when a unit inside the open one has failed. Outside units the nest is idle and no transaction is open. What begins
    and ends transactions is a pair for each outermost unit that has begun. -/
theorem calls_agree (calls : List (Call σ ρ ε)) (passes : ∀ call ∈ calls, call.body.PassesPanics h) (w : ω)
    (apart : h.isAutocommit w = true) (idle : (h.nest w).phase = .idle) :
    (∀ m ∈ Call.momentsAll h exec calls w, m.Agrees h) ∧
    (∀ m ∈ Call.momentsAll h exec calls w, m.frames = 0 →
      (h.nest m.state).phase = .idle ∧ h.isAutocommit m.state = true) ∧
    Call.performAll h.recording (recorded exec) calls (w, []) =
      (Call.performAll h exec calls w, Call.controlsAll h exec calls w) := by
  have outside : Outside h w := ⟨apart, Nest.phase_eq_idle_iff.1 idle⟩
  have agree := o.moments_agree calls passes outside
  refine ⟨agree, fun m member none => ?_, ?_⟩
  · have depth : (h.nest m.state).depth = 0 := (agree m member).depth.trans none
    have on : h.isAutocommit m.state ≠ false := by simp [(agree m member).autocommit, depth]
    exact ⟨Nest.phase_eq_idle_iff.2 depth, by simpa using on⟩
  · simpa using o.recording_performAll calls passes outside []

end Obedient

section Sessions

open RecordMapper.Store

def loneSession : Session 1 :=
  ⟨Vector.replicate 1 .empty, Vector.replicate 1 ⟨0, .make 0 true .empty, .initial, .collecting⟩, []⟩

def asking (command : Sql.Command) (plain : isControl command = false) : Instruction :=
  .execute command.statement (Engine.isPlain_statement plain)

def heedless : Script Instruction (List (List Value) ⊕ Nat) Interruption Unit :=
  .nested (β := Unit) (.done (.error (.refused .unknownStep))) fun
    | .error .panicked => .done (.error .panicked)
    | _ => .done (.ok ())

def notesTable : Sql.TableDefinition :=
  ⟨"notes", [⟨"id", "INTEGER", true, false, none⟩], []⟩

theorem isControl_create (table : Sql.TableDefinition) : isControl (.create table) = false := rfl

theorem isControl_insert (table : String) (columns : Option (List String)) (rows : List (List Value)) :
    isControl (.insert table columns rows) = false := rfl

def panicky : Script Instruction (List (List Value) ⊕ Nat) Interruption Unit :=
  .statement (asking (.create notesTable) (isControl_create notesTable)) fun _ =>
    .nested (.done (.error .panicked)) fun outcome => .done outcome

theorem calls_agree_panicky :
    let h : UnitHost (Session 1 × Unit) Interruption := Session.host 0
    let exec := Session.perform 0
    let calls : List (Call Instruction _ Interruption) := [⟨Unit, heedless⟩, ⟨Unit, panicky⟩, ⟨Unit, heedless⟩]
    let w := (loneSession, ())
    (∀ call ∈ calls, call.body.PassesPanics h) ∧ h.isAutocommit w = true ∧ (h.nest w).phase = .idle ∧
    (∀ m ∈ Call.momentsAll h exec calls w, m.Agrees h) ∧
    (∀ m ∈ Call.momentsAll h exec calls w, m.frames = 0 →
      (h.nest m.state).phase = .idle ∧ h.isAutocommit m.state = true) ∧
    Call.performAll h.recording (recorded exec) calls (w, []) =
      (Call.performAll h exec calls w, Call.controlsAll h exec calls w) := by
  intro h exec calls w
  have heeds : heedless.PassesPanics h := by
    refine ⟨trivial, fun outcome => ?_⟩
    rcases outcome with (why | _) | done
    · exact ⟨trivial, fun none => (nomatch none)⟩
    · exact ⟨trivial, fun _ => ⟨_, rfl, rfl⟩⟩
    · exact ⟨trivial, fun none => (nomatch none)⟩
  have passes : panicky.PassesPanics h := by
    refine fun _ => ⟨trivial, fun outcome => ⟨trivial, fun unwound => ?_⟩⟩
    cases outcome with
    | error e => exact ⟨e, rfl, unwound⟩
    | ok done => cases unwound
  have all : ∀ call ∈ calls, call.body.PassesPanics h := by
    intro call member
    rcases List.mem_cons.1 member with rfl | member
    · exact heeds
    · rcases List.mem_pair.1 member with rfl | rfl
      · exact passes
      · exact heeds
  exact ⟨all, rfl, rfl, (Session.host_obedient 0).calls_agree calls all w rfl rfl⟩

end Sessions

end RecordMapper
