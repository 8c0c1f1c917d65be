import RecordMapper.UnitOfWork

namespace RecordMapper

variable {ω σ ρ ε : Type}

inductive Script (σ ρ ε : Type) : Type → Type 1 where
  | done {α : Type} (outcome : Except ε α) : Script σ ρ ε α
  | statement {α : Type} (s : σ) (next : Except Failure ρ → Script σ ρ ε α) : Script σ ρ ε α
  | nested {α β : Type} (inner : Script σ ρ ε β) (next : Except ε β → Script σ ρ ε α) : Script σ ρ ε α

/-- The statements that succeeded, in order, and whether an inner unit ended with an error. -/
structure History (σ : Type) where
  done : List σ
  spoiled : Bool
  deriving DecidableEq, Repr

namespace History

def empty : History σ := ⟨[], false⟩

def ofStatement (s : σ) (outcome : Except Failure ρ) : History σ :=
  ⟨if outcome.isOk then [s] else [], false⟩

def ofUnit {β : Type} (outcome : Except ε β) : History σ :=
  ⟨[], !outcome.isOk⟩

def append (first later : History σ) : History σ :=
  ⟨first.done ++ later.done, first.spoiled || later.spoiled⟩

theorem append_assoc (a b c : History σ) : (a.append b).append c = a.append (b.append c) := by
  simp [append, List.append_assoc, Bool.or_assoc]

end History

namespace Script

def Calm (h : UnitHost ω ε) : {α : Type} → Script σ ρ ε α → Prop
  | _, .done (.ok _) => True
  | _, .done (.error e) => h.unwinds e = false
  | _, .statement _ next => ∀ outcome, (next outcome).Calm h
  | _, .nested inner next => inner.Calm h ∧ ∀ outcome, (next outcome).Calm h

theorem calm_of_quiet {α : Type} {h : UnitHost ω ε} (quiet : ∀ e, h.unwinds e = false) (s : Script σ ρ ε α) :
    s.Calm h := by
  induction s with
  | done outcome =>
    cases outcome with
    | ok a => trivial
    | error e => exact quiet e
  | statement s next ih => exact ih
  | nested inner next ihInner ihNext => exact ⟨ihInner, ihNext⟩

variable (h : UnitHost ω ε) (exec : σ → ω → Except Failure ρ × ω)

def perform : {α : Type} → Script σ ρ ε α → ω → Except ε α × ω
  | _, .done outcome, w => (outcome, w)
  | _, .statement s next, w =>
    let (outcome, w) := exec s w
    (next outcome).perform w
  | _, .nested inner next, w =>
    let (outcome, w) := h.run inner.perform w
    (next outcome).perform w

def history : {α : Type} → Script σ ρ ε α → ω → History σ
  | _, .done _, _ => .empty
  | _, .statement s next, w =>
    let (outcome, after) := exec s w
    (History.ofStatement s outcome).append ((next outcome).history after)
  | _, .nested inner next, w =>
    let (outcome, after) := h.run (inner.perform h exec) w
    (inner.history (h.mapNest .entered w)).append
      ((History.ofUnit outcome).append ((next outcome).history after))

end Script

/-- What came of the parts of an outermost unit: its beginning, its body, and the attempt to commit. -/
structure Account (σ ε α : Type) where
  began : Except Failure Unit
  body : Except ε α
  history : History σ
  committed : Except Failure Unit

namespace Account

variable {α : Type}

def succeeds (a : Account σ ε α) : Bool :=
  a.began.isOk && a.body.isOk && !a.history.spoiled && a.committed.isOk

def outcome (h : UnitHost ω ε) (unit : Nat) (a : Account σ ε α) : Except ε α :=
  match a.began, a.body, a.history.spoiled, a.committed with
  | .error failure, _, _, _ => .error (h.ofFailure failure)
  | .ok _, .error e, _, _ => .error e
  | .ok _, .ok _, true, _ => .error (h.ofFailure (.rolledBack unit))
  | .ok _, .ok _, false, .error failure => .error (h.ofFailure failure)
  | .ok _, .ok a, false, .ok _ => .ok a

theorem succeeds_iff {a : Account σ ε α} : a.succeeds = true ↔
    a.began.isOk = true ∧ a.body.isOk = true ∧ a.history.spoiled = false ∧ a.committed.isOk = true := by
  simp [succeeds, and_assoc]

theorem isOk_outcome (h : UnitHost ω ε) (unit : Nat) (a : Account σ ε α) :
    (a.outcome h unit).isOk = a.succeeds := by
  rcases a with ⟨_ | _, _ | _, ⟨_, _ | _⟩, _ | _⟩ <;> rfl

end Account

/-- The account of a body that is run as an outermost unit, from the history that it leaves where it is opened. -/
def UnitHost.account {α : Type} (h : UnitHost ω ε) (body : ω → Except ε α × ω) (history : ω → History σ) (w : ω) :
    Account σ ε α :=
  let (began, w) := h.control .begin (h.mapNest .numbered w)
  let opened := h.mapNest .opened w
  let (ended, w) := body opened
  ⟨began, ended, history opened, (h.control .commit (h.mapNest .closed w)).1⟩

def Script.account {α : Type} (h : UnitHost ω ε) (exec : σ → ω → Except Failure ρ × ω) (s : Script σ ρ ε α)
    (w : ω) : Account σ ε α :=
  let (began, w) := h.control .begin (h.mapNest .numbered w)
  let opened := h.mapNest .opened w
  let (body, w) := s.perform h exec opened
  ⟨began, body, s.history h exec opened, (h.control .commit (h.mapNest .closed w)).1⟩

end RecordMapper
