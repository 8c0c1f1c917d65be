import RecordMapper.UnitOfWork

namespace RecordMapper

variable {ω σ ρ ε δ : Type}

/-- What a connection sees, and inside a transaction what a rollback returns to. -/
structure Standing (δ : Type) where
  content : δ
  base : Option δ

/-- A host whose engine keeps transactions: a statement that fails has no effect and leaves the transaction
    open, and a transaction that is open can be rolled back. `sound` are the states that it can be in. -/
structure Transactional (h : UnitHost ω ε) (exec : σ → ω → Except Failure ρ × ω) (sound : ω → Prop)
    (standing : ω → Standing δ) (effect : σ → δ → δ) : Prop where
  nest_setNest (n : Nest) (w : ω) : h.nest (h.setNest n w) = n
  nest_record (e : Event) (w : ω) : h.nest (h.record e w) = h.nest w
  nest_control (c : Control) (w : ω) : h.nest (h.control c w).2 = h.nest w
  nest_exec (s : σ) (w : ω) : h.nest (exec s w).2 = h.nest w
  standing_setNest (n : Nest) (w : ω) : standing (h.setNest n w) = standing w
  standing_record (e : Event) (w : ω) : standing (h.record e w) = standing w
  sound_setNest {w : ω} (n : Nest) : sound w → sound (h.setNest n w)
  sound_record {w : ω} (e : Event) : sound w → sound (h.record e w)
  sound_control {w : ω} (c : Control) : sound w → sound (h.control c w).2
  sound_exec {w : ω} (s : σ) : sound w → sound (exec s w).2
  autocommit {w : ω} : sound w → h.isAutocommit w = (standing w).base.isNone
  begin_ok {w : ω} : sound w → (standing w).base = none → (h.control .begin w).1.isOk →
    standing (h.control .begin w).2 = ⟨(standing w).content, some (standing w).content⟩
  begin_failed {w : ω} : sound w → (standing w).base = none → ¬(h.control .begin w).1.isOk →
    standing (h.control .begin w).2 = standing w
  exec_ok {w : ω} {d : δ} {s : σ} : sound w → (standing w).base = some d → (exec s w).1.isOk →
    standing (exec s w).2 = ⟨effect s (standing w).content, some d⟩
  exec_failed {w : ω} {d : δ} {s : σ} : sound w → (standing w).base = some d → ¬(exec s w).1.isOk →
    standing (exec s w).2 = standing w
  commit_ok {w : ω} {d : δ} : sound w → (standing w).base = some d → (h.control .commit w).1.isOk →
    standing (h.control .commit w).2 = ⟨(standing w).content, none⟩
  commit_failed {w : ω} {d : δ} : sound w → (standing w).base = some d → ¬(h.control .commit w).1.isOk →
    standing (h.control .commit w).2 = standing w ∨ standing (h.control .commit w).2 = ⟨d, none⟩
  rollback_ok {w : ω} {d : δ} : sound w → (standing w).base = some d → (h.control .rollback w).1.isOk ∧
    standing (h.control .rollback w).2 = ⟨d, none⟩

end RecordMapper
