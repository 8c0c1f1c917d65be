import RecordMapper.Proofs.Unit.Script

namespace RecordMapper

variable {ω σ ρ ε α β : Type}

def UnitHost.entry? (h : UnitHost ω ε) (w : ω) : Option ω :=
  if (h.nest w).isOpen then some (h.mapNest .entered w)
  else
    match h.control .begin (h.mapNest .numbered w) with
    | (.ok _, begun) => some (h.mapNest .opened begun)
    | (.error _, _) => none

theorem UnitHost.finish_eq_ok {h : UnitHost ω ε} {unit : Nat} {outcome : Except ε α} {w after : ω} {a : α}
    (done : h.finish unit outcome w = (.ok a, after)) : outcome = .ok a := by
  unfold finish at done
  cases outcome with
  | error e => cases done
  | ok b =>
    simp only [] at done
    split at done
    · cases done
    · split at done
      · cases done
        rfl
      · cases done

theorem UnitHost.run_eq_ok {h : UnitHost ω ε} {body : ω → Except ε α × ω} {w after : ω} {a : α}
    (done : h.run body w = (.ok a, after)) : ∃ start finish, h.entry? w = some start ∧ body start = (.ok a, finish) := by
  unfold run at done
  unfold entry?
  by_cases isOpen : (h.nest w).isOpen = true
  · rw [if_pos isOpen, runNested] at done
    rw [if_pos isOpen]
    rcases ran : body (h.mapNest .entered w) with ⟨e | b, finish⟩
    · rw [ran] at done
      cases done
    · rw [ran] at done
      cases done
      exact ⟨_, finish, rfl, ran⟩
  · rw [if_neg isOpen, runOutermost] at done
    rw [if_neg isOpen]
    rcases began : h.control .begin (h.mapNest .numbered w) with ⟨failure | _, begun⟩
    · rw [began] at done
      cases done
    · rcases ran : body (h.mapNest .opened begun) with ⟨outcome, finish⟩
      simp only [began, ran] at done
      obtain rfl := finish_eq_ok done
      exact ⟨_, finish, rfl, ran⟩

namespace Script

def bind {β : Type} : {α : Type} → Script σ ρ ε α → (α → Script σ ρ ε β) → Script σ ρ ε β
  | _, .done (.ok a), next => next a
  | _, .done (.error e), _ => .done (.error e)
  | _, .statement s rest, next => .statement s fun outcome => (rest outcome).bind next
  | _, .nested inner rest, next => .nested inner fun outcome => (rest outcome).bind next

variable (h : UnitHost ω ε) (exec : σ → ω → Except Failure ρ × ω)

/-- The statements that a body comes to, in inner units too, each with the state that it is asked in. -/
def asked : {α : Type} → Script σ ρ ε α → ω → List (σ × ω)
  | _, .done _, _ => []
  | _, .statement s next, w =>
    let (outcome, after) := exec s w
    (s, w) :: (next outcome).asked after
  | _, .nested inner next, w =>
    let (outcome, after) := h.run (inner.perform h exec) w
    ((h.entry? w).map inner.asked).getD [] ++ (next outcome).asked after

variable {h exec} {next : α → Script σ ρ ε β} {w : ω}

theorem perform_bind (s : Script σ ρ ε α) : (s.bind next).perform h exec w =
    match s.perform h exec w with
    | (.ok a, after) => (next a).perform h exec after
    | (.error e, after) => (.error e, after) := by
  induction s generalizing w with
  | done outcome =>
    cases outcome with
    | ok a => rfl
    | error e => rfl
  | statement s rest ih => exact ih _
  | nested inner rest _ ih => exact ih _

theorem asked_bind (s : Script σ ρ ε α) : (s.bind next).asked h exec w = s.asked h exec w ++
    match s.perform h exec w with
    | (.ok a, after) => (next a).asked h exec after
    | (.error _, _) => [] := by
  induction s generalizing w with
  | done outcome =>
    cases outcome with
    | ok a => rfl
    | error e => rfl
  | statement s rest ih => exact congrArg (List.cons _) (ih _)
  | nested inner rest _ ih => exact (congrArg (List.append _) (ih _)).trans (List.append_assoc _ _ _).symm

theorem mem_asked_bind {m : σ × ω} (s : Script σ ρ ε α) (member : m ∈ (s.bind next).asked h exec w) :
    m ∈ s.asked h exec w ∨ ∃ a after, s.perform h exec w = (.ok a, after) ∧ m ∈ (next a).asked h exec after := by
  rw [asked_bind, List.mem_append] at member
  apply member.imp id
  intro later
  rcases ran : s.perform h exec w with ⟨e | a, after⟩
  · rw [ran] at later
    cases later
  · rw [ran] at later
    exact ⟨a, after, rfl, later⟩

end Script

end RecordMapper
