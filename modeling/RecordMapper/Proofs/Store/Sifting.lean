import RecordMapper.Proofs.Outcome
import RecordMapper.Store.Effect

namespace RecordMapper

def Sql.Condition.patterns : Sql.Condition → List String
  | .glob _ _ pattern => [pattern]
  | .and left right | .or left right => left.patterns ++ right.patterns
  | .not inner => inner.patterns
  | _ => []

namespace Store

variable {b : Bindings} {goal kept : Bool} {cause : FaultCause} {f : Sql.Condition}

theorem globTest_eq_ok {folded : Bool} {pattern : String} {v : Value} {truth : Truth} :
    globTest folded pattern v = .ok truth ↔ pattern.utf8ByteSize ≤ patternLimit ∧ globTruth folded pattern v = truth := by
  unfold globTest
  split
  · rename_i long
    exact ⟨fun none => (nomatch none), fun ⟨short, _⟩ => absurd long (Nat.not_lt.2 short)⟩
  · rename_i short
    exact ⟨fun same => ⟨Nat.le_of_not_lt short, Except.ok.inj same⟩, fun ⟨_, same⟩ => congrArg Except.ok same⟩

def Matchable (f : Sql.Condition) : Prop :=
  ∀ pattern ∈ f.patterns, pattern.utf8ByteSize ≤ patternLimit

theorem and_comesOut (a b : Truth) (goal : Bool) :
    (a.and b == some goal) = if (a == some goal) == goal then b == some goal else a == some goal := by
  rcases a with _ | _ | _ <;> rcases b with _ | _ | _ <;> cases goal <;> rfl

theorem or_comesOut (a b : Truth) (goal : Bool) :
    (a.or b == some goal) = if (a == some goal) == goal then a == some goal else b == some goal := by
  rcases a with _ | _ | _ <;> rcases b with _ | _ | _ <;> cases goal <;> rfl

theorem not_comesOut (a : Truth) (goal : Bool) : (a.not == some goal) = (a == some (!goal)) := by
  rcases a with _ | _ | _ <;> cases goal <;> rfl

/-- What is found out of a condition is what it says. -/
theorem comesOut_eq_ok (done : comesOut b goal f = .ok kept) : kept = (conditionTruth b f == some goal) := by
  induction f generalizing goal kept with
  | glob c folded pattern =>
    obtain ⟨truth, tested, rfl⟩ := map_eq_ok.1 done
    obtain ⟨-, rfl⟩ := globTest_eq_ok.1 tested
    rfl
  | and left right ihl ihr =>
    obtain ⟨one, tested, rest⟩ := bind_eq_ok.1 done
    rw [conditionTruth, and_comesOut, ← ihl tested]
    split at rest
    · rename_i unsettled
      rw [if_pos unsettled, ihr rest]
    · rename_i settled
      rw [if_neg settled, pure_eq_ok.1 rest]
  | or left right ihl ihr =>
    obtain ⟨one, tested, rest⟩ := bind_eq_ok.1 done
    rw [conditionTruth, or_comesOut, ← ihl tested]
    split at rest
    · rename_i settled
      rw [if_pos settled, pure_eq_ok.1 rest]
    · rename_i unsettled
      rw [if_neg unsettled, ihr rest]
  | not inner ih =>
    rw [conditionTruth, not_comesOut]
    exact ih done
  | constant | columns | value | null | member => exact (Except.ok.inj done).symm

theorem comesOut_of_matchable (b : Bindings) (goal : Bool) (short : Matchable f) :
    comesOut b goal f = .ok (conditionTruth b f == some goal) := by
  induction f generalizing goal with
  | glob c folded pattern =>
    rw [comesOut, globTest_eq_ok.2 ⟨short pattern (List.mem_singleton_self _), rfl⟩]
    rfl
  | and left right ihl ihr =>
    have one := ihl goal fun p member => short p (List.mem_append_left _ member)
    have two := ihr goal fun p member => short p (List.mem_append_right _ member)
    rw [conditionTruth, and_comesOut, comesOut, one, two]
    show (if _ then _ else _) = _
    split <;> rfl
  | or left right ihl ihr =>
    have one := ihl goal fun p member => short p (List.mem_append_left _ member)
    have two := ihr goal fun p member => short p (List.mem_append_right _ member)
    rw [conditionTruth, or_comesOut, comesOut, one, two]
    show (if _ then _ else _) = _
    split <;> rfl
  | not inner ih =>
    rw [conditionTruth, not_comesOut]
    exact ih _ short
  | constant | columns | value | null | member => rfl

theorem sift_eq_ok {filter : Option Sql.Condition} (done : sift b filter = .ok kept) : kept = keeps b filter := by
  cases filter with
  | none => exact (Except.ok.inj done).symm
  | some f => exact comesOut_eq_ok done

theorem sift_of_matchable {filter : Option Sql.Condition} (b : Bindings) (short : ∀ f ∈ filter, Matchable f) :
    sift b filter = .ok (keeps b filter) := by
  cases filter with
  | none => rfl
  | some f => exact comesOut_of_matchable b true (short f rfl)

theorem forM_eq_ok {ε α : Type} {entries : List α} {act : α → Except ε Unit} :
    entries.forM act = .ok () ↔ ∀ a ∈ entries, act a = .ok () := by
  induction entries with
  | nil => exact ⟨fun _ _ none => absurd none List.not_mem_nil, fun _ => rfl⟩
  | cons a entries ih =>
    show (act a >>= fun _ => entries.forM act) = _ ↔ _
    rw [bind_unit_eq_ok, ih, List.forall_mem_cons]

variable {c : Content} {command : Sql.Command}

theorem examine_eq_ok : examine c command = .ok () ↔
    ∀ b ∈ (examined c command).1, sift b (examined c command).2 = .ok (keeps b (examined c command).2) := by
  rw [examine, forM_eq_ok]
  refine forall₂_congr fun b _ => ?_
  constructor
  · intro done
    obtain ⟨kept, found, -⟩ := map_eq_ok.1 done
    rw [found, sift_eq_ok found]
  · intro found
    rw [found]
    rfl

theorem examine_of_matchable (c : Content) (short : ∀ f ∈ (examined c command).2, Matchable f) :
    examine c command = .ok () :=
  examine_eq_ok.2 fun b _ => sift_of_matchable b short

end Store

end RecordMapper
