import RecordMapper.Proofs.Query.Paging

namespace RecordMapper

open RecordMapper.Store

/-- Numbers that a pass counts down. One that is positive can be lowered. -/
structure Countdown (ν : Type) where
  left : ν → Nat
  lowered? : ν → Option ν
  lowers : ∀ n, 0 < left n → ∃ m, lowered? n = some m ∧ left m + 1 = left n

namespace Countdown

def signedLowered? (n : Int64) : Option Int64 :=
  if (n - 1).toInt = n.toInt - 1 then some (n - 1) else none

def unsignedLowered? (n : UInt64) : Option UInt64 :=
  if (n - 1).toNat + 1 = n.toNat then some (n - 1) else none

def signed : Countdown Int64 where
  left n := n.toInt.toNat
  lowered? := signedLowered?
  lowers := by
    intro n positive
    have above : n.toInt < 2 ^ 63 := Int64.toInt_lt n
    have exact : (n - 1).toInt = n.toInt - 1 := by
      rw [Int64.toInt_sub, Int64.toInt_one]
      exact Int.bmod_eq_of_le (by omega) (by omega)
    exact ⟨n - 1, if_pos exact, by omega⟩

def unsigned : Countdown UInt64 where
  left := UInt64.toNat
  lowered? := unsignedLowered?
  lowers := by
    intro n positive
    have exact : (n - 1).toNat + 1 = n.toNat := by
      rw [UInt64.toNat_sub_of_le n 1 (UInt64.le_iff_toNat_le.2 positive)]
      exact Nat.sub_add_cancel positive
    exact ⟨n - 1, if_pos exact, exact⟩

variable {ν α : Type} (c : Countdown ν)

def hasRoom : Option ν → Bool
  | none => true
  | some n => 0 < c.left n

def takeRoom? : Option ν → Option (Option ν)
  | none => some none
  | some n => (c.lowered? n).map some

/-- Passes over items until there is no more room. Nothing if a number cannot be lowered. -/
def pass (limit : Option ν) (skip : ν) : List α → Option (List α)
  | [] => some []
  | item :: rest =>
    if 0 < c.left skip then do
      let skip ← c.lowered? skip
      pass limit skip rest
    else if c.hasRoom limit then do
      let limit ← c.takeRoom? limit
      let others ← pass limit skip rest
      pure (item :: others)
    else
      some []

def fitting (limit : Option ν) (items : List α) : List α :=
  match limit with
  | none => items
  | some n => items.take (c.left n)

theorem exists_takeRoom? {limit : Option ν} (room : c.hasRoom limit = true) (item : α) (rest : List α) :
    ∃ fewer, c.takeRoom? limit = some fewer ∧ c.fitting limit (item :: rest) = item :: c.fitting fewer rest := by
  cases limit with
  | none => exact ⟨none, rfl, rfl⟩
  | some n =>
    obtain ⟨m, lowered, counted⟩ := c.lowers n (of_decide_eq_true room)
    refine ⟨some m, congrArg (Option.map some) lowered, ?_⟩
    rw [fitting, fitting, ← counted, List.take_succ_cons]

theorem fitting_full {limit : Option ν} (full : c.hasRoom limit = false) (items : List α) :
    c.fitting limit items = [] := by
  cases limit with
  | none => cases full
  | some n =>
    have none : c.left n = 0 := by
      have positive := of_decide_eq_false full
      omega
    rw [fitting, none, List.take_zero]

/-- A pass lowers no number below the least, whatever it counts down. -/
theorem pass_eq_some (limit : Option ν) (skip : ν) (items : List α) :
    c.pass limit skip items = some (c.fitting limit (items.drop (c.left skip))) := by
  induction items generalizing limit skip with
  | nil => cases limit <;> simp [pass, fitting]
  | cons item rest ih =>
    rw [pass]
    -- The skip is counted down first, and the limit only behind it.
    by_cases skips : 0 < c.left skip
    · obtain ⟨fewer, lowered, counted⟩ := c.lowers skip skips
      rw [if_pos skips, lowered, ← counted, List.drop_succ_cons]
      exact ih limit fewer
    · have none : c.left skip = 0 := by omega
      rw [if_neg skips, none, List.drop_zero]
      by_cases room : c.hasRoom limit = true
      · obtain ⟨fewer, taken, first⟩ := c.exists_takeRoom? room item rest
        have others := ih fewer skip
        rw [none, List.drop_zero] at others
        rw [if_pos room, taken, first]
        simp only [Option.bind_eq_bind, Option.bind_some, others]
        rfl
      · rw [if_neg room, c.fitting_full (Bool.eq_false_iff.2 room)]

end Countdown

def Sql.Window.bound? (w : Sql.Window) : Option Int64 :=
  if w.limit.toInt < 0 then none else some w.limit

/-- A window with the numbers of a paging, as far as numbers with a sign go. Only a paging without a limit has a negative
    one. -/
structure Sql.Window.Stands (w : Sql.Window) (p : Paging) : Prop where
  skip : w.skip.toInt = min p.skip.toNat (2 ^ 63 - 1)
  limited : ∀ n, p.limit = some n → w.limit.toInt = min n.toNat (2 ^ 63 - 1)
  unlimited : p.limit = none → w.limit = -1

theorem Paging.window_stands (p : Paging) : p.window.Stands p where
  skip := by
    rw [window, clamp_toInt, largest]
    omega
  limited := by
    intro n limit
    rw [window, limit]
    simp only [clamp_toInt, largest]
    omega
  unlimited := by
    intro limit
    rw [window, limit]

section Passes

variable {α : Type}

theorem Store.windowed_pass (w : Sql.Window) (items : List α) :
    Countdown.signed.pass w.bound? w.skip items = some (windowed (some w) items) := by
  rw [Countdown.pass_eq_some, Sql.Window.bound?, windowed]
  by_cases unlimited : w.limit.toInt < 0
  · rw [if_pos unlimited, if_pos unlimited]
    rfl
  · rw [if_neg unlimited, if_neg unlimited]
    rfl

theorem Paging.apply_pass (p : Paging) (items : List α) :
    Countdown.unsigned.pass p.limit p.skip items = some (p.apply items) := by
  rw [Countdown.pass_eq_some, apply]
  rcases p.limit with _ | limit
  · rfl
  · rfl

/-- The window of a statement keeps what paging keeps in memory, up to as many items as its numbers can count. Neither
    the numbers of the window nor those of a pass go beyond 64 bits. -/
theorem Paging.windowed_eq_apply (p : Paging) (items : List α) (few : items.length ≤ 2 ^ 63 - 1) :
    windowed (some p.window) items = p.apply items ∧
    Sql.paramsOf (Sql.windowPieces (some p.window)) = [.integer p.window.limit, .integer p.window.skip] ∧
    p.window.Stands p ∧
    Countdown.signed.pass p.window.bound? p.window.skip items = some (p.apply items) ∧
    Countdown.unsigned.pass p.limit p.skip items = some (p.apply items) := by
  have same : windowed (some p.window) items = p.apply items := windowed_window p (by omega)
  refine ⟨same, rfl, p.window_stands, ?_, p.apply_pass items⟩
  rw [windowed_pass, same]

theorem windowed_eq_apply_beyond : [3, 1, 2].length ≤ 2 ^ 63 - 1 ∧
    windowed (some (Paging.window ⟨some 18446744073709551615, 1⟩)) [3, 1, 2] = [1, 2] := by
  have few : [3, 1, 2].length ≤ 2 ^ 63 - 1 := by decide
  exact ⟨few, (Paging.windowed_eq_apply ⟨some 18446744073709551615, 1⟩ [3, 1, 2] few).1.trans (by decide +kernel)⟩

end Passes

end RecordMapper
