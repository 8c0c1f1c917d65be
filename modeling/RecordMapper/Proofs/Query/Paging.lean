import Mathlib.Algebra.Group.Nat.Defs
import RecordMapper.Plan.Paging
import RecordMapper.Store.Reading

namespace RecordMapper

open RecordMapper.Store

variable {α β : Type}

theorem drop_min {items : List α} {largest : Nat} (few : items.length ≤ largest) (n : Nat) :
    items.drop (min n largest) = items.drop n := by
  by_cases small : n ≤ largest
  · rw [Nat.min_eq_left small]
  · rw [Nat.min_eq_right (by omega), List.drop_eq_nil_of_le few, List.drop_eq_nil_of_le (by omega)]

theorem take_min {items : List α} {largest : Nat} (few : items.length ≤ largest) (n : Nat) :
    items.take (min n largest) = items.take n := by
  by_cases small : n ≤ largest
  · rw [Nat.min_eq_left small]
  · rw [Nat.min_eq_right (by omega), List.take_of_length_le few, List.take_of_length_le (by omega)]

theorem clamp_toInt (n : UInt64) : (Paging.clamp n).toInt = (min n.toNat Paging.largest : Nat) := by
  have largest : Paging.largest = 9223372036854775807 := rfl
  have small : min n.toNat Paging.largest < 2 ^ 63 := by omega
  rw [Paging.clamp, Int64.toInt_ofNat_of_lt small]

theorem windowed_window (paging : Paging) {items : List α} (few : items.length < 2 ^ 63) :
    windowed (some paging.window) items = paging.apply items := by
  have bound : items.length ≤ Paging.largest := by
    have largest : Paging.largest = 9223372036854775807 := rfl
    omega
  obtain ⟨limit, skip⟩ := paging
  have skipped : items.drop (Paging.clamp skip).toInt.toNat = items.drop skip.toNat := by
    rw [clamp_toInt, Int.toNat_natCast, drop_min bound]
  simp only [windowed, Paging.window, Paging.apply, skipped]
  rcases limit with _ | limit
  · rw [if_pos (by decide)]
  · have left : (items.drop skip.toNat).length ≤ Paging.largest := by
      rw [List.length_drop]
      omega
    have limited : (Paging.clamp limit).toInt = (min limit.toNat Paging.largest : Nat) := clamp_toInt limit
    simp only [limited]
    rw [if_neg (by omega), Int.toNat_natCast, take_min left]

theorem length_apply_congr (paging : Paging) {items : List α} {others : List β} (same : items.length = others.length) :
    (paging.apply items).length = (paging.apply others).length := by
  unfold Paging.apply
  rcases paging.limit with _ | limit
  · simp only [List.length_drop, same]
  · simp only [List.length_take, List.length_drop, same]

theorem length_windowed_congr (window : Option Sql.Window) {items : List α} {others : List β}
    (same : items.length = others.length) : (windowed window items).length = (windowed window others).length := by
  unfold windowed
  split
  · exact same
  · simp only []
    split
    · rw [List.length_drop, List.length_drop, same]
    · rw [List.length_take, List.length_take, List.length_drop, List.length_drop, same]

theorem length_windowed_le (window : Option Sql.Window) (items : List α) :
    (windowed window items).length ≤ items.length := by
  unfold windowed
  split
  · exact Nat.le_refl _
  · simp only []
    split
    · rw [List.length_drop]
      omega
    · rw [List.length_take, List.length_drop]
      omega

end RecordMapper
