import Mathlib.Algebra.Order.Field.Basic
import Mathlib.Algebra.Order.Group.Unbundled.Int
import Mathlib.Data.Rat.Cast.Order
import Mathlib.Tactic.FieldSimp
import Mathlib.Tactic.Linarith
import Mathlib.Tactic.Ring
import RecordMapper.Proofs.Number.Rounded

namespace RecordMapper.Number

section Logarithm

variable {num den : Nat} {e : Int}

theorem log2_bounds {n : Nat} (positive : 0 < n) :
    (2 : ℚ) ^ (Nat.log2 n : Int) ≤ n ∧ (n : ℚ) < 2 ^ ((Nat.log2 n : Int) + 1) := by
  constructor
  · rw [zpow_natCast]
    exact_mod_cast Nat.log2_self_le (by omega)
  · rw [← Int.natCast_succ, zpow_natCast]
    exact_mod_cast Nat.lt_log2_self

theorem scaledDown_le (num den : Nat) (guess : Int) :
    (scaledDown num den guess).2 ≤ (scaledDown num den guess).1 ↔ (2 : ℚ) ^ guess * den ≤ num := by
  unfold scaledDown
  split
  · rename_i whole
    obtain ⟨k, rfl⟩ := Int.eq_ofNat_of_zero_le whole
    rw [zpow_natCast, mul_comm]
    exact_mod_cast Iff.rfl
  · rename_i negative
    obtain ⟨k, same⟩ := Int.eq_ofNat_of_zero_le (show 0 ≤ -guess by omega)
    obtain rfl : guess = -(k : Int) := by omega
    rw [zpow_neg, zpow_natCast, inv_mul_le_iff₀ (pow_pos (by norm_num) _), mul_comm, neg_neg]
    exact_mod_cast Iff.rfl

theorem floorLog2_eq (some : 0 < num) (positive : 0 < den) (below : (2 : ℚ) ^ e * den ≤ num)
    (above : (num : ℚ) < 2 ^ (e + 1) * den) : floorLog2 num den = e := by
  have den' : (0 : ℚ) < den := by exact_mod_cast positive
  have two : (1 : ℚ) < 2 := by norm_num
  have exponents : ∀ a b : Int, (2 : ℚ) ^ a * den < 2 ^ b * den → a < b := fun a b less =>
    (zpow_lt_zpow_iff_right₀ two).1 (lt_of_mul_lt_mul_right less den'.le)
  obtain ⟨num_low, num_high⟩ := log2_bounds some
  obtain ⟨den_low, den_high⟩ := log2_bounds positive
  have low : (2 : ℚ) ^ ((Nat.log2 num : Int) - Nat.log2 den - 1) * den < num := by
    calc (2 : ℚ) ^ ((Nat.log2 num : Int) - Nat.log2 den - 1) * den
        < 2 ^ ((Nat.log2 num : Int) - Nat.log2 den - 1) * 2 ^ ((Nat.log2 den : Int) + 1) :=
          mul_lt_mul_of_pos_left den_high (zpow_pos (by norm_num) _)
      _ = 2 ^ (Nat.log2 num : Int) := by
          rw [← zpow_add₀ (by norm_num)]
          congr 1
          omega
      _ ≤ num := num_low
  have high : (num : ℚ) < 2 ^ ((Nat.log2 num : Int) - Nat.log2 den + 1) * den := by
    calc (num : ℚ) < 2 ^ ((Nat.log2 num : Int) + 1) := num_high
      _ = 2 ^ ((Nat.log2 num : Int) - Nat.log2 den + 1) * 2 ^ (Nat.log2 den : Int) := by
          rw [← zpow_add₀ (by norm_num)]
          congr 1
          omega
      _ ≤ 2 ^ ((Nat.log2 num : Int) - Nat.log2 den + 1) * den := mul_le_mul_of_nonneg_left den_low (zpow_pos (by norm_num) _).le
  have under := exponents _ _ (below.trans_lt high)
  have beyond := exponents _ _ (low.trans above)
  simp only [floorLog2, scaledDown_le]
  split
  · rename_i fits
    have exact' := exponents _ _ (fits.trans_lt above)
    omega
  · rename_i apart
    have exact' := exponents _ _ (below.trans_lt (not_le.1 apart))
    omega

end Logarithm

section Exact

variable {f : Format} {num den n k : Nat}

theorem Format.signed_negative (negative : Bool) {magnitude : Nat} (small : magnitude < f.signBit) :
    decide (f.signBit ≤ f.signed negative magnitude) = negative := by
  cases negative with
  | false => exact decide_eq_false (Nat.not_le.2 small)
  | true => exact decide_eq_true (Nat.le_add_right _ _)

theorem Format.read_parts (f : Format) (negative : Bool) (exponent : Nat) {fraction : Nat} (small : fraction < 2 ^ f.fractionBits)
    (fits : exponent + 1 < 2 ^ f.exponentBits) :
    f.read (f.signed negative (exponent * 2 ^ f.fractionBits + fraction)) =
      .finite negative (f.units exponent fraction) := by
  have below : exponent * 2 ^ f.fractionBits + fraction < f.infinity := by
    calc exponent * 2 ^ f.fractionBits + fraction
        < (exponent + 1) * 2 ^ f.fractionBits := by rw [Nat.succ_mul]; omega
      _ ≤ f.infinity := Nat.mul_le_mul_right _ (show exponent + 1 ≤ 2 ^ f.exponentBits - 1 by omega)
  have unsigned := Nat.lt_trans below f.infinity_lt
  have quotient : (exponent * 2 ^ f.fractionBits + fraction) / 2 ^ f.fractionBits = exponent := by
    rw [Nat.add_comm, Nat.add_mul_div_right _ _ (Nat.two_pow_pos _), Nat.div_eq_of_lt small, Nat.zero_add]
  have rest : (exponent * 2 ^ f.fractionBits + fraction) % 2 ^ f.fractionBits = fraction := by
    rw [Nat.add_comm, Nat.add_mul_mod_self_right, Nat.mod_eq_of_lt small]
  rw [read_units, signed_mod negative unsigned, signed_negative negative unsigned, if_neg (by omega), if_neg (by omega)]
  show Reading.finite _ (f.units (_ / 2 ^ _) (_ % 2 ^ _)) = _
  rw [quotient, rest]

theorem Format.read_assemble (f : Format) (negative : Bool) (bounded : n < 2 ^ (f.fractionBits + 1))
    (normal : k = 0 ∨ 2 ^ f.fractionBits ≤ n) (fits : k + 2 < 2 ^ f.exponentBits) :
    f.read (f.signed negative (f.assemble n k)) = .finite negative (n * 2 ^ k) := by
  unfold assemble
  split
  · rename_i small
    obtain rfl := normal.resolve_right (Nat.not_le.2 small)
    have parts := f.read_parts negative 0 small (by omega)
    rw [Nat.zero_mul, Nat.zero_add] at parts
    rw [parts, Nat.pow_zero, Nat.mul_one]
    rfl
  · rename_i large
    have filled : 2 ^ f.fractionBits ≤ n := Nat.not_lt.1 large
    rw [Nat.pow_succ] at bounded
    have split : k * 2 ^ f.fractionBits + n = (k + 1) * 2 ^ f.fractionBits + (n - 2 ^ f.fractionBits) := by
      rw [Nat.succ_mul]
      omega
    have below : k * 2 ^ f.fractionBits + n ≤ f.infinity := by
      calc k * 2 ^ f.fractionBits + n
          ≤ (k + 2) * 2 ^ f.fractionBits := by rw [Nat.add_mul]; omega
        _ ≤ f.infinity := Nat.mul_le_mul_right _ (show k + 2 ≤ 2 ^ f.exponentBits - 1 by omega)
    have rest : n - 2 ^ f.fractionBits < 2 ^ f.fractionBits := by omega
    have parts := f.read_parts negative (k + 1) rest fits
    show f.read (f.signed negative (min f.infinity (k * 2 ^ f.fractionBits + n))) = _
    rw [Nat.min_eq_right below, split, parts, units, if_neg (Nat.succ_ne_zero k)]
    show Reading.finite negative ((2 ^ f.fractionBits + (n - 2 ^ f.fractionBits)) * 2 ^ (k + 1 - 1)) = _
    rw [Nat.add_sub_cancel' filled, Nat.add_sub_cancel]

theorem Format.steps_exact (positive : 0 < den) (scaled : num * 2 ^ f.unitBits = n * 2 ^ k * den)
    (bounded : n < 2 ^ (f.fractionBits + 1)) (normal : k = 0 ∨ 2 ^ f.fractionBits ≤ n) (some : 0 < num) :
    max (-(f.unitBits : Int)) (floorLog2 num den - f.fractionBits) = k - f.unitBits := by
  have significant : 0 < n := by
    rcases Nat.eq_zero_or_pos n with rfl | significant
    · rw [Nat.zero_mul, Nat.zero_mul] at scaled
      exact absurd scaled (Nat.ne_of_gt (Nat.mul_pos some (Nat.two_pow_pos _)))
    · exact significant
  have den' : (0 : ℚ) < den := by exact_mod_cast positive
  have quotient : (num : ℚ) = n * 2 ^ ((k : Int) - f.unitBits) * den := by
    have cast : (num : ℚ) * 2 ^ f.unitBits = n * 2 ^ k * den := by exact_mod_cast scaled
    rw [zpow_sub₀ (by norm_num), zpow_natCast, zpow_natCast]
    field_simp
    linarith
  obtain ⟨low, high⟩ := log2_bounds significant
  have step : (0 : ℚ) < 2 ^ ((k : Int) - f.unitBits) := zpow_pos (by norm_num) _
  have logarithm : floorLog2 num den = Nat.log2 n + ((k : Int) - f.unitBits) := by
    refine floorLog2_eq some positive ?_ ?_
    · rw [quotient, zpow_add₀ (by norm_num)]
      exact mul_le_mul_of_nonneg_right (mul_le_mul_of_nonneg_right low step.le) den'.le
    · rw [quotient, add_right_comm, zpow_add₀ (by norm_num)]
      exact mul_lt_mul_of_pos_right (mul_lt_mul_of_pos_right high step) den'
  have most : Nat.log2 n < f.fractionBits + 1 := (Nat.log2_lt (by omega)).2 bounded
  rw [logarithm]
  rcases normal with rfl | filled
  · omega
  · have least : f.fractionBits ≤ Nat.log2 n := (Nat.le_log2 (by omega)).2 filled
    omega

theorem scaledDown_exact {u : Nat} (scaled : num * 2 ^ u = n * 2 ^ k * den) :
    (scaledDown num den (k - u)).1 = n * (scaledDown num den (k - u)).2 := by
  unfold scaledDown
  split
  · have steps : ((k : Int) - u).toNat = k - u := by omega
    apply Nat.mul_right_cancel (Nat.two_pow_pos u)
    show num * 2 ^ u = n * (den * 2 ^ ((k : Int) - u).toNat) * 2 ^ u
    rw [steps, scaled, Nat.mul_assoc n (den * _), Nat.mul_assoc den, ← Nat.pow_add, show k - u + u = k by omega]
    ring
  · have steps : (-((k : Int) - u)).toNat = u - k := by omega
    apply Nat.mul_right_cancel (Nat.two_pow_pos k)
    show num * 2 ^ (-((k : Int) - u)).toNat * 2 ^ k = n * den * 2 ^ k
    rw [steps, Nat.mul_assoc, ← Nat.pow_add, show u - k + k = u by omega, scaled]
    ring

/-- A quotient that is a significand at a number of steps is rounded to their pattern. -/
theorem Format.nearest_exact (negative : Bool) (positive : 0 < den)
    (scaled : num * 2 ^ f.unitBits = n * 2 ^ k * den) (bounded : n < 2 ^ (f.fractionBits + 1))
    (normal : k = 0 ∨ 2 ^ f.fractionBits ≤ n) (some : 0 < num) :
    f.nearest negative num den = f.signed negative (f.assemble n k) := by
  have denominator : 0 < (scaledDown num den (k - f.unitBits)).2 := by
    unfold scaledDown
    split
    · exact Nat.mul_pos positive (Nat.two_pow_pos _)
    · exact positive
  have whole := scaledDown_exact scaled
  unfold nearest
  simp only [steps_exact positive scaled bounded normal some, if_neg (Nat.ne_of_gt some)]
  rw [whole, divToEven_exact _ _ denominator]
  congr 2
  omega

end Exact

section Narrowing

theorem Format.units_eq (f : Format) (exponent : Nat) {fraction : Nat} (small : fraction < 2 ^ f.fractionBits) :
    ∃ n k, f.units exponent fraction = n * 2 ^ k ∧ n < 2 ^ (f.fractionBits + 1) ∧ (k = 0 ∨ 2 ^ f.fractionBits ≤ n) ∧
      k ≤ exponent - 1 := by
  rw [Nat.pow_succ]
  unfold units
  split
  · exact ⟨fraction, 0, by rw [Nat.pow_zero, Nat.mul_one], by omega, .inl rfl, Nat.zero_le _⟩
  · refine ⟨2 ^ f.fractionBits + fraction, exponent - 1, rfl, by omega, .inr (Nat.le_add_right _ _), Nat.le_refl _⟩

theorem Format.units_of_read (f : Format) {bits units : Nat} {negative : Bool}
    (read : f.read bits = .finite negative units) :
    ∃ n k, units = n * 2 ^ k ∧ n < 2 ^ (f.fractionBits + 1) ∧ (k = 0 ∨ 2 ^ f.fractionBits ≤ n) ∧
      k ≤ 2 ^ f.exponentBits - 3 := by
  rw [read_units] at read
  split at read
  · cases read
  · split at read
    · cases read
    · rename_i number finite
      have below : bits % f.signBit < (2 ^ f.exponentBits - 1) * 2 ^ f.fractionBits :=
        Nat.lt_of_le_of_ne (Nat.not_lt.1 number) finite
      have exponent : bits % f.signBit / 2 ^ f.fractionBits < 2 ^ f.exponentBits - 1 :=
        Nat.div_lt_of_lt_mul (by rwa [Nat.mul_comm] at below)
      obtain ⟨n, k, same, bounded, normal, steps⟩ :=
        f.units_eq (bits % f.signBit / 2 ^ f.fractionBits) (Nat.mod_lt (bits % f.signBit) (Nat.two_pow_pos _))
      injection read with _ units
      exact ⟨n, k, units.symm.trans same, bounded, normal, by omega⟩

theorem Binary32.read_inj {x y : Binary32} (number : x.read ≠ .notANumber) (same : x.read = y.read) : x = y := by
  have patterns : 2 * single.signBit = 2 ^ 32 := by decide
  have bits : x.bits.toNat = y.bits.toNat := by
    apply Format.read_inj _ _ number same
    · rw [patterns]
      exact x.bits.toNat_lt
    · rw [patterns]
      exact y.bits.toNat_lt
  obtain ⟨bits'⟩ := x
  exact congrArg Binary32.mk (UInt32.toNat_inj.1 bits)

theorem Binary32.read_nearest (negative : Bool) (num den : Nat) :
    (Binary32.mk (UInt32.ofNat (single.nearest negative num den))).read =
      single.read (single.nearest negative num den) := by
  have patterns : 2 * single.signBit = 2 ^ 32 := by decide
  obtain ⟨magnitude, bound, same⟩ := single.nearest_signed negative num den (by decide)
  have small := Format.signed_lt negative (Nat.lt_of_le_of_lt bound single.infinity_lt)
  rw [Binary32.read, same, UInt32.toNat_ofNat_of_lt' (Nat.lt_of_lt_of_eq small patterns)]

theorem Format.read_nearest_zero (f : Format) (negative : Bool) (den : Nat) (wide : 1 < 2 ^ f.exponentBits) :
    f.read (f.nearest negative 0 den) = .finite negative 0 := by
  have parts := f.read_parts negative 0 (Nat.two_pow_pos _) (by omega)
  rwa [Nat.zero_mul, Nat.zero_add] at parts

theorem Format.read_nearest (f : Format) (negative : Bool) {num den n k : Nat} (positive : 0 < den)
    (scaled : num * 2 ^ f.unitBits = n * 2 ^ k * den) (bounded : n < 2 ^ (f.fractionBits + 1))
    (normal : k = 0 ∨ 2 ^ f.fractionBits ≤ n) (fits : k + 2 < 2 ^ f.exponentBits) :
    f.read (f.nearest negative num den) = .finite negative (n * 2 ^ k) := by
  rcases Nat.eq_zero_or_pos num with rfl | some
  · have none : n * 2 ^ k = 0 := by
      rw [Nat.zero_mul] at scaled
      exact (Nat.mul_eq_zero.1 scaled.symm).resolve_right (Nat.ne_of_gt positive)
    rw [none]
    exact f.read_nearest_zero negative den (by omega)
  · rw [nearest_exact negative positive scaled bounded normal some]
    exact f.read_assemble negative bounded normal fits

theorem Binary32.read_widen {x : Binary32} {negative : Bool} {units : Nat} (read : x.read = .finite negative units) :
    x.widen.read = .finite negative (units * 2 ^ (double.unitBits - single.unitBits)) := by
  obtain ⟨n, k, rfl, bounded, -, fits⟩ := single.units_of_read read
  obtain ⟨magnitude, bound, same⟩ := double.nearest_signed negative (n * 2 ^ k) (2 ^ single.unitBits) (by decide)
  have wide : x.widen.read = double.read (double.nearest negative (n * 2 ^ k) (2 ^ single.unitBits)) := by
    rw [widen, read]
    show (Binary64.ofPattern (double.nearest negative (n * 2 ^ k) (2 ^ single.unitBits))).read = _
    rw [same, Binary64.read_ofSigned negative bound]
  rw [wide]
  rcases Nat.eq_zero_or_pos n with rfl | significant
  · rw [Nat.zero_mul, Nat.zero_mul]
    exact double.read_nearest_zero negative _ (by decide)
  · have units : double.unitBits = 1074 ∧ single.unitBits = 149 := ⟨rfl, rfl⟩
    have fractions : double.fractionBits = 52 ∧ single.fractionBits = 23 := ⟨rfl, rfl⟩
    have most : Nat.log2 n < single.fractionBits + 1 := (Nat.log2_lt (by omega)).2 bounded
    have steps : k ≤ 253 := fits
    -- The significand is shifted until it fills the wide format, by as many steps as it takes away.
    obtain ⟨shift, shifted⟩ : ∃ m, m = double.fractionBits - Nat.log2 n := ⟨_, rfl⟩
    obtain ⟨steps', left⟩ : ∃ m, m = k + (double.unitBits - single.unitBits) - shift := ⟨_, rfl⟩
    have filled : n * 2 ^ k * 2 ^ (double.unitBits - single.unitBits) = n * 2 ^ shift * 2 ^ steps' := by
      rw [Nat.mul_assoc, Nat.mul_assoc, ← Nat.pow_add, ← Nat.pow_add]
      congr 2
      omega
    have scaled : n * 2 ^ k * 2 ^ double.unitBits = n * 2 ^ shift * 2 ^ steps' * 2 ^ single.unitBits := by
      rw [← filled, Nat.mul_assoc (n * 2 ^ k), ← Nat.pow_add, Nat.sub_add_cancel (by omega)]
    have upper : n * 2 ^ shift < 2 ^ (double.fractionBits + 1) := by
      calc n * 2 ^ shift
          < 2 ^ (Nat.log2 n + 1) * 2 ^ shift := Nat.mul_lt_mul_of_pos_right Nat.lt_log2_self (Nat.two_pow_pos _)
        _ = 2 ^ (double.fractionBits + 1) := by
            rw [← Nat.pow_add, show Nat.log2 n + 1 + shift = double.fractionBits + 1 by omega]
    have lower : 2 ^ double.fractionBits ≤ n * 2 ^ shift := by
      calc 2 ^ double.fractionBits = 2 ^ Nat.log2 n * 2 ^ shift := by
            rw [← Nat.pow_add, show Nat.log2 n + shift = double.fractionBits by omega]
        _ ≤ n * 2 ^ shift := Nat.mul_le_mul_right _ (Nat.log2_self_le (by omega))
    rw [filled]
    exact double.read_nearest negative (Nat.two_pow_pos _) scaled upper (.inr lower) (show steps' + 2 < 2 ^ 11 by omega)

/-- A number that is widened and narrowed again is the one that it was. -/
theorem Binary32.narrow_widen {x : Binary32} (number : x.read ≠ .notANumber) : x.widen.narrow = x := by
  symm
  apply read_inj number
  rcases read : x.read with _ | negative | ⟨negative, units⟩
  · contradiction
  · rw [widen, read]
    cases negative <;> decide
  · obtain ⟨n, k, rfl, bounded, normal, fits⟩ := single.units_of_read read
    have scaled : n * 2 ^ k * 2 ^ (double.unitBits - single.unitBits) * 2 ^ single.unitBits =
        n * 2 ^ k * 2 ^ double.unitBits := by
      rw [Nat.mul_assoc (n * 2 ^ k), ← Nat.pow_add, Nat.sub_add_cancel (by decide)]
    have steps : k ≤ 253 := fits
    have one : Binary64.unitsPerOne = 2 ^ double.unitBits := by
      unfold Binary64.unitsPerOne
      generalize double.unitBits = bits
      rfl
    obtain ⟨den, whole⟩ : ∃ den, den = Binary64.unitsPerOne := ⟨_, rfl⟩
    have positive : 0 < den := by
      rw [whole, one]
      exact Nat.two_pow_pos _
    rw [← one, ← whole] at scaled
    rw [Binary64.narrow, read_widen read, ← whole]
    simp only []
    rw [read_nearest]
    exact (single.read_nearest negative positive scaled bounded normal (show k + 2 < 2 ^ 8 by omega)).symm

end Narrowing

end RecordMapper.Number
