import RecordMapper.Number.Numeral
import RecordMapper.Proofs.Number.Patterns

namespace RecordMapper.Number

namespace Format

variable {f : Format} {magnitude : Nat}

theorem infinity_lt (f : Format) : f.infinity < f.signBit := by
  have whole : Nat.pow 2 (f.exponentBits + f.fractionBits) = Nat.pow 2 f.exponentBits * Nat.pow 2 f.fractionBits :=
    Nat.pow_add 2 _ _
  rw [infinity, signBit, whole]
  exact Nat.mul_lt_mul_of_pos_right (Nat.sub_lt (Nat.two_pow_pos _) (by decide)) (Nat.two_pow_pos _)

theorem signed_mod (negative : Bool) (small : magnitude < f.signBit) :
    f.signed negative magnitude % f.signBit = magnitude := by
  unfold signed
  split
  · rw [Nat.add_mod_left, Nat.mod_eq_of_lt small]
  · exact Nat.mod_eq_of_lt small

theorem signed_lt (negative : Bool) (small : magnitude < f.signBit) : f.signed negative magnitude < 2 * f.signBit := by
  unfold signed
  split <;> omega

theorem read_signed (negative : Bool) (bound : magnitude ≤ f.infinity) :
    f.read (f.signed negative magnitude) ≠ .notANumber := by
  rw [read_units, signed_mod negative (Nat.lt_of_le_of_lt bound f.infinity_lt), if_neg (by omega)]
  split <;> exact fun same => nomatch same

theorem read_signed_pos {negative sign : Bool} (bound : magnitude ≤ f.infinity) (positive : 0 < magnitude) :
    f.read (f.signed negative magnitude) ≠ .finite sign 0 := by
  rw [read_units, signed_mod negative (Nat.lt_of_le_of_lt bound f.infinity_lt), if_neg (by omega)]
  split
  · exact fun same => nomatch same
  · intro same
    injection same with _ none
    have one : 0 < Nat.pow 2 f.fractionBits := Nat.two_pow_pos _
    have zero : f.units (magnitude / Nat.pow 2 f.fractionBits) (magnitude % Nat.pow 2 f.fractionBits) = f.units 0 0 :=
      none
    have parts := units_inj (Nat.mod_lt _ one) one zero
    have whole := Nat.div_add_mod magnitude (Nat.pow 2 f.fractionBits)
    rw [parts.1, parts.2] at whole
    omega

theorem assemble_le (significand steps : Nat) (wide : 0 < f.exponentBits) :
    f.assemble significand steps ≤ f.infinity := by
  unfold assemble
  split
  · rename_i small
    have two : 2 ≤ Nat.pow 2 f.exponentBits := Nat.le_self_pow (by omega) 2
    calc significand
        ≤ 1 * Nat.pow 2 f.fractionBits := by omega
      _ ≤ f.infinity := Nat.mul_le_mul_right _ (by omega)
  · exact Nat.min_le_left _ _

theorem assemble_pos {significand : Nat} (steps : Nat) (wide : 0 < f.exponentBits) (positive : 0 < significand) :
    0 < f.assemble significand steps := by
  unfold assemble
  split
  · exact positive
  · have two : 2 ≤ Nat.pow 2 f.exponentBits := Nat.le_self_pow (by omega) 2
    exact Nat.lt_min.2 ⟨Nat.mul_pos (by omega) (Nat.two_pow_pos _), by omega⟩

theorem nearest_signed (f : Format) (negative : Bool) (num den : Nat) (wide : 0 < f.exponentBits) :
    ∃ magnitude ≤ f.infinity, f.nearest negative num den = f.signed negative magnitude := by
  unfold nearest
  split
  · exact ⟨0, Nat.zero_le _, rfl⟩
  · exact ⟨_, assemble_le _ _ wide, rfl⟩

end Format

theorem div_le_divToEven (num den : Nat) : num / den ≤ divToEven num den := by
  simp only [divToEven]
  split
  · exact Nat.le_refl _
  · split <;> omega

theorem floorLog2_le (num : Nat) : floorLog2 num 1 ≤ Nat.log2 num := by
  have one : Nat.log2 1 = 0 := by decide
  simp only [floorLog2, one]
  split <;> omega

theorem divToEven_scaledDown_pos {num : Nat} {exponent : Int} (positive : 0 < num) (bound : exponent ≤ Nat.log2 num) :
    0 < divToEven (scaledDown num 1 exponent).1 (scaledDown num 1 exponent).2 := by
  refine Nat.lt_of_lt_of_le ?_ (div_le_divToEven _ _)
  unfold scaledDown
  split
  · have power : 2 ^ exponent.toNat ≤ num :=
      Nat.le_trans (Nat.pow_le_pow_right (by decide) (by omega)) (Nat.log2_self_le (by omega))
    rw [Nat.one_mul]
    exact Nat.div_pos power (Nat.two_pow_pos _)
  · rw [Nat.div_one]
    exact Nat.mul_pos positive (Nat.two_pow_pos _)

theorem Format.nearest_whole (f : Format) {num : Nat} (negative : Bool) (positive : 0 < num)
    (wide : 0 < f.exponentBits) :
    ∃ magnitude ≤ f.infinity, 0 < magnitude ∧ f.nearest negative num 1 = f.signed negative magnitude := by
  have exponent : max (-(f.unitBits : Int)) (floorLog2 num 1 - f.fractionBits) ≤ Nat.log2 num := by
    have bound := floorLog2_le num
    omega
  unfold nearest
  rw [if_neg (by omega)]
  exact ⟨_, assemble_le _ _ wide, assemble_pos _ wide (divToEven_scaledDown_pos positive exponent), rfl⟩

namespace Binary64

theorem read_ofPattern {pattern : Nat} (small : pattern < 2 * double.signBit) :
    (ofPattern pattern).read = double.read pattern := by
  have patterns : 2 * double.signBit = 2 ^ 64 := by decide
  rw [read, ofPattern, UInt64.toNat_ofNat_of_lt' (Nat.lt_of_lt_of_eq small patterns)]

theorem read_ofSigned (negative : Bool) {magnitude : Nat} (bound : magnitude ≤ double.infinity) :
    (ofPattern (double.signed negative magnitude)).read = double.read (double.signed negative magnitude) :=
  read_ofPattern (Format.signed_lt negative (Nat.lt_of_le_of_lt bound double.infinity_lt))

theorem read_ofRatio (negative : Bool) (num den : Nat) : (ofRatio negative num den).read ≠ .notANumber := by
  obtain ⟨magnitude, bound, same⟩ := double.nearest_signed negative num den (by decide)
  rw [ofRatio, same, read_ofSigned negative bound]
  exact Format.read_signed negative bound

theorem read_infinity (negative : Bool) : (infinity negative).read ≠ .notANumber := by
  rw [infinity, read_ofSigned negative (Nat.le_refl _)]
  exact Format.read_signed negative (Nat.le_refl _)

theorem read_ofInt {n : Int} (some : n ≠ 0) (sign : Bool) : (ofInt n).read ≠ .finite sign 0 := by
  obtain ⟨magnitude, bound, positive, same⟩ := double.nearest_whole (n < 0) (show 0 < n.natAbs by omega) (by decide)
  rw [ofInt, ofRatio, same, read_ofSigned _ bound]
  exact Format.read_signed_pos bound positive

theorem ofInt_of_key {n : Int} (none : (ofInt n).key = 0) : ofInt n = zero := by
  by_cases absent : n = 0
  · subst absent
    rfl
  · rcases key_cases (read_ofRatio (n < 0) n.natAbs 1) with bits | ⟨sign, read, -⟩
    · exact congrArg Binary64.mk (bits.symm.trans none)
    · exact absurd read (read_ofInt absent sign)

end Binary64

theorem read_scaledValue (negative : Bool) (s : Nat) (exponent : Int) :
    (scaledValue negative s exponent).read ≠ .notANumber := by
  unfold scaledValue Extended.toBinary64
  simp only []
  split
  · exact Binary64.read_ofRatio _ _ _
  · split
    · exact Binary64.read_ofRatio _ _ _
    · split
      · split
        · exact Binary64.read_ofRatio _ _ _
        · exact Binary64.read_infinity _
      · split
        · split <;> exact Binary64.read_ofRatio _ _ _
        · exact Binary64.read_ofRatio _ _ _

theorem read_readNumeral (text : List Char) : (readNumeral text).2.read ≠ .notANumber := by
  unfold readNumeral
  simp only []
  split
  · decide
  · exact read_scaledValue _ _ _

end RecordMapper.Number
