import RecordMapper.Number.Binary64

namespace RecordMapper.Number

namespace Format

variable (f : Format)

def units (exponent fraction : Nat) : Nat :=
  if exponent = 0 then fraction else (Nat.pow 2 f.fractionBits + fraction) * Nat.pow 2 (exponent - 1)

theorem read_units (bits : Nat) :
    f.read bits =
      if f.infinity < bits % f.signBit then .notANumber
      else if bits % f.signBit = f.infinity then .infinite (decide (f.signBit ≤ bits))
      else .finite (decide (f.signBit ≤ bits))
        (f.units (bits % f.signBit / Nat.pow 2 f.fractionBits) (bits % f.signBit % Nat.pow 2 f.fractionBits)) := by
  unfold read units
  simp only []
  split
  · rfl
  · split
    · rfl
    · split <;> rfl

variable {f} {exponent fraction exponent' fraction' : Nat}

theorem units_lt (small : fraction < Nat.pow 2 f.fractionBits) :
    f.units exponent fraction < Nat.pow 2 f.fractionBits * Nat.pow 2 exponent := by
  unfold units
  by_cases subnormal : exponent = 0
  · rw [if_pos subnormal, subnormal]
    exact Nat.lt_of_lt_of_eq small (Nat.mul_one _).symm
  · have twice : Nat.pow 2 exponent = 2 * Nat.pow 2 (exponent - 1) := by
      show 2 ^ exponent = 2 * 2 ^ (exponent - 1)
      rw [← Nat.pow_succ']
      congr 1
      omega
    rw [if_neg subnormal, twice, Nat.mul_left_comm, ← Nat.mul_assoc]
    exact Nat.mul_lt_mul_of_pos_right (by omega) (Nat.two_pow_pos _)

theorem units_lt_of_exponent (small : fraction < Nat.pow 2 f.fractionBits) (less : exponent < exponent') :
    f.units exponent fraction < f.units exponent' fraction' := by
  have normal : exponent' ≠ 0 := by omega
  calc f.units exponent fraction
      < Nat.pow 2 f.fractionBits * Nat.pow 2 exponent := units_lt small
    _ ≤ (Nat.pow 2 f.fractionBits + fraction') * Nat.pow 2 (exponent' - 1) :=
        Nat.mul_le_mul (Nat.le_add_right _ _) (Nat.pow_le_pow_right (by decide) (by omega))
    _ = f.units exponent' fraction' := by rw [units, if_neg normal]

theorem units_inj (small : fraction < Nat.pow 2 f.fractionBits) (small' : fraction' < Nat.pow 2 f.fractionBits)
    (same : f.units exponent fraction = f.units exponent' fraction') : exponent = exponent' ∧ fraction = fraction' := by
  rcases Nat.lt_trichotomy exponent exponent' with less | rfl | more
  · exact absurd same (Nat.ne_of_lt (units_lt_of_exponent small less))
  · refine ⟨rfl, ?_⟩
    unfold units at same
    split at same
    · exact same
    · have significands := Nat.mul_right_cancel (Nat.two_pow_pos _) same
      omega
  · exact absurd same.symm (Nat.ne_of_lt (units_lt_of_exponent small' more))

theorem eq_of_parts {a b : Nat} (first : a < 2 * f.signBit) (second : b < 2 * f.signBit)
    (sign : decide (f.signBit ≤ a) = decide (f.signBit ≤ b)) (magnitude : a % f.signBit = b % f.signBit) : a = b := by
  have signs : f.signBit ≤ a ↔ f.signBit ≤ b := decide_eq_decide.1 sign
  have whole : ∀ c < 2 * f.signBit, c = if f.signBit ≤ c then f.signBit + c % f.signBit else c % f.signBit := by
    intro c bound
    split
    · rename_i negative
      rw [Nat.mod_eq_sub_mod negative, Nat.mod_eq_of_lt (by omega)]
      omega
    · rename_i nonnegative
      rw [Nat.mod_eq_of_lt (by omega)]
  rw [whole a first, whole b second, magnitude]
  by_cases negative : f.signBit ≤ a
  · rw [if_pos negative, if_pos (signs.1 negative)]
  · rw [if_neg negative, if_neg fun other => negative (signs.2 other)]

theorem read_inj {a b : Nat} (first : a < 2 * f.signBit) (second : b < 2 * f.signBit)
    (number : f.read a ≠ .notANumber) (same : f.read a = f.read b) : a = b := by
  have other : f.read b ≠ .notANumber := same ▸ number
  rw [read_units] at number same
  rw [read_units] at other same
  split at number
  · contradiction
  · split at other
    · contradiction
    · rename_i small small'
      rw [if_neg small, if_neg small'] at same
      split at same
      · rename_i infinite
        split at same
        · rename_i infinite'
          injection same with sign
          exact eq_of_parts first second sign (infinite.trans infinite'.symm)
        · cases same
      · split at same
        · cases same
        · injection same with sign units
          have positive : 0 < Nat.pow 2 f.fractionBits := Nat.two_pow_pos _
          obtain ⟨exponent, fraction⟩ := units_inj (Nat.mod_lt _ positive) (Nat.mod_lt _ positive) units
          apply eq_of_parts first second sign
          rw [← Nat.div_add_mod (a % f.signBit) (Nat.pow 2 f.fractionBits), exponent, fraction, Nat.div_add_mod]

end Format

namespace Binary64

theorem read_inj {x y : Binary64} (number : x.read ≠ .notANumber) (same : x.read = y.read) : x = y := by
  have patterns : 2 * double.signBit = 2 ^ 64 := by decide
  have bits : x.bits.toNat = y.bits.toNat := by
    apply Format.read_inj _ _ number same
    · rw [patterns]
      exact x.bits.toNat_lt
    · rw [patterns]
      exact y.bits.toNat_lt
  obtain ⟨bits'⟩ := x
  exact congrArg Binary64.mk (UInt64.toNat_inj.1 bits)

theorem key_cases {x : Binary64} (number : x.read ≠ .notANumber) :
    x.key = x.bits ∨ ∃ negative, x.read = .finite negative 0 ∧ x.key = 0 := by
  unfold key
  split
  · contradiction
  · rename_i negative zero
    exact .inr ⟨negative, zero, rfl⟩
  · exact .inl rfl

theorem key_zero {x : Binary64} {negative : Bool} (zero : x.read = .finite negative 0) : x.key = 0 := by
  simp only [key, zero]

/-- Numbers of one key are the same, zeros apart. -/
theorem eq_of_key {x y : Binary64} (first : x.read ≠ .notANumber) (second : y.read ≠ .notANumber)
    (same : x.key = y.key) : x = y ∨ ∃ a b, x.read = .finite a 0 ∧ y.read = .finite b 0 := by
  have zero : ∀ z : Binary64, z.bits = 0 → z.read = .finite false 0 := by
    rintro ⟨bits⟩ rfl
    decide
  rcases key_cases first with bits | ⟨a, read, key⟩
  · rcases key_cases second with bits' | ⟨b, read', key'⟩
    · left
      exact congrArg Binary64.mk (bits.symm.trans (same.trans bits'))
    · exact .inr ⟨false, b, zero x (bits.symm.trans (same.trans key')), read'⟩
  · rcases key_cases second with bits' | ⟨b, read', key'⟩
    · exact .inr ⟨a, false, read, zero y (bits'.symm.trans (same.symm.trans key))⟩
    · exact .inr ⟨a, b, read, read'⟩

theorem compare?_self (x : Binary64) : (x.compare? x).getD .eq = .eq := by
  unfold compare?
  rcases x.read with _ | a | ⟨a, m⟩ <;> simp

theorem compare?_of_key {x y : Binary64} (same : x.key = y.key) : (x.compare? y).getD .eq = .eq := by
  by_cases first : x.read = .notANumber
  · simp [compare?, first]
  · by_cases second : y.read = .notANumber
    · rcases read : x.read with _ | a | ⟨a, m⟩ <;> simp [compare?, second, read]
    · rcases eq_of_key first second same with rfl | ⟨a, b, read, read'⟩
      · exact compare?_self x
      · simp [compare?, read, read']

theorem key_of_compare? {x y : Binary64} (first : x.read ≠ .notANumber) (second : y.read ≠ .notANumber)
    (equal : (x.compare? y).getD .eq = .eq) : x.key = y.key := by
  unfold compare? at equal
  rcases read : x.read with _ | a | ⟨a, m⟩
  · contradiction
  · rcases read' : y.read with _ | b | ⟨b, n⟩
    · contradiction
    · rw [read, read'] at equal
      have sign : a = b := by
        cases a <;> cases b <;> simp_all
      have same : x.read = y.read := by rw [read, read', sign]
      rw [read_inj first same]
    · rw [read, read'] at equal
      cases a <;> simp at equal
  · rcases read' : y.read with _ | b | ⟨b, n⟩
    · contradiction
    · rw [read, read'] at equal
      cases b <;> simp at equal
    · rw [read, read'] at equal
      have units : (if a then -(m : Int) else m) = if b then -(n : Int) else n := by
        simpa using equal
      by_cases zero : m = 0
      · have zero' : n = 0 := by
          subst zero
          cases b <;> simp at units <;> omega
        subst zero zero'
        rw [key_zero read, key_zero read']
      · have both : a = b ∧ m = n := by
          cases a <;> cases b <;> simp at units ⊢ <;> omega
        have same : x.read = y.read := by rw [read, read', both.1, both.2]
        rw [read_inj first same]

end Binary64

end RecordMapper.Number
