import Mathlib.Algebra.GroupWithZero.Nat
import RecordMapper.Proofs.Number.Patterns

namespace RecordMapper.Number.Binary64

def exponent (x : Binary64) : Nat :=
  x.bits.toNat / 2 ^ 52 % 2 ^ 11

def fraction (x : Binary64) : Nat :=
  x.bits.toNat % 2 ^ 52

def IsZero (x : Binary64) : Prop :=
  x.exponent = 0 ∧ x.fraction = 0

def IsNotNumber (x : Binary64) : Prop :=
  x.exponent = 2 ^ 11 - 1 ∧ x.fraction ≠ 0

instance (x : Binary64) : Decidable x.IsZero :=
  inferInstanceAs (Decidable (_ ∧ _))

instance (x : Binary64) : Decidable x.IsNotNumber :=
  inferInstanceAs (Decidable (_ ∧ _))

variable {x y : Binary64}

theorem infinity_double : double.infinity = 2047 * 2 ^ 52 := by decide

theorem signBit_double : double.signBit = 2 ^ 63 := by decide

theorem fractionBits_double : Nat.pow 2 double.fractionBits = 2 ^ 52 := rfl

theorem magnitude_eq (x : Binary64) : x.bits.toNat % 2 ^ 63 = x.exponent * 2 ^ 52 + x.fraction := by
  unfold exponent fraction
  omega

theorem fraction_lt (x : Binary64) : x.fraction < 2 ^ 52 :=
  Nat.mod_lt _ (by decide)

theorem exponent_lt (x : Binary64) : x.exponent < 2 ^ 11 :=
  Nat.mod_lt _ (by decide)

theorem read_notANumber_iff : x.read = .notANumber ↔ x.IsNotNumber := by
  have fraction := x.fraction_lt
  have exponent := x.exponent_lt
  have parts : 2047 * 2 ^ 52 < x.bits.toNat % 2 ^ 63 ↔ x.IsNotNumber := by
    rw [magnitude_eq, IsNotNumber]
    omega
  rw [← parts, read, Format.read_units, infinity_double, signBit_double]
  constructor
  · intro none
    split at none
    · assumption
    · split at none <;> cases none
  · exact fun none => if_pos none

theorem read_zero_iff : (∃ negative, x.read = .finite negative 0) ↔ x.IsZero := by
  have fraction := x.fraction_lt
  have exponent := x.exponent_lt
  have parts : x.bits.toNat % 2 ^ 63 / 2 ^ 52 = x.exponent ∧ x.bits.toNat % 2 ^ 63 % 2 ^ 52 = x.fraction := by
    rw [magnitude_eq]
    omega
  have units : double.units x.exponent x.fraction = 0 ↔ x.IsZero := by
    unfold Format.units IsZero
    by_cases subnormal : x.exponent = 0
    · simp [subnormal]
    · have positive : 0 < Nat.pow 2 (x.exponent - 1) := Nat.two_pow_pos _
      have filled : 0 < Nat.pow 2 double.fractionBits := Nat.two_pow_pos _
      rw [if_neg subnormal]
      refine ⟨fun none => ?_, fun zero => absurd zero.1 subnormal⟩
      rcases Nat.mul_eq_zero.1 none with none | none <;> omega
  rw [← units, read, Format.read_units, infinity_double, signBit_double, fractionBits_double, parts.1, parts.2]
  constructor
  · rintro ⟨negative, zero⟩
    split at zero
    · cases zero
    · split at zero
      · cases zero
      · injection zero
  · intro zero
    have small : x.bits.toNat % 2 ^ 63 = 0 := by
      rw [magnitude_eq]
      obtain ⟨first, second⟩ := units.1 zero
      omega
    rw [small, if_neg (by decide), if_neg (by decide), zero]
    exact ⟨_, rfl⟩

theorem key_notANumber (none : x.IsNotNumber) : x.key = nan.bits := by
  simp only [key, read_notANumber_iff.2 none]

theorem key_of_isZero (zero : x.IsZero) : x.key = 0 := by
  obtain ⟨negative, read⟩ := read_zero_iff.2 zero
  exact key_zero read

theorem key_ne_nan (number : ¬x.IsNotNumber) : x.key ≠ nan.bits := by
  have read : x.read ≠ .notANumber := fun none => number (read_notANumber_iff.1 none)
  intro same
  rcases key_cases read with own | ⟨negative, -, zero⟩
  · have pattern : x = nan := congrArg Binary64.mk (own.symm.trans same)
    exact number (pattern ▸ by decide)
  · exact absurd (zero.symm.trans same) (by decide)

/-- Both zeros have one key, as have all patterns that are not a number; any other pattern has one of its own. -/
theorem key_eq_iff : x.key = y.key ↔ x.bits = y.bits ∨ x.IsZero ∧ y.IsZero ∨ x.IsNotNumber ∧ y.IsNotNumber := by
  constructor
  · intro same
    by_cases first : x.IsNotNumber
    · have second : y.IsNotNumber := Decidable.not_not.1 fun number =>
        key_ne_nan number (same.symm.trans (key_notANumber first))
      exact .inr (.inr ⟨first, second⟩)
    · have second : ¬y.IsNotNumber := fun none => key_ne_nan first (same.trans (key_notANumber none))
      rcases eq_of_key (mt read_notANumber_iff.1 first) (mt read_notANumber_iff.1 second) same with rfl | ⟨a, b, zero, zero'⟩
      · exact .inl rfl
      · exact .inr (.inl ⟨read_zero_iff.1 ⟨a, zero⟩, read_zero_iff.1 ⟨b, zero'⟩⟩)
  · rintro (bits | ⟨zero, zero'⟩ | ⟨none, none'⟩)
    · obtain ⟨pattern⟩ := x
      obtain rfl : pattern = y.bits := bits
      rfl
    · rw [key_of_isZero zero, key_of_isZero zero']
    · rw [key_notANumber none, key_notANumber none']

end RecordMapper.Number.Binary64
