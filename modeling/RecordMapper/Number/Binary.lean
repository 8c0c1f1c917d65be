import RecordMapper.Number.Rounding

namespace RecordMapper.Number

structure Format where
  fractionBits : Nat
  exponentBits : Nat
  deriving DecidableEq, Repr

def double : Format := ⟨52, 11⟩
def single : Format := ⟨23, 8⟩

namespace Format

def bias (f : Format) : Nat :=
  Nat.pow 2 (f.exponentBits - 1) - 1

def unitBits (f : Format) : Nat :=
  f.bias - 1 + f.fractionBits

def infinity (f : Format) : Nat :=
  (Nat.pow 2 f.exponentBits - 1) * Nat.pow 2 f.fractionBits

def signBit (f : Format) : Nat :=
  Nat.pow 2 (f.exponentBits + f.fractionBits)

def notANumber (f : Format) : Nat :=
  f.infinity + Nat.pow 2 (f.fractionBits - 1)

end Format

/-- What a pattern means; a finite number is `units` times the format's smallest positive one. -/
inductive Reading where
  | notANumber
  | infinite (negative : Bool)
  | finite (negative : Bool) (units : Nat)
  deriving DecidableEq, Repr

namespace Format

def read (f : Format) (bits : Nat) : Reading :=
  let negative := decide (f.signBit ≤ bits)
  let magnitude := bits % f.signBit
  if f.infinity < magnitude then .notANumber
  else if magnitude = f.infinity then .infinite negative
  else
    let exponent := magnitude / Nat.pow 2 f.fractionBits
    let fraction := magnitude % Nat.pow 2 f.fractionBits
    if exponent = 0 then .finite negative fraction
    else .finite negative ((Nat.pow 2 f.fractionBits + fraction) * Nat.pow 2 (exponent - 1))

def signed (f : Format) (negative : Bool) (magnitude : Nat) : Nat :=
  if negative then f.signBit + magnitude else magnitude

/-- Pattern of `significand * 2 ^ steps` units, where `steps` is zero unless the significand fills
    the format; a significand one past the largest carries into the exponent. -/
def assemble (f : Format) (significand steps : Nat) : Nat :=
  if significand < Nat.pow 2 f.fractionBits then significand
  else min f.infinity (steps * Nat.pow 2 f.fractionBits + significand)

def nearest (f : Format) (negative : Bool) (num den : Nat) : Nat :=
  if num = 0 then f.signed negative 0
  else
    let lowest : Int := -(f.unitBits : Int)
    let exponent := max lowest (floorLog2 num den - f.fractionBits)
    let (n, d) := scaledDown num den exponent
    f.signed negative (f.assemble (divToEven n d) (exponent - lowest).toNat)

end Format

end RecordMapper.Number
