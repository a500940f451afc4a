import ForeignCall.Word

/-!
# Binary floating-point formats

The two interchange formats a C scalar can have, by the number of their bits. A value is read off
its bit pattern exactly, as a significand times a power of two, and a ratio of naturals is rounded
to the nearest value, of two equally near ones to the one with the even significand. All of it is
exact arithmetic on naturals, so nothing here depends on the machine's own floats.
-/

namespace ForeignCall.Decimal

/-- A binary interchange format. -/
structure BinaryFormat where
  /-- Bits of the significand, with the leading one that is not stored. -/
  precision : Nat
  /-- Bits of the exponent. -/
  exponentBits : Nat
  deriving DecidableEq, Repr

/-- A value of a binary format. -/
inductive FloatValue where
  | nan (negative : Bool)
  | infinite (negative : Bool)
  | finite (negative : Bool) (significand : Nat) (exponent : Int)
  deriving DecidableEq, Repr

/-- The natural next to a ratio; of two equally near ones the even one. -/
def roundHalfEven (num den : Nat) : Nat :=
  let q := num / den
  let r := num % den
  if 2 * r < den then q
  else if den < 2 * r then q + 1
  else q + q % 2

/-- A ratio that is a natural is left as it is. -/
theorem roundHalfEven_mul (n den : Nat) (h : 0 < den) : roundHalfEven (n * den) den = n := by
  simp [roundHalfEven, h]

/-- The greatest power of two that a positive ratio reaches. -/
def floorLog2 (num den : Nat) : Int :=
  let k : Int := Int.ofNat num.log2 - Int.ofNat den.log2
  if 0 ≤ k then (if den <<< k.toNat ≤ num then k else k - 1)
  else if den ≤ num <<< (-k).toNat then k else k - 1

namespace BinaryFormat

/-- Single precision, 32 bits. -/
def single : BinaryFormat := ⟨24, 8⟩

/-- Double precision, 64 bits. -/
def double : BinaryFormat := ⟨53, 11⟩

/-- Number of bits of a pattern. -/
def bits (f : BinaryFormat) : Nat := f.precision + f.exponentBits

/-- Number of bits of the significand that are stored. -/
def storedBits (f : BinaryFormat) : Nat := f.precision - 1

/-- The exponent of the last place of the least values. -/
def minExponent (f : BinaryFormat) : Int :=
  2 - Int.ofNat (1 <<< (f.exponentBits - 1)) - Int.ofNat f.storedBits

/-- The pattern of the sign alone. -/
def signPattern (f : BinaryFormat) : Nat := 1 <<< (f.storedBits + f.exponentBits)

/-- The pattern of positive infinity. -/
def infinityPattern (f : BinaryFormat) : Nat := (1 <<< f.exponentBits - 1) <<< f.storedBits

/-- The pattern of the positive quiet not-a-number without payload. -/
def nanPattern (f : BinaryFormat) : Nat := f.infinityPattern + 1 <<< (f.storedBits - 1)

/-- The quiet not-a-number with the sign and the payload of another. -/
def quiet (f : BinaryFormat) (pattern : Nat) : Nat := pattern ||| 1 <<< (f.storedBits - 1)

/-- A pattern with the sign it is to have. -/
def withSign (f : BinaryFormat) (negative : Bool) (magnitude : Nat) : Nat :=
  if negative then f.signPattern + magnitude else magnitude

/-- The value of a pattern. -/
def decode (f : BinaryFormat) (pattern : Nat) : FloatValue :=
  let negative := pattern / f.signPattern % 2 = 1
  let exponent := pattern / 1 <<< f.storedBits % 1 <<< f.exponentBits
  let fraction := pattern % 1 <<< f.storedBits
  if exponent = 1 <<< f.exponentBits - 1 then
    if fraction = 0 then .infinite negative else .nan negative
  else if exponent = 0 then .finite negative fraction f.minExponent
  else
    .finite negative (1 <<< f.storedBits + fraction) (f.minExponent + Int.ofNat (exponent - 1))

/-- The pattern of the value next to a ratio that is not negative. Ratios beyond the greatest
value give infinity. -/
def ofRatio (f : BinaryFormat) (num den : Nat) : Nat :=
  if num = 0 then 0
  else
    let e := max (floorLog2 num den - Int.ofNat f.storedBits) f.minExponent
    let q :=
      if 0 ≤ e then roundHalfEven num (den <<< e.toNat)
      else roundHalfEven (num <<< (-e).toNat) den
    min ((e - f.minExponent).toNat <<< f.storedBits + q) f.infinityPattern

/-- The pattern of the value next to a significand times a power of two. -/
def ofScaled (f : BinaryFormat) (significand : Nat) (exponent : Int) : Nat :=
  if 0 ≤ exponent then f.ofRatio (significand <<< exponent.toNat) 1
  else f.ofRatio significand (1 <<< (-exponent).toNat)

end BinaryFormat

end ForeignCall.Decimal
