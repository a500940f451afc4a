import ForeignCall.Decimal.Binary
import ForeignCall.Native.Integer

/-!
# Native functions on floats

The floating-point functions of the C library that a process has at hand. They are exact on bit
patterns, so every not-a-number keeps its payload; one that goes through arithmetic becomes quiet.
-/

namespace ForeignCall.Native

open Decimal (BinaryFormat)

/-- The magnitude of one pattern with the sign of another. -/
def withSignOf (f : BinaryFormat) (magnitude sign : Nat) : Nat :=
  f.withSign (sign / f.signPattern % 2 = 1) (magnitude % f.signPattern)

/-- A double with the sign of another. -/
def copysign : Function := fun _ d =>
  BitVec.ofNat 64 (withSignOf .double (d.float 0).toNat (d.float 1).toNat)

/-- A float with the sign of another. -/
def copysignf : Function := fun _ d =>
  let low (k : Nat) := ((d.float k).setWidth 32).toNat
  BitVec.ofNat 64 (withSignOf .single (low 0) (low 1))

/-- A value times a power of two, rounded once. No value needs a power beyond three thousand; a
not-a-number becomes quiet whatever the power. -/
def scale (f : BinaryFormat) (pattern : Nat) (power : Int) : Nat :=
  match f.decode pattern with
  | .finite negative significand exponent =>
    let power := max (-3000) (min 3000 power)
    f.withSign negative (f.ofScaled significand (exponent + power))
  | .infinite _ => pattern
  | .nan _ => f.quiet pattern

/-- A double times a power of two. -/
def ldexp : Function := fun _ d =>
  BitVec.ofNat 64 (scale .double (d.float 0).toNat (int32 d 0).toInt)

end ForeignCall.Native
