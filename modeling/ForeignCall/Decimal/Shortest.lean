import ForeignCall.Decimal.Binary
import ForeignCall.Text.Numeral

/-!
# Printing floats

A finite value is printed with the fewest digits that read back as the same value, and of those
with the nearest ones; between two equally near numbers the greater is taken. Digits are always
written positionally, without an exponent and without a point after a whole number. A value can
also be printed with a fixed number of places, where a half goes to the even neighbour and
not-a-number keeps its sign.
-/

namespace ForeignCall.Decimal

/-- A positive value with the bounds of the numbers that round to it, as numerators over one
denominator. -/
structure Window where
  low : Nat
  value : Nat
  high : Nat
  denominator : Nat
  /-- Whether the bounds themselves round to the value. -/
  closed : Bool
  deriving DecidableEq, Repr

/-- The numbers that round to a positive significand times a power of two. Below a power of two
the next smaller value is only half a step away. -/
def Window.of (f : BinaryFormat) (significand : Nat) (exponent : Int) : Window :=
  let factor := if 2 ≤ exponent then 1 <<< (exponent - 2).toNat else 1
  let halfStep :=
    if significand = 1 <<< f.storedBits ∧ f.minExponent < exponent then 1 else 2
  { low := (4 * significand - halfStep) * factor
    value := 4 * significand * factor
    high := (4 * significand + 2) * factor
    denominator := if 2 ≤ exponent then 1 else 1 <<< (2 - exponent).toNat
    closed := significand % 2 = 0 }

/-- The window in units of a power of ten. -/
def Window.inUnits (w : Window) (unit : Int) : Window :=
  if 0 ≤ unit then { w with denominator := w.denominator * Nat.pow 10 unit.toNat }
  else
    let factor := Nat.pow 10 (-unit).toNat
    { w with low := w.low * factor, value := w.value * factor, high := w.high * factor }

/-- Whether a natural number lies in the window. -/
def Window.admits (w : Window) (n : Nat) : Bool :=
  let scaled := n * w.denominator
  if w.closed then w.low ≤ scaled && scaled ≤ w.high else w.low < scaled && scaled < w.high

/-- Of the two naturals beside the value the nearer one in the window. -/
def Window.neighbour (w : Window) : Option Nat :=
  let below := w.value / w.denominator
  let remainder := w.value % w.denominator
  match w.admits below, w.admits (below + 1) with
  | true, true => some (if 2 * remainder < w.denominator then below else below + 1)
  | true, false => some below
  | false, true => some (below + 1)
  | false, false => none

/-- The number of digits before the point of a positive ratio; zero or negative for one below a
tenth of it. -/
def magnitude (num den : Nat) : Int :=
  if den ≤ num then Int.ofNat (Text.decimal (num / den)).length
  else
    let n := (Text.decimal (den / num)).length
    if den ≤ num * Nat.pow 10 (n - 1) then 2 - Int.ofNat n else 1 - Int.ofNat n

/-- Looks for a number in the window on ever finer grids, one more digit at a time. -/
def Window.search (w : Window) : Nat → Int → Nat × Int
  | 0, unit => ((w.inUnits unit).value / (w.inUnits unit).denominator, unit)
  | n + 1, unit =>
    match (w.inUnits unit).neighbour with
    | some digits => (digits, unit)
    | none => w.search n (unit - 1)

/-- The shortest digits of a positive value with the power of ten they are multiplied with. No
format needs more than seventeen digits. -/
def shortest (f : BinaryFormat) (significand : Nat) (exponent : Int) : Nat × Int :=
  let w := Window.of f significand exponent
  w.search 17 (magnitude w.value w.denominator - 1)

/-- Digits times a power of ten, written positionally. Trailing zeros after the point are left
out, with the point if nothing follows it. -/
def positional (digits : Nat) (unit : Int) : List Char :=
  if 0 ≤ unit then Text.decimal digits ++ List.replicate unit.toNat '0'
  else
    let places := (-unit).toNat
    let padded := Text.zeroFilled (places + 1) (Text.decimal digits)
    let whole := padded.take (padded.length - places)
    let fraction :=
      ((padded.drop (padded.length - places)).reverse.dropWhile (· = '0')).reverse
    if fraction = [] then whole else whole ++ '.' :: fraction

/-- The sign of a text. -/
def signed (negative : Bool) (text : List Char) : List Char :=
  if negative then '-' :: text else text

/-- The text of a pattern with the fewest digits that read back. -/
def print (f : BinaryFormat) (pattern : Nat) : String :=
  match f.decode pattern with
  | .nan _ => "NaN"
  | .infinite negative => String.ofList (signed negative "inf".toList)
  | .finite negative 0 _ => String.ofList (signed negative ['0'])
  | .finite negative significand exponent =>
    let (digits, unit) := shortest f significand exponent
    String.ofList (signed negative (positional digits unit))

/-- The text of a value with a fixed number of places. -/
def fixedPlaces (places : Nat) : FloatValue → List Char
  | .nan negative => signed negative "nan".toList
  | .infinite negative => signed negative "inf".toList
  | .finite negative significand exponent =>
    let scaled :=
      if 0 ≤ exponent then significand <<< exponent.toNat * Nat.pow 10 places
      else roundHalfEven (significand * Nat.pow 10 places) (1 <<< (-exponent).toNat)
    let padded := Text.zeroFilled (places + 1) (Text.decimal scaled)
    let whole := padded.take (padded.length - places)
    let fraction := padded.drop (padded.length - places)
    signed negative (if places = 0 then whole else whole ++ '.' :: fraction)

end ForeignCall.Decimal
