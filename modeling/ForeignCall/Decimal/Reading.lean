import ForeignCall.Decimal.Binary
import ForeignCall.Text.Numeral

/-!
# Reading decimal floats

A decimal text is an optional sign and then either digits with an optional point and an optional
exponent, with at least one digit before or after the point, or `inf`, `infinity` or `nan` in any
case. It is read as the nearest value of a binary format directly, without a detour through a
wider one.
-/

namespace ForeignCall.Decimal

/-- Why a text is no float. -/
inductive FloatTextError where
  | empty
  | invalid
  deriving DecidableEq, Repr

/-- The wording of the error. -/
def FloatTextError.message : FloatTextError → String
  | empty => "cannot parse float from empty string"
  | invalid => "invalid float literal"

/-- The natural that decimal digits denote. -/
def ofDigits (digits : List Char) : Nat :=
  digits.foldl (fun n c => 10 * n + (c.toNat - '0'.toNat)) 0

/-- Digits and the power of ten they are multiplied with. -/
structure Scientific where
  digits : Nat
  exponent : Int
  deriving DecidableEq, Repr

/-- The exponent at the end of a number: an optional sign and at least one digit. -/
def readExponent (cs : List Char) : Option Int :=
  let (negative, digits) :=
    match cs with
    | '-' :: rest => (true, rest)
    | '+' :: rest => (false, rest)
    | _ => (false, cs)
  if digits ≠ [] ∧ digits.all Char.isDigit then
    some (if negative then -Int.ofNat (ofDigits digits) else Int.ofNat (ofDigits digits))
  else none

/-- An unsigned decimal number. -/
def readNumber (cs : List Char) : Option Scientific :=
  let whole := cs.takeWhile Char.isDigit
  let rest := cs.dropWhile Char.isDigit
  let (fraction, rest) :=
    match rest with
    | '.' :: rest => (rest.takeWhile Char.isDigit, rest.dropWhile Char.isDigit)
    | _ => ([], rest)
  if whole ++ fraction = [] then none
  else
    let shift := -Int.ofNat fraction.length
    match rest with
    | [] => some ⟨ofDigits (whole ++ fraction), shift⟩
    | c :: rest =>
      if c = 'e' ∨ c = 'E' then
        (readExponent rest).map fun e => ⟨ofDigits (whole ++ fraction), e + shift⟩
      else none

/-- The pattern of the value next to a decimal number. Numbers far outside the range of every
format are recognised by the place of their first digit, so no power of ten is formed for them. -/
def Scientific.toPattern (f : BinaryFormat) (s : Scientific) : Nat :=
  if s.digits = 0 then 0
  else
    let top := Int.ofNat (Text.decimal s.digits).length + s.exponent
    if 400 < top then f.infinityPattern
    else if top < -400 then 0
    else if 0 ≤ s.exponent then f.ofRatio (s.digits * Nat.pow 10 s.exponent.toNat) 1
    else f.ofRatio s.digits (Nat.pow 10 (-s.exponent).toNat)

/-- The pattern of a name of infinity or of not-a-number. -/
def namedPattern (f : BinaryFormat) (cs : List Char) : Option Nat :=
  let name := String.ofList (cs.map Char.toLower)
  if name = "inf" ∨ name = "infinity" then some f.infinityPattern
  else if name = "nan" then some f.nanPattern
  else none

/-- Reads a float text as a pattern of a format. -/
def readFloat (f : BinaryFormat) (text : String) : Except FloatTextError Nat :=
  match text.toList with
  | [] => .error .empty
  | c :: rest =>
    let magnitude := if c = '-' ∨ c = '+' then rest else c :: rest
    match readNumber magnitude with
    | some s => .ok (f.withSign (c = '-') (s.toPattern f))
    | none =>
      match namedPattern f magnitude with
      | some pattern => .ok (f.withSign (c = '-') pattern)
      | none => .error .invalid

end ForeignCall.Decimal
