import ForeignCall.Decimal.Reading
import ForeignCall.Decimal.Shortest
import ForeignCall.Scalar
import ForeignCall.Text.Numeral

/-!
# Arguments on the command line

The text of an argument and of a result. An integer is an optional minus sign, an optional `0x`, an
optional plus sign and digits; it is taken modulo a word, so both readings of a word can be written.
A float is read in the format of its parameter.
-/

namespace ForeignCall.Tool

/-- Why digits are no natural number of 64 bits. -/
inductive IntegerTextError where
  | empty
  | invalidDigit
  | overflow
  deriving DecidableEq, Repr

/-- The wording of the error. -/
def IntegerTextError.message : IntegerTextError → String
  | empty => "cannot parse integer from empty string"
  | invalidDigit => "invalid digit found in string"
  | overflow => "number too large to fit in target type"

/-- Reads digits from left to right after a number read before. The first character that is no
digit or makes the number too large ends it. -/
def scanDigits (base : Nat) : Nat → List Char → Except IntegerTextError Nat
  | n, [] => .ok n
  | n, c :: rest =>
    match Text.digitValue? base c with
    | none => .error .invalidDigit
    | some d =>
      if 1 <<< 64 ≤ base * n + d then .error .overflow else scanDigits base (base * n + d) rest

/-- Reads a natural number of 64 bits, with an optional plus sign. -/
def readMagnitude (base : Nat) : List Char → Except IntegerTextError Nat
  | [] => .error .empty
  | ['+'] => .error .invalidDigit
  | '+' :: digits => scanDigits base 0 digits
  | digits => scanDigits base 0 digits

/-- Reads what follows the sign of an integer. -/
def readUnsigned : List Char → Except IntegerTextError Nat
  | '0' :: 'x' :: digits => readMagnitude 16 digits
  | '0' :: 'X' :: digits => readMagnitude 16 digits
  | digits => readMagnitude 10 digits

/-- Reads an integer as a word. -/
def readInteger (text : String) : Except IntegerTextError Word :=
  match text.toList with
  | '-' :: digits => (readUnsigned digits).map fun n => -BitVec.ofNat 64 n
  | digits => (readUnsigned digits).map fun n => BitVec.ofNat 64 n

/-- Why a text is no argument. -/
inductive ArgumentError where
  | integer (text : String) (error : IntegerTextError)
  | float (error : Decimal.FloatTextError)
  deriving DecidableEq, Repr

/-- The error and its causes, outermost first. -/
def ArgumentError.chain : ArgumentError → List String
  | integer text e => [s!"'{text}' is not an integer", e.message]
  | float e => [e.message]

/-- Reads an argument for a parameter of a type. -/
def readArgument (text : String) : Scalar → Except ArgumentError Word
  | .f32 => ((Decimal.readFloat .single text).map (BitVec.ofNat 64)).mapError .float
  | .f64 => ((Decimal.readFloat .double text).map (BitVec.ofNat 64)).mapError .float
  | _ => (readInteger text).mapError (.integer text)

/-- The text of a result of a type. -/
def printResult (raw : Word) (t : Scalar) : String :=
  match t with
  | .f32 => Decimal.print .single (raw.setWidth 32).toNat
  | .f64 => Decimal.print .double raw.toNat
  | t =>
    if t.isSigned then String.ofList (Text.signedDecimal raw.toInt)
    else String.ofList (Text.decimal raw.toNat)

end ForeignCall.Tool
