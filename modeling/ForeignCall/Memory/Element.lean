import ForeignCall.Memory.Cell
import ForeignCall.Text.Numeral

/-!
# Elements

The eleven element types memory is accessed by, and the text of their values. Integers are written
in decimal; a float is written by its bit pattern, so that every not-a-number keeps its payload.
-/

namespace ForeignCall.Memory

/-- An element type. -/
inductive ElementType where
  | u8 | i8 | u16 | i16 | u32 | i32 | u64 | i64 | f32 | f64
  /-- An address. -/
  | ptr
  deriving DecidableEq, Repr

/-- How the bit pattern of an element is read. -/
inductive ElementKind where
  | unsigned | signed | pattern
  deriving DecidableEq, Repr

namespace ElementType

/-- Every element type once. -/
def all : List ElementType := [u8, i8, u16, i16, u32, i32, u64, i64, f32, f64, ptr]

/-- The name of the type. -/
def name : ElementType → String
  | u8 => "u8"
  | i8 => "i8"
  | u16 => "u16"
  | i16 => "i16"
  | u32 => "u32"
  | i32 => "i32"
  | u64 => "u64"
  | i64 => "i64"
  | f32 => "f32"
  | f64 => "f64"
  | ptr => "ptr"

/-- The element type with a given name. -/
def ofName? (text : String) : Option ElementType := all.find? (·.name = text)

/-- Width of an element in bytes. -/
def width : ElementType → Nat
  | u8 | i8 => 1
  | u16 | i16 => 2
  | u32 | i32 | f32 => 4
  | u64 | i64 | f64 | ptr => 8

/-- How its bit pattern is read. -/
def kind : ElementType → ElementKind
  | u8 | u16 | u32 | u64 | ptr => .unsigned
  | i8 | i16 | i32 | i64 => .signed
  | f32 | f64 => .pattern

end ElementType

/-- Reads the text of a value; none if it is no number or does not fit. -/
def ElementType.read (t : ElementType) (text : String) : Option (Cell t.width) :=
  let bits := 8 * t.width
  match t.kind, text.toList with
  | .unsigned, cs => ((Text.readNatural 10 cs).filter (· < 1 <<< bits)).map (BitVec.ofNat _)
  | .signed, '-' :: '+' :: _ => none
  | .signed, '-' :: cs =>
    ((Text.readNatural 10 cs).filter (· ≤ 1 <<< (bits - 1))).map fun n => -BitVec.ofNat _ n
  | .signed, cs => ((Text.readNatural 10 cs).filter (· < 1 <<< (bits - 1))).map (BitVec.ofNat _)
  | .pattern, '0' :: 'x' :: cs =>
    ((Text.readNatural 16 cs).filter (· < 1 <<< bits)).map (BitVec.ofNat _)
  | .pattern, _ => none

/-- The text of a value. -/
def ElementType.print (t : ElementType) (v : Cell t.width) : String :=
  match t.kind with
  | .unsigned => String.ofList (Text.decimal v.toNat)
  | .signed => String.ofList (Text.signedDecimal v.toInt)
  | .pattern =>
    "0x" ++ String.ofList (Text.zeroFilled (2 * t.width) (Text.hexadecimal v.toNat))

end ForeignCall.Memory
