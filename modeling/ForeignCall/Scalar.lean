import ForeignCall.Word

/-!
# Scalar types

The ten C scalars a call can pass or return. A caller may leave anything above the declared width
of a value in its word; `Scalar.canonical` is the one place where that is cleaned up, for
arguments and for results alike.
-/

namespace ForeignCall

/-- A C scalar type, by width, signedness and kind. -/
inductive Scalar where
  | i8 | u8 | i16 | u16 | i32 | u32 | i64 | u64 | f32 | f64
  deriving DecidableEq, Repr

namespace Scalar

/-- All scalar types, each once. -/
def all : List Scalar := [i8, u8, i16, u16, i32, u32, i64, u64, f32, f64]

/-- Width of a value in bytes. -/
def bytes : Scalar → Nat
  | i8 | u8 => 1
  | i16 | u16 => 2
  | i32 | u32 | f32 => 4
  | i64 | u64 | f64 => 8

/-- Width of a value in bits. -/
def bits (t : Scalar) : Nat := 8 * t.bytes

/-- Whether values live in the floating-point registers. -/
def isFloat : Scalar → Bool
  | f32 | f64 => true
  | _ => false

/-- Whether values carry a sign into the bits above their width. -/
def isSigned : Scalar → Bool
  | i8 | i16 | i32 | i64 => true
  | _ => false

/-- The name of the type. -/
def name : Scalar → String
  | i8 => "i8"
  | u8 => "u8"
  | i16 => "i16"
  | u16 => "u16"
  | i32 => "i32"
  | u32 => "u32"
  | i64 => "i64"
  | u64 => "u64"
  | f32 => "f32"
  | f64 => "f64"

/-- The type with a given name. -/
def ofName? (text : String) : Option Scalar := all.find? (·.name = text)

/-- The letter that stands for the type in a signature. -/
def letter : Scalar → Char
  | i8 => 'b'
  | u8 => 'B'
  | i16 => 's'
  | u16 => 'S'
  | i32 => 'i'
  | u32 => 'I'
  | i64 => 'l'
  | u64 => 'L'
  | f32 => 'f'
  | f64 => 'd'

/-- The word whose set bits are those of the declared width. -/
def mask (t : Scalar) : Word :=
  if t.bytes = 8 then BitVec.allOnes 64 else ~~~(BitVec.allOnes 64 <<< t.bits)

/-- The most significant bit of the declared width. -/
def signBit (t : Scalar) : Word := 1#64 <<< (t.bits - 1)

/-- The canonical container of the value that the low bits of a word hold: eight-byte types keep
the word, narrow ones lose what lies above their width, and a negative signed value fills the
bits above with ones. -/
def canonical (t : Scalar) (raw : Word) : Word :=
  if t.bytes = 8 then raw
  else
    let low := raw &&& t.mask
    if t.isSigned ∧ low &&& t.signBit ≠ 0 then low ||| ~~~t.mask else low

/-- Every type is listed. -/
theorem mem_all (t : Scalar) : t ∈ all := by cases t <;> decide

/-- A type is found under its own name. -/
theorem ofName?_name (t : Scalar) : ofName? t.name = some t := by cases t <;> decide

/-- Different types have different letters. -/
theorem letter_inj {s t : Scalar} : s.letter = t.letter ↔ s = t := by
  cases s <;> cases t <;> decide

/-- Eight-byte values are canonical as they are. -/
theorem canonical_of_bytes_eq {t : Scalar} (h : t.bytes = 8) (raw : Word) :
    t.canonical raw = raw := if_pos h

end Scalar

end ForeignCall
