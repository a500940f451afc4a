import ForeignCall.Convention
import ForeignCall.Move

/-!
# Invokers

A compiled call shape: the moves that bring the slots into the image, with what the call itself
needs to know. An invoker is a value; it is compiled once for a signature and used for every call.
-/

namespace ForeignCall

/-- The register a result comes back in. -/
inductive ReturnClass where
  /-- An integer register. -/
  | integer
  /-- A floating-point register, read as single precision. -/
  | single
  /-- A floating-point register, read as double precision. -/
  | double
  deriving DecidableEq, Repr

namespace ReturnClass

/-- The class of a result type. -/
def ofScalar : Scalar → ReturnClass
  | .f32 => single
  | .f64 => double
  | _ => integer

/-- The word a result register is read as. -/
def read : ReturnClass → Word → Word
  | integer, register => register
  | single, register => (register.setWidth 32).setWidth 64
  | double, register => register

/-- The class in reports. -/
def name : ReturnClass → String
  | integer => "Integer"
  | single => "F32"
  | double => "F64"

end ReturnClass

/-- A compiled call shape. -/
structure Invoker where
  /-- The convention of the call. -/
  convention : Convention
  /-- Result type. -/
  ret : Scalar
  /-- Argument types. -/
  args : List Scalar
  /-- Moves, in the order of the arguments. -/
  moves : List Move
  /-- Number of stack words in use. -/
  stackWords : Nat
  /-- The floating-point registers that hold an argument outside the variadic part. -/
  fixedFloats : BitVec 8
  deriving DecidableEq, Repr

/-- The slots with every declared argument in canonical form. -/
def Slots.canonical (args : List Scalar) (slots : Slots) : Slots :=
  Vector.ofFn fun i =>
    match args[i.val]? with
    | some t => t.canonical (getElem slots i.val i.isLt)
    | none => getElem slots i.val i.isLt

/-- A declared argument is canonical, any other slot is as given. -/
theorem Slots.getElem_canonical (args : List Scalar) (slots : Slots) (i : Nat) (h : i < 16) :
    (slots.canonical args)[i] =
      match args[i]? with
      | some t => t.canonical slots[i]
      | none => slots[i] := by
  simp [Slots.canonical]

namespace Invoker

/-- The class of the result. -/
def returnClass (inv : Invoker) : ReturnClass := .ofScalar inv.ret

/-- The image of a call: the moves, run on canonical arguments from an image of zeros. -/
def assemble (inv : Invoker) (slots : Slots) : Image :=
  Move.run inv.moves (slots.canonical inv.args) .zero

/-- The items of a list with a comma and a space between them. -/
def commaSeparated : List (List Char) → List Char
  | [] => []
  | [item] => item
  | item :: rest => item ++ ',' :: ' ' :: commaSeparated rest

/-- The text of an invoker. The floating-point registers are named only if there are any, as a
binary numeral of at least four digits. -/
def chars (inv : Invoker) : List Char :=
  'i' :: 'n' :: 'v' :: '\x7b' :: inv.convention.name.toList
    ++ ' ' :: inv.ret.name.toList
    ++ '(' :: commaSeparated (inv.args.map fun t => t.name.toList)
    ++ ')' :: ' ' :: '[' :: commaSeparated (inv.moves.map Move.chars)
    ++ ']' :: ' ' :: 's' :: 't' :: 'a' :: 'c' :: 'k' :: '=' :: Text.decimal inv.stackWords
    ++ (if inv.fixedFloats = 0 then []
        else ' ' :: 'f' :: 'p' :: '=' :: '0' :: 'b' ::
          Text.zeroFilled 4 (Text.binary inv.fixedFloats.toNat))
    ++ ['\x7d']

/-- The text of an invoker. -/
def text (inv : Invoker) : String := String.ofList inv.chars

end Invoker

end ForeignCall
