import ForeignCall.Decimal.Shortest
import ForeignCall.Memory.CString
import ForeignCall.Native.Integer

/-!
# Native functions on strings

The string functions of the C library that a process has at hand. A string parameter is an address
on the heap; the string is what stands there up to a zero byte.
-/

namespace ForeignCall.Native

/-- The string at an address. -/
def stringAt (h : Memory.Heap) (address : Word) : List UInt8 :=
  (h.bytesFrom address.toNat).takeWhile (· ≠ 0)

/-- Length of a string. -/
def strlen : Function := fun h d => BitVec.ofNat 64 (stringAt h (d.general 0)).length

/-- Length of a string, at most a bound. -/
def strnlen : Function := fun h d =>
  BitVec.ofNat 64 (min (stringAt h (d.general 0)).length (d.general 1).toNat)

/-- The first parameter; copying is only ever asked for with no bytes. -/
def memcpy : Function := fun _ d => d.general 0

/-- Whether a byte is blank in the C locale. -/
def isBlank (b : UInt8) : Bool := b = 32 || (9 ≤ b && b ≤ 13)

/-- The value of a digit in any base up to 36. -/
def digitValue? (base : Nat) (b : UInt8) : Option Nat :=
  Text.digitValue? base (Char.ofNat b.toNat)

/-- The number that the digits at the start of a string denote. -/
def leadingNatural (base : Nat) (s : List UInt8) : Nat :=
  (s.takeWhile fun b => (digitValue? base b).isSome).foldl
    (fun n b => base * n + (digitValue? base b).getD 0) 0

/-- The sign at the start of a string and what follows it. -/
def splitSign (s : List UInt8) : Bool × List UInt8 :=
  match s with
  | 45 :: rest => (true, rest)
  | 43 :: rest => (false, rest)
  | _ => (false, s)

/-- The number at the start of a string. Base sixteen allows `0x` before the digits; base zero
takes the base from the way the number starts. -/
def leadingInteger (base : Nat) (s : List UInt8) : Bool × Nat :=
  let (negative, s) := splitSign (s.dropWhile isBlank)
  let hex :=
    match s with
    | 48 :: x :: b :: _ => (x = 120 || x = 88) && (digitValue? 16 b).isSome
    | _ => false
  let n :=
    if (base = 0 || base = 16) && hex then leadingNatural 16 (s.drop 2)
    else if base = 0 then leadingNatural (if s.head? = some 48 then 8 else 10) s
    else leadingNatural base s
  (negative, n)

/-- The decimal integer at the start of a string, held within 64 bits and cut to 32. -/
def atoi : Function := fun h d =>
  let (negative, n) := leadingInteger 10 (stringAt h (d.general 0))
  let value : Int :=
    if negative then -Int.ofNat (min (1 <<< 63) n) else Int.ofNat (min (1 <<< 63 - 1) n)
  ofInt32 (BitVec.ofInt 32 value)

/-- The unsigned integer at the start of a string in a base; a number that does not fit gives the
greatest one, and a minus sign negates. -/
def strtoull : Function := fun h d =>
  let base := (int32 d 2).toInt
  if base < 0 ∨ base = 1 ∨ 36 < base then 0
  else
    let (negative, n) := leadingInteger base.toNat (stringAt h (d.general 0))
    if 1 <<< 64 ≤ n then BitVec.allOnes 64
    else if negative then -BitVec.ofNat 64 n
    else BitVec.ofNat 64 n

/-- The variadic parameters still to be read: registers first, then stack words in order. -/
structure Variadic where
  general : Nat
  float : Nat
  stack : Nat

/-- The next integer parameter. -/
def Variadic.nextGeneral (v : Variadic) (d : Delivery) : Word × Variadic :=
  if v.general < 6 then (d.general v.general, { v with general := v.general + 1 })
  else (d.general v.stack, { v with stack := v.stack + 1 })

/-- The next floating-point parameter. -/
def Variadic.nextFloat (v : Variadic) (d : Delivery) : Word × Variadic :=
  if v.float < 8 then (d.float v.float, { v with float := v.float + 1 })
  else (d.general v.stack, { v with stack := v.stack + 1 })

/-- The length of the string at an address as it is printed; for the null address `(null)` is. -/
def printedLength (h : Memory.Heap) (address : Word) : Nat :=
  if address = 0 then "(null)".length else (stringAt h address).length

/-- The length in bytes of a formatted text. Conversions are `%d`, `%s`, `%%` and `%.` with one
digit and `f`; every other byte stands for itself. -/
def formattedLength (h : Memory.Heap) (d : Delivery) : List UInt8 → Variadic → Nat
  | [], _ => 0
  | 37 :: 100 :: rest, v =>
    let (w, v) := v.nextGeneral d
    (Text.signedDecimal (w.setWidth 32).toInt).length + formattedLength h d rest v
  | 37 :: 115 :: rest, v =>
    let (w, v) := v.nextGeneral d
    printedLength h w + formattedLength h d rest v
  | 37 :: 37 :: rest, v => 1 + formattedLength h d rest v
  | 37 :: 46 :: places :: 102 :: rest, v =>
    let (w, v) := v.nextFloat d
    (Decimal.fixedPlaces (places.toNat - 48) (Decimal.BinaryFormat.double.decode w.toNat)).length
      + formattedLength h d rest v
  | _ :: rest, v => 1 + formattedLength h d rest v

/-- The length a formatted text would have; nothing is written. -/
def snprintf : Function := fun h d =>
  BitVec.ofNat 64 (formattedLength h d (stringAt h (d.general 2)) ⟨3, 0, 6⟩)

end ForeignCall.Native
