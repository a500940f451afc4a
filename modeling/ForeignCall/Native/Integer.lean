import ForeignCall.Delivery
import ForeignCall.Memory.Heap

/-!
# Native functions on integers

The integer functions of the C library that a process has at hand, by the words a System V callee
finds. A 32-bit parameter is the low half of its word.
-/

namespace ForeignCall.Native

/-- A function of the C library, by the heap of the process and the words it finds. -/
abbrev Function := Memory.Heap → Callee

/-- A 32-bit integer parameter. -/
def int32 (d : Delivery) (k : Nat) : BitVec 32 := (d.general k).setWidth 32

/-- A 32-bit result. -/
def ofInt32 (v : BitVec 32) : Word := v.setWidth 64

/-- Absolute value of a 32-bit integer. -/
def abs : Function := fun _ d => ofInt32 (int32 d 0).abs

/-- Absolute value of a 64-bit integer. -/
def labs : Function := fun _ d => (d.general 0).abs

/-- Whether a character code lies in a range of ASCII letters. -/
def inAscii (low high : Char) (v : BitVec 32) : Bool :=
  low.toNat ≤ v.toNat && v.toNat ≤ high.toNat

/-- The code of a character parameter. A byte from 128 to 254 may be given as the signed byte of
the same bits; minus one is no character and is left as it is. -/
def characterCode (d : Delivery) : BitVec 32 :=
  let c := int32 d 0
  if -128 ≤ c.toInt ∧ c.toInt ≤ -2 then c + 256 else c

/-- The upper-case letter of a lower-case one. -/
def toupper : Function := fun _ d =>
  let c := characterCode d
  ofInt32 (if inAscii 'a' 'z' c then c - 32 else c)

/-- The lower-case letter of an upper-case one. -/
def tolower : Function := fun _ d =>
  let c := characterCode d
  ofInt32 (if inAscii 'A' 'Z' c then c + 32 else c)

/-- The bit of the character table that marks decimal digits, or zero. -/
def isdigit : Function := fun _ d =>
  ofInt32 (if inAscii '0' '9' (characterCode d) then 0x800 else 0)

/-- The bytes of a word in reverse order. -/
def swapBytes (width : Nat) (w : Word) : Word :=
  BitVec.ofNat 64 (Memory.ofLittleEndian (Memory.littleEndian width w.toNat).reverse)

/-- A 16-bit integer in network order. -/
def htons : Function := fun _ d => swapBytes 2 (d.general 0)

/-- A 32-bit integer in network order. -/
def htonl : Function := fun _ d => swapBytes 4 (d.general 0)

/-- One more than the place of the lowest set bit among the low bits, or zero. -/
def lowestBit (bits : Nat) (w : Word) : Word :=
  match (List.range bits).find? fun i => w.getLsbD i with
  | some i => BitVec.ofNat 64 (i + 1)
  | none => 0

/-- The lowest set bit of a 32-bit integer. -/
def ffs : Function := fun _ d => lowestBit 32 (d.general 0)

/-- The lowest set bit of a 64-bit integer. -/
def ffsll : Function := fun _ d => lowestBit 64 (d.general 0)

end ForeignCall.Native
