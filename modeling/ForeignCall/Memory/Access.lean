import ForeignCall.Memory.Cell

/-!
# Access to a block

Reading and writing cells of a block of bytes at any offset. A run of cells is read and written in
one piece, as the bytes it consists of; a single cell is the run of one. What is written past the
end of a block does not fall on it, so a block never changes its length.
-/

namespace ForeignCall.Memory

/-- The bytes of a block from an offset on. -/
def window (bytes : List UInt8) (offset count : Nat) : List UInt8 :=
  (bytes.drop offset).take count

/-- A block with bytes written from an offset on, as far as they fall on it. -/
def splice (bytes : List UInt8) (offset : Nat) (new : List UInt8) : List UInt8 :=
  bytes.take offset ++ new.take (bytes.length - offset) ++ bytes.drop (offset + new.length)

/-- Writing into a block keeps its length. -/
@[simp] theorem length_splice (bytes : List UInt8) (offset : Nat) (new : List UInt8) :
    (splice bytes offset new).length = bytes.length := by
  simp only [splice, List.length_append, List.length_take, List.length_drop]
  omega

/-- A write that ends within a block is made as a whole. -/
theorem splice_of_le {bytes new : List UInt8} {offset : Nat}
    (h : offset + new.length ≤ bytes.length) :
    splice bytes offset new = bytes.take offset ++ new ++ bytes.drop (offset + new.length) := by
  have hall : new.take (bytes.length - offset) = new := List.take_of_length_le (by omega)
  rw [splice, hall]

/-- A byte of a block after a write. -/
theorem getElem?_splice (bytes : List UInt8) (offset : Nat) (new : List UInt8) (i : Nat) :
    (splice bytes offset new)[i]? =
      if offset ≤ i ∧ i < offset + new.length ∧ i < bytes.length then new[i - offset]?
      else bytes[i]? := by
  have hlow : (bytes.take offset).length = min offset bytes.length := List.length_take
  have hmid : (new.take (bytes.length - offset)).length = min (bytes.length - offset) new.length :=
    List.length_take
  rw [splice, List.append_assoc, List.getElem?_append, List.getElem?_append, hlow, hmid]
  split
  · rw [List.getElem?_take_of_lt (by omega), if_neg (by omega)]
  · split
    · rw [List.getElem?_take_of_lt (by omega), if_pos (by omega)]
      congr 1
      omega
    · rw [List.getElem?_drop, if_neg (by omega)]
      by_cases hi : i < bytes.length
      · congr 1
        omega
      · rw [List.getElem?_eq_none (by omega), List.getElem?_eq_none (by omega)]

/-- The cell at an offset. -/
def peek (width : Nat) (bytes : List UInt8) (offset : Nat) : Cell width :=
  decode width (window bytes offset width)

/-- Writes a cell at an offset. -/
def poke {width : Nat} (bytes : List UInt8) (offset : Nat) (v : Cell width) : List UInt8 :=
  splice bytes offset (encode v)

/-- The cells that a run of bytes consists of. -/
def cells (width : Nat) : Nat → List UInt8 → List (Cell width)
  | 0, _ => []
  | count + 1, bytes => decode width (bytes.take width) :: cells width count (bytes.drop width)

/-- The bytes of a run of cells. -/
def encodeAll {width : Nat} (vs : List (Cell width)) : List UInt8 := vs.flatMap encode

/-- A run of cells has as many bytes as its cells together. -/
@[simp] theorem length_encodeAll {width : Nat} (vs : List (Cell width)) :
    (encodeAll vs).length = vs.length * width := by
  induction vs with
  | nil => simp [encodeAll]
  | cons v vs ih =>
    simp only [encodeAll, List.flatMap_cons, List.length_append, length_encode,
      List.length_cons, Nat.succ_mul] at ih ⊢
    omega

/-- The run of cells at an offset, read in one piece. -/
def readVec (width : Nat) (bytes : List UInt8) (offset count : Nat) : List (Cell width) :=
  cells width count (window bytes offset (count * width))

/-- Writes a run of cells at an offset in one piece. -/
def writeSlice {width : Nat} (bytes : List UInt8) (offset : Nat) (vs : List (Cell width)) :
    List UInt8 :=
  splice bytes offset (encodeAll vs)

end ForeignCall.Memory
