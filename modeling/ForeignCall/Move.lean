import ForeignCall.Text.Numeral

/-!
# Slots, images and moves

A call carries up to sixteen argument words, the slots. Before a call they are moved into an image
of twenty-four words: first the general file (integer registers, then stack words), then the
floating-point file. A move takes one slot, cuts words out of it and adds their bits to one word
of the image.

```text
 0 .......... registers .......... 16 | 16 ......... 24
 [ integer registers | stack words ]  | [ float registers ]
```
-/

namespace ForeignCall

/-- The argument words of a call. -/
abbrev Slots := Vector Word 16

/-- The words of a list, filled up with zeros; words beyond the sixteenth are left out. -/
def Slots.ofList (words : List Word) : Slots := Vector.ofFn fun i => words[i.val]?.getD 0

/-- The word of a slot is that of the list, or zero where the list has none. -/
theorem Slots.getElem_ofList (words : List Word) (i : Nat) (h : i < 16) :
    (Slots.ofList words)[i] = words[i]?.getD 0 := by
  simp [Slots.ofList]

/-- The register and stack image of a call. -/
abbrev Image := Vector Word 24

namespace Image

/-- The image of zeros. -/
def zero : Image := Vector.replicate 24 0

/-- An image from a list of words, filled up with zeros. -/
def ofList (words : List Word) : Image := Vector.ofFn fun i => words[i.val]?.getD 0

/-- The word of the image at the place of a general slot. -/
def general (image : Image) (k : Fin 16) : Word := image[k.val]

/-- The word of the image at the place of a floating-point register. -/
def float (image : Image) (k : Fin 8) : Word := image[16 + k.val]

/-- The general file, in order. -/
def generalFile (image : Image) : List Word := List.ofFn image.general

/-- The floating-point file, in order. -/
def floatFile (image : Image) : List Word := List.ofFn image.float

end Image

/-- One move from a slot into a word of the image. -/
structure Move where
  /-- The slot it reads. -/
  source : Fin 16
  /-- Right shift of the slot. -/
  shiftDown : Fin 64
  /-- Mask over the shifted slot. -/
  mask : Word
  /-- Left shift of what the mask leaves. -/
  shiftUp : Fin 64
  /-- The word of the image it adds to. -/
  dest : Fin 24
  deriving DecidableEq, Repr

namespace Move

/-- The move of a whole slot. -/
def whole (source : Fin 16) (dest : Fin 24) : Move := ⟨source, 0, BitVec.allOnes 64, 0, dest⟩

/-- The bits a move adds. -/
def value (m : Move) (slots : Slots) : Word :=
  ((slots[m.source.val] >>> m.shiftDown.val) &&& m.mask) <<< m.shiftUp.val

/-- Adds the bits of a move to an image. -/
def apply (m : Move) (slots : Slots) (image : Image) : Image :=
  image.set m.dest.val (image[m.dest.val] ||| m.value slots)

/-- Runs moves in order. -/
def run (moves : List Move) (slots : Slots) (image : Image) : Image :=
  moves.foldl (fun image m => m.apply slots image) image

/-- The text of a word of the image: `A` and its place in the general file or `F` and its place in
the floating-point file. -/
def destChars (dest : Fin 24) : List Char :=
  if dest.val < 16 then 'A' :: Text.decimal dest.val else 'F' :: Text.decimal (dest.val - 16)

/-- The text of a move. Shifts by zero and the full mask are left out. -/
def chars (m : Move) : List Char :=
  'a' :: Text.decimal m.source.val
    ++ (if m.shiftDown = 0 then [] else '>' :: '>' :: Text.decimal m.shiftDown.val)
    ++ (if m.mask = BitVec.allOnes 64 then []
        else '&' :: '0' :: 'x' :: Text.hexadecimal m.mask.toNat)
    ++ (if m.shiftUp = 0 then [] else '<' :: '<' :: Text.decimal m.shiftUp.val)
    ++ '-' :: '>' :: destChars m.dest

/-- The text of a move. -/
def text (m : Move) : String := String.ofList m.chars

/-- A move adds its bits to its destination and leaves every other word as it is. -/
theorem getElem_apply (m : Move) (slots : Slots) (image : Image) (i : Nat) (h : i < 24) :
    (m.apply slots image)[i] =
      if m.dest.val = i then image[i] ||| m.value slots else image[i] := by
  simp only [apply, Vector.getElem_set]
  split
  · rename_i hd
    subst hd
    rfl
  · rfl

/-- Running two lists of moves is running one after the other. -/
theorem run_append (ms ns : List Move) (slots : Slots) (image : Image) :
    run (ms ++ ns) slots image = run ns slots (run ms slots image) := by
  simp [run]

end Move

end ForeignCall
