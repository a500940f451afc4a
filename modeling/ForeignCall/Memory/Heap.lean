import ForeignCall.Failure
import ForeignCall.Memory.Access
import ForeignCall.Text.Utf8

/-!
# The heap

The live blocks of the C heap. Blocks are never empty and never share an address; both are fields
of the type. Where a new block goes and which bytes it holds at first is the choice of the system,
which can only choose a place that is free or refuse. Memory is written by its address, and nothing
holds a write within a block: it changes whatever blocks it falls on, and every byte of it is on
record. Every operation gives back the heap as it is afterwards, so that what a failed one leaves
behind can be seen.
-/

namespace ForeignCall.Memory

/-- A live block of bytes at an address. -/
structure Block where
  base : Nat
  bytes : List UInt8
  deriving DecidableEq, Repr

namespace Block

/-- The address after the last byte. -/
def stop (b : Block) : Nat := b.base + b.bytes.length

/-- No address belongs to both blocks. -/
def Apart (b c : Block) : Prop := b.stop ≤ c.base ∨ c.stop ≤ b.base

/-- The block after bytes are written from an address on, as far as they fall on it. -/
def overwrite (b : Block) (address : Nat) (new : List UInt8) : Block :=
  { b with bytes := splice b.bytes (address - b.base) (new.drop (b.base - address)) }

/-- A write does not move a block. -/
@[simp] theorem base_overwrite (b : Block) (address : Nat) (new : List UInt8) :
    (b.overwrite address new).base = b.base := rfl

/-- A write keeps the size of a block. -/
@[simp] theorem length_overwrite (b : Block) (address : Nat) (new : List UInt8) :
    (b.overwrite address new).bytes.length = b.bytes.length := length_splice _ _ _

/-- A write keeps the end of a block. -/
@[simp] theorem stop_overwrite (b : Block) (address : Nat) (new : List UInt8) :
    (b.overwrite address new).stop = b.stop := by
  rw [stop, stop, base_overwrite, length_overwrite]

/-- A byte of a block after a write is the one that is written to its address, or else as before. -/
theorem getElem?_overwrite (b : Block) (address : Nat) (new : List UInt8) (i : Nat) :
    (b.overwrite address new).bytes[i]? =
      if address ≤ b.base + i ∧ b.base + i < address + new.length ∧ i < b.bytes.length then
        new[b.base + i - address]?
      else b.bytes[i]? := by
  simp only [overwrite, getElem?_splice, List.getElem?_drop, List.length_drop]
  refine ite_congr (propext (by omega)) (fun hin ↦ ?_) fun _ ↦ rfl
  congr 1
  omega

/-- Blocks are equal if they have the same bytes at the same address. -/
theorem ext_getElem? {b c : Block} (hbase : b.base = c.base)
    (hbytes : ∀ i : Nat, b.bytes[i]? = c.bytes[i]?) : b = c := by
  cases b
  cases c
  cases hbase
  exact congrArg _ (List.ext_getElem? hbytes)

/-- A write at an offset of a block. -/
theorem overwrite_base_add (b : Block) (offset : Nat) (new : List UInt8) :
    b.overwrite (b.base + offset) new = { b with bytes := splice b.bytes offset new } := by
  rw [overwrite, Nat.add_sub_cancel_left, Nat.sub_eq_zero_of_le (Nat.le_add_right _ _),
    List.drop_zero]

/-- A write that lies apart from a block leaves it as it is. -/
theorem overwrite_of_apart {b : Block} {address : Nat} {new : List UInt8}
    (h : b.stop ≤ address ∨ address + new.length ≤ b.base) : b.overwrite address new = b := by
  refine ext_getElem? rfl fun i ↦ ?_
  rw [getElem?_overwrite, if_neg]
  unfold stop at h
  omega

/-- Writes right behind each other are one write. -/
theorem overwrite_overwrite (b : Block) (address : Nat) (first second : List UInt8) :
    (b.overwrite address first).overwrite (address + first.length) second =
      b.overwrite address (first ++ second) := by
  refine ext_getElem? rfl fun i ↦ ?_
  rw [getElem?_overwrite, getElem?_overwrite, getElem?_overwrite, List.getElem?_append,
    base_overwrite, length_overwrite, List.length_append, Nat.sub_sub]
  grind

end Block

/-- The live blocks, and what has been written. -/
@[ext]
structure Heap where
  blocks : List Block
  /-- Every byte written so far with its address, in order, be it within a block or not. -/
  written : List (UInt8 × Nat)
  /-- Blocks share no address. -/
  apart : blocks.Pairwise Block.Apart
  /-- Blocks have at least one byte and do not lie at the null address. -/
  proper : ∀ b ∈ blocks, b.bytes ≠ [] ∧ 0 < b.base

namespace Heap

/-- The heap without blocks. -/
def empty : Heap := ⟨[], [], .nil, by simp⟩

/-- Whether a number of bytes at an address are free and within the address space. -/
def Fits (h : Heap) (base size : Nat) : Prop :=
  0 < base ∧ base + size ≤ 1 <<< 64 ∧ ∀ b ∈ h.blocks, base + size ≤ b.base ∨ b.stop ≤ base

/-- A free place for a number of bytes, and the bytes it holds. -/
structure Room (h : Heap) (size : Nat) where
  base : Nat
  fits : h.Fits base size
  /-- What happens to be there. -/
  fresh : List UInt8
  length_fresh : fresh.length = size

/-- The block that starts at an address. -/
def find? (h : Heap) (base : Nat) : Option Block := h.blocks.find? (·.base = base)

/-- The bytes of the block that starts at an address. -/
def bytesAt? (h : Heap) (base : Nat) : Option (List UInt8) := (h.find? base).map (·.bytes)

/-- The bytes from an address to the end of its block. -/
def bytesFrom (h : Heap) (address : Nat) : List UInt8 :=
  match h.blocks.find? fun b => b.base ≤ address && address < b.stop with
  | some b => b.bytes.drop (address - b.base)
  | none => []

/-- The heap with one more block. -/
def add (h : Heap) {size : Nat} (room : h.Room size) (bytes : List UInt8)
    (length_eq : bytes.length = size) (size_pos : 0 < size) : Heap where
  blocks := ⟨room.base, bytes⟩ :: h.blocks
  written := h.written
  apart := by
    rw [List.pairwise_cons]
    refine ⟨fun b hb => ?_, h.apart⟩
    have := room.fits.2.2 b hb
    simpa [Block.Apart, Block.stop, length_eq] using this
  proper := by
    intro b hb
    rw [List.mem_cons] at hb
    rcases hb with rfl | hb
    · refine ⟨?_, room.fits.1⟩
      intro hnil
      simp only at hnil
      subst hnil
      simp at length_eq
      omega
    · exact h.proper b hb

/-- The heap without the block at an address, if there is one. -/
def erase (h : Heap) (base : Nat) : Heap where
  blocks := h.blocks.filter (·.base ≠ base)
  written := h.written
  apart := h.apart.filter _
  proper := fun b hb => h.proper b (List.mem_filter.mp hb).1

/-- The heap after bytes are written from an address on, whatever lies there. -/
def write (h : Heap) (address : Nat) (new : List UInt8) : Heap where
  blocks := h.blocks.map (·.overwrite address new)
  written := h.written ++ new.zipIdx address
  apart := by
    rw [List.pairwise_map]
    exact h.apart.imp fun hbc ↦ by simpa only [Block.Apart, Block.stop_overwrite,
      Block.base_overwrite] using hbc
  proper := by
    refine List.forall_mem_map.mpr fun b hb ↦ ⟨?_, (h.proper b hb).2⟩
    rw [← List.length_pos_iff, Block.length_overwrite, List.length_pos_iff]
    exact (h.proper b hb).1

/-- The system behind the heap: a free place for a request and what is there, or none. -/
abbrev System := (h : Heap) → (size : Nat) → Option (h.Room size)

/-- Allocates a block, with the bytes the system gives it. -/
def malloc (system : System) (size : Nat) (h : Heap) : Except MemoryError Nat × Heap :=
  if pos : size = 0 then (.error .zeroSize, h)
  else
    match system h size with
    | none => (.error (.outOfMemory size), h)
    | some room =>
      (.ok room.base, h.add room room.fresh room.length_fresh (Nat.pos_of_ne_zero pos))

/-- Copies bytes from a block to an offset from an address. -/
def copy (h : Heap) (target targetOffset source sourceOffset count : Nat) : Heap :=
  h.write (target + targetOffset) (window ((h.bytesAt? source).getD []) sourceOffset count)

/-- Copies bytes into a new block. -/
def memdup (system : System) (bytes : List UInt8) (h : Heap) : Except MemoryError Nat × Heap :=
  match malloc system bytes.length h with
  | (.error e, h) => (.error e, h)
  | (.ok base, h) => (.ok base, h.write base bytes)

/-- Copies a text into a new block with a zero byte after it. -/
def strdup (system : System) (text : List Char) (h : Heap) : Except MemoryError Nat × Heap :=
  let bytes := Text.Utf8.encode text
  match bytes.findIdx? (· = 0) with
  | some position => (.error (.interiorNul position), h)
  | none =>
    match malloc system (bytes.length + 1) h with
    | (.error e, h) => (.error e, h)
    | (.ok base, h) => (.ok base, (h.write base bytes).write (base + bytes.length) [0])

/-- The bytes of a resized block: those of the old one that fit, and fresh ones behind them. -/
def resized (old fresh : List UInt8) : List UInt8 :=
  old.take fresh.length ++ fresh.drop old.length

/-- A resized block has as many bytes as there are fresh ones. -/
theorem length_resized (old fresh : List UInt8) : (resized old fresh).length = fresh.length := by
  simp only [resized, List.length_append, List.length_take, List.length_drop]
  omega

/-- Gives the block at an address a new size, and maybe a new address; without a block at the
address a new one is allocated. -/
def realloc (system : System) (base size : Nat) (h : Heap) : Except MemoryError Nat × Heap :=
  if pos : size = 0 then (.error .zeroSize, h)
  else
    match system (h.erase base) size with
    | none => (.error (.outOfMemory size), h)
    | some room =>
      (.ok room.base,
        (h.erase base).add room (resized ((h.bytesAt? base).getD []) room.fresh)
          ((length_resized _ _).trans room.length_fresh) (Nat.pos_of_ne_zero pos))

/-- The size of the block for a run of cells: a product in 64-bit arithmetic, at least one. -/
def sliceSize (width count : Nat) (terminate : Bool) : BitVec 64 :=
  let size := (BitVec.ofNat 64 count + if terminate then 1 else 0) * BitVec.ofNat 64 width
  if size = 0 then 1 else size

/-- Copies a run of cells into a new block, with a cell of zeros after it if asked for. -/
def allocSlice {width : Nat} (system : System) (vs : List (Cell width)) (terminate : Bool)
    (h : Heap) : Except MemoryError Nat × Heap :=
  match malloc system (sliceSize width vs.length terminate).toNat h with
  | (.error e, h) => (.error e, h)
  | (.ok base, h) =>
    let copied := h.write base (encodeAll vs)
    (.ok base,
      if terminate then copied.write (base + vs.length * width) (encode (0 : Cell width))
      else copied)

/-- The lowest address above every block. -/
def top (h : Heap) : Nat := h.blocks.foldl (fun n b => max n b.stop) 0x10000

private theorem le_foldl_max (blocks : List Block) (n : Nat) :
    n ≤ blocks.foldl (fun n b => max n b.stop) n ∧
      ∀ b ∈ blocks, b.stop ≤ blocks.foldl (fun n b => max n b.stop) n := by
  induction blocks generalizing n with
  | nil => simp
  | cons b rest ih =>
    have hrest := ih (max n b.stop)
    simp only [List.foldl_cons, List.mem_cons, forall_eq_or_imp]
    refine ⟨?_, ?_, hrest.2⟩
    · exact Nat.le_trans (Nat.le_max_left _ _) hrest.1
    · exact Nat.le_trans (Nat.le_max_right _ _) hrest.1

/-- The system of a process with a 47-bit address space: each block goes above all others, at a
multiple of sixteen, and starts out as zeros. -/
def ascending : System := fun h size =>
  let base := (h.top + 15) / 16 * 16
  if fits : base + size ≤ 1 <<< 47 then
    some ⟨base, by
      have bounds := le_foldl_max h.blocks 0x10000
      have low : h.top ≤ base := by omega
      have start : 0x10000 ≤ h.top := bounds.1
      refine ⟨by omega, by omega, fun b hb => .inr ?_⟩
      exact Nat.le_trans (bounds.2 b hb) low, List.replicate size 0, List.length_replicate⟩
  else none

end Heap

end ForeignCall.Memory
