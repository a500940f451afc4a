import ForeignCall.Proofs.Memory.CString

/-!
# Copies of runs

A run of cells is copied into a block of its own, with a cell of zeros behind it if asked for. The
size of the block is computed without overflow and is never zero, and the copy can only be refused
for want of room. It takes one write or two, and every byte of them goes to an address of the block;
the block then starts with the bytes of the cells in order, whatever it held before.
-/

namespace ForeignCall.Memory

variable {width : Nat} {bytes : List UInt8}

/-- The bytes of a cell of zeros are zeros. -/
theorem encode_zero (width : Nat) : encode (0 : Cell width) = List.replicate width 0 := by
  have hzero (width : Nat) : littleEndian width 0 = List.replicate width 0 := by
    induction width with
    | zero => rfl
    | succ width ih =>
      rw [littleEndian, Nat.zero_div, ih, List.replicate_succ]
      rfl
  exact hzero width

/-- A run is read back from bytes that start with those of its cells. -/
theorem readVec_of_prefix {vs : List (Cell width)} (h : encodeAll vs <+: bytes) :
    readVec width bytes 0 vs.length = vs := by
  have htake := List.prefix_iff_eq_take.mp h
  rw [length_encodeAll] at htake
  rw [readVec, window, List.drop_zero, ← htake, cells_encodeAll]

/-- The cells of a copy of a run: those of the run, and one of zeros behind them if asked for. -/
def copied (vs : List (Cell width)) (terminate : Bool) : List (Cell width) :=
  vs ++ if terminate then [0] else []

/-- A copy has one cell more than the run if one of zeros is asked for. -/
theorem length_copied (vs : List (Cell width)) (terminate : Bool) :
    (copied vs terminate).length = vs.length + terminate.toNat := by
  cases terminate <;> simp [copied]

/-- The bytes of a copy are those of the run and those of a zero cell if asked for. -/
theorem encodeAll_copied (vs : List (Cell width)) (terminate : Bool) :
    encodeAll (copied vs terminate) =
      encodeAll vs ++ if terminate then encode (0 : Cell width) else [] := by
  cases terminate <;> simp [copied, encodeAll]

namespace Heap

variable {h h' : Heap} {system : System} {vs : List (Cell width)} {terminate : Bool}
  {size base : Nat}

/-- Without room a plain allocation is refused for want of it. -/
theorem malloc_of_no_room (hroom : system h size = none) (hpos : 0 < size) :
    malloc system size h = (.error (.outOfMemory size), h) := by
  simp [malloc, hroom, Nat.ne_of_gt hpos]

/-- Without room a copy is refused for want of it. -/
theorem allocSlice_of_no_room (hsize : (sliceSize width vs.length terminate).toNat = size)
    (hroom : system h size = none) (hpos : 0 < size) :
    allocSlice system vs terminate h = (.error (.outOfMemory size), h) := by
  rw [allocSlice, hsize, malloc_of_no_room hroom hpos]

/-- Where there is room, a copy is made. -/
theorem exists_allocSlice_of_room {room : h.Room size}
    (hsize : (sliceSize width vs.length terminate).toNat = size)
    (hroom : system h size = some room) (hpos : 0 < size) :
    ∃ h', allocSlice system vs terminate h = (.ok room.base, h') := by
  rw [allocSlice, hsize, malloc_of_room hroom hpos]
  exact ⟨_, rfl⟩

/-- All that a copy of a run changes: there is a new block of the size asked for that starts with the
bytes of the copy, and just these have been written to its addresses. -/
theorem of_allocSlice (hwide : width < 2 ^ 63) (hcells : vs.length * width < 2 ^ 63)
    (hcopy : allocSlice system vs terminate h = (.ok base, h')) :
    ∃ bytes, h'.blocks = ⟨base, bytes⟩ :: h.blocks ∧
      bytes.length = max ((vs.length + terminate.toNat) * width) 1 ∧
      encodeAll (copied vs terminate) <+: bytes ∧
      h'.written = h.written ++ (encodeAll (copied vs terminate)).zipIdx base := by
  have ha := allocates_allocSlice system vs terminate hwide hcells h
  rw [← encodeAll_copied, hcopy] at ha
  cases ha with
  | placed room _ bytes hblocks hwritten hlength hcontent =>
    exact ⟨bytes, hblocks, hlength, hcontent, hwritten⟩

/-- A copy of a run stays within its block and fills it. Neither the number of its cells nor their
size overflows, and the size asked for is never zero, so a copy is made if there is room and else
refused for want of it. Every byte it writes goes to an address of the new block, so no other block
changes. Whatever the room holds, the block then starts with the bytes of the run and, if asked for,
as many zeros as a cell has bytes; and it reads as the run with a cell of zeros behind it. -/
theorem allocSlice_fills_block (system : System) (h : Heap) (vs : List (Cell width))
    (terminate : Bool) (hpos : 0 < width) (hwide : width < 2 ^ 63)
    (hcells : vs.length * width < 2 ^ 63) :
    ∃ size : Nat, size = max ((vs.length + terminate.toNat) * width) 1 ∧
      vs.length + terminate.toNat < 2 ^ 64 ∧
      (vs.length + terminate.toNat) * width < 2 ^ 64 ∧
      (sliceSize width vs.length terminate).toNat = size ∧
      (allocSlice system vs terminate h).1 ≠ .error .zeroSize ∧
      (system h size = none → allocSlice system vs terminate h = (.error (.outOfMemory size), h)) ∧
      ∀ room, system h size = some room →
        ∃ h' bytes new, allocSlice system vs terminate h = (.ok room.base, h') ∧
          h'.blocks = ⟨room.base, bytes⟩ :: h.blocks ∧
          h'.bytesAt? room.base = some bytes ∧ bytes.length = size ∧
          h'.written = h.written ++ new ∧
          (∀ byte address, (byte, address) ∈ new →
            room.base ≤ address ∧ address < room.base + size) ∧
          bytes.take ((vs.length + terminate.toNat) * width) =
            encodeAll vs ++ (if terminate then List.replicate width 0 else []) ∧
          readVec width bytes 0 (vs.length + terminate.toNat) =
            vs ++ if terminate then [0] else [] := by
  have hlt := slice_lt hwide hcells terminate
  have hsize := toNat_sliceSize hlt
  have hcount : vs.length + terminate.toNat ≤ (vs.length + terminate.toNat) * width :=
    Nat.le_mul_of_pos_right _ hpos
  have hcopied : (encodeAll (copied vs terminate)).length =
      (vs.length + terminate.toNat) * width := by
    rw [length_encodeAll, length_copied]
  have hone : 0 < max ((vs.length + terminate.toNat) * width) 1 := Nat.le_max_right _ _
  refine ⟨_, rfl, by omega, by omega, hsize, ?_,
    fun hroom ↦ allocSlice_of_no_room hsize hroom hone, fun room hroom ↦ ?_⟩
  · cases hroom : system h (max ((vs.length + terminate.toNat) * width) 1) with
    | none => simp [allocSlice_of_no_room hsize hroom hone]
    | some room =>
      obtain ⟨h', hcopy⟩ := exists_allocSlice_of_room hsize hroom hone
      simp [hcopy]
  · obtain ⟨h', hcopy⟩ := exists_allocSlice_of_room hsize hroom hone
    obtain ⟨bytes, hblocks, hlength, hcontent, hwritten⟩ := of_allocSlice hwide hcells hcopy
    refine ⟨h', bytes, _, hcopy, hblocks, bytesAt?_of_blocks hblocks, hlength, hwritten,
      fun byte address hmem ↦ ?_, ?_, ?_⟩
    · obtain ⟨hlow, hhigh, -⟩ := List.mem_zipIdx hmem
      exact ⟨hlow, by omega⟩
    · rw [← hcopied, ← List.prefix_iff_eq_take.mp hcontent, encodeAll_copied, encode_zero]
    · rw [← length_copied, readVec_of_prefix hcontent, copied]

/-- A copy of two numbers of three bytes with a cell of zeros behind them, made where there are no
zeros, and the copy of an empty run without one. -/
theorem allocSlice_fills_block_three :
    0 < 3 ∧ 3 < 2 ^ 63 ∧ [0x030201, 0xFFFFFF].length * 3 < 2 ^ 63 ∧
    (∃ room h' bytes, littered empty 9 = some room ∧ 0 ∉ room.fresh ∧
      allocSlice littered ([0x030201, 0xFFFFFF] : List (Cell 3)) true empty =
        (.ok room.base, h') ∧
      h'.bytesAt? room.base = some bytes ∧ bytes.length = 9 ∧
      (∀ byte address, (byte, address) ∈ h'.written →
        room.base ≤ address ∧ address < room.base + 9) ∧
      bytes.take 9 = [1, 2, 3, 0xFF, 0xFF, 0xFF, 0, 0, 0] ∧
      readVec 3 bytes 0 3 = [0x030201, 0xFFFFFF, 0]) ∧
    (allocSlice littered ([] : List (Cell 3)) false empty).1 ≠ .error .zeroSize := by
  obtain ⟨size, rfl, -, -, -, -, -, hmade⟩ := allocSlice_fills_block littered empty
    ([0x030201, 0xFFFFFF] : List (Cell 3)) true (by decide) (by decide) (by decide)
  obtain ⟨h', bytes, new, hcopy, -, hbytes, hlength, rfl, hwithin, htake, hread⟩ := hmade _ rfl
  obtain ⟨-, -, -, -, -, hnonzero, -⟩ := allocSlice_fills_block littered empty
    ([] : List (Cell 3)) false (by decide) (by decide) (by decide)
  exact ⟨by decide, by decide, by decide, ⟨_, h', bytes, rfl, by decide, hcopy, hbytes, hlength,
    hwithin, htake, hread⟩, hnonzero⟩

end Heap

end ForeignCall.Memory
