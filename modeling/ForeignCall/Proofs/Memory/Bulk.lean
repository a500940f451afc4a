import ForeignCall.Memory.Element
import ForeignCall.Proofs.Memory.Allocation

/-!
# Runs of cells

A run of cells moves as one piece of bytes, yet it is the same as moving the cells one by one: the
bytes of a run are those of its cells in order, and writes right behind each other are one write.
Nothing outside the run changes, so whatever is read elsewhere is read as before.
-/

namespace ForeignCall.Memory

variable {bytes first second new : List UInt8} {width offset count other : Nat}

/-! ### Cells of a run -/

/-- The bytes of a run start with those of its first cell. -/
theorem encodeAll_cons (v : Cell width) (vs : List (Cell width)) :
    encodeAll (v :: vs) = encode v ++ encodeAll vs := rfl

/-- A run of cells is read back from its bytes. -/
theorem cells_encodeAll (vs : List (Cell width)) : cells width vs.length (encodeAll vs) = vs := by
  induction vs with
  | nil => rfl
  | cons v vs ih =>
    have htake : (encodeAll (v :: vs)).take width = encode v :=
      List.take_left' (length_encode v)
    have hdrop : (encodeAll (v :: vs)).drop width = encodeAll vs :=
      List.drop_left' (length_encode v)
    rw [List.length_cons, cells, htake, hdrop, decode_encode, ih]

/-- Bytes are those of the run of cells they stand for. -/
theorem encodeAll_cells (h : bytes.length = count * width) :
    encodeAll (cells width count bytes) = bytes := by
  induction count generalizing bytes with
  | zero =>
    rw [Nat.zero_mul] at h
    exact (List.eq_nil_of_length_eq_zero h).symm
  | succ count ih =>
    rw [Nat.succ_mul] at h
    have hfirst : (bytes.take width).length = width := by
      rw [List.length_take]
      omega
    have hrest : (bytes.drop width).length = count * width := by
      rw [List.length_drop]
      omega
    rw [cells, encodeAll_cons, encode_decode hfirst, ih hrest, List.take_append_drop]

/-- Reading a run is reading its cells one by one. -/
theorem readVec_eq_map_peek (bytes : List UInt8) (offset count : Nat) :
    readVec width bytes offset count =
      (List.range count).map fun i ↦ peek width bytes (offset + i * width) := by
  induction count generalizing offset with
  | zero => rfl
  | succ count ih =>
    have htake : (window bytes offset ((count + 1) * width)).take width =
        window bytes offset width := by
      rw [window, window, List.take_take, Nat.succ_mul, Nat.min_eq_left (Nat.le_add_left _ _)]
    have hdrop : (window bytes offset ((count + 1) * width)).drop width =
        window bytes (offset + width) (count * width) := by
      rw [window, window, List.drop_take, List.drop_drop, Nat.succ_mul, Nat.add_sub_cancel]
    have hrest := ih (offset + width)
    rw [readVec] at hrest ⊢
    rw [cells, htake, hdrop, hrest, List.range_succ_eq_map, List.map_cons, List.map_map]
    refine congrArg₂ _ ?_ (List.map_congr_left fun i _ ↦ ?_)
    · rw [Nat.zero_mul, Nat.add_zero, peek]
    · rw [Function.comp_apply, Nat.succ_mul]
      congr 1
      omega

/-! ### Writes into a block -/

/-- A write of no bytes changes nothing. -/
theorem splice_nil (bytes : List UInt8) (offset : Nat) : splice bytes offset [] = bytes := by
  rw [splice, List.take_nil, List.append_nil, List.length_nil, Nat.add_zero, List.take_append_drop]

/-- A write of no bytes leaves every block as it is. -/
theorem Block.overwrite_nil (b : Block) (address : Nat) : b.overwrite address [] = b := by
  rw [overwrite, List.drop_nil, splice_nil]

/-- Writes right behind each other are one write. -/
theorem splice_splice (bytes : List UInt8) (offset : Nat) (first second : List UInt8) :
    splice (splice bytes offset first) (offset + first.length) second =
      splice bytes offset (first ++ second) := by
  have hblock := Block.overwrite_overwrite ⟨0, bytes⟩ offset first second
  simpa [Block.overwrite] using hblock

/-- What has been written is read back. -/
theorem window_splice (h : offset + new.length ≤ bytes.length) :
    window (splice bytes offset new) offset new.length = new := by
  have hlength : (bytes.take offset).length = offset := List.length_take_of_le (by omega)
  rw [window, splice_of_le h, List.append_assoc, List.drop_left' hlength, List.take_left]

/-- A byte outside of what is written is as before. -/
theorem getElem?_splice_of_outside {i : Nat}
    (hout : i < offset ∨ offset + new.length ≤ i) : (splice bytes offset new)[i]? = bytes[i]? := by
  rw [getElem?_splice]
  exact if_neg (by omega)

/-- Bytes read apart from what is written are as before. -/
theorem window_splice_of_apart
    (hapart : other + count ≤ offset ∨ offset + new.length ≤ other) :
    window (splice bytes offset new) other count = window bytes other count := by
  apply List.ext_getElem?
  intro i
  rw [window, window, List.getElem?_take, List.getElem?_take]
  split
  · rw [List.getElem?_drop, List.getElem?_drop, getElem?_splice_of_outside (by omega)]
  · rfl

/-- A run that has been written is read back. -/
theorem readVec_writeSlice {vs : List (Cell width)}
    (h : offset + vs.length * width ≤ bytes.length) :
    readVec width (writeSlice bytes offset vs) offset vs.length = vs := by
  rw [← length_encodeAll] at h
  rw [readVec, writeSlice, ← length_encodeAll, window_splice h, cells_encodeAll]

/-- Writes cells one by one, each right behind the one before. -/
def pokeEach (bytes : List UInt8) (offset : Nat) : List (Cell width) → List UInt8
  | [] => bytes
  | v :: vs => pokeEach (poke bytes offset v) (offset + width) vs

/-- Writing a run is writing its cells one by one. -/
theorem writeSlice_eq_pokeEach (bytes : List UInt8) (offset : Nat) (vs : List (Cell width)) :
    writeSlice bytes offset vs = pokeEach bytes offset vs := by
  induction vs generalizing bytes offset with
  | nil => exact splice_nil bytes offset
  | cons v vs ih =>
    have hone := splice_splice bytes offset (encode v) (encodeAll vs)
    rw [length_encode] at hone
    rw [pokeEach, ← ih, writeSlice, writeSlice, poke, hone, encodeAll_cons]

namespace Heap

variable {h : Heap} {base : Nat}

/-! ### Writes into a block of the heap -/

/-- The bytes of a block after a write at an offset of it. -/
theorem bytesAt?_write (h : Heap) (base offset : Nat) (new : List UInt8) :
    (h.write (base + offset) new).bytesAt? base = (h.bytesAt? base).map (splice · offset new) := by
  have hsame : (fun b : Block ↦ decide (b.base = base)) ∘
      (fun b : Block ↦ b.overwrite (base + offset) new) = fun b ↦ decide (b.base = base) := rfl
  rw [bytesAt?, bytesAt?, find?, write, List.find?_map, hsame, ← find?]
  cases hfind : h.find? base with
  | none => rfl
  | some b =>
    obtain rfl := base_of_find? hfind
    rw [Option.map_some, Option.map_some, Option.map_some, Option.map_some,
      Block.overwrite_base_add]

/-- A write that ends within a block leaves every other block as it is. -/
theorem mem_write_of_bytesAt? {b : Block} (hb : h.bytesAt? base = some bytes)
    (hfit : offset + new.length ≤ bytes.length) (hmem : b ∈ h.blocks) (hne : b.base ≠ base) :
    b ∈ (h.write (base + offset) new).blocks := by
  obtain ⟨target, hfind, rfl⟩ := Option.map_eq_some_iff.mp hb
  obtain rfl := base_of_find? hfind
  have hapart : target.Apart b :=
    h.apart.forall (List.mem_of_find?_eq_some hfind) hmem fun heq ↦ hne (heq ▸ rfl)
  exact List.mem_map.mpr ⟨b, hmem, hapart.overwrite_eq hfit⟩

/-- The operations that write cells one by one, each right behind the one before. -/
def pokes (base offset : Nat) : List (Cell width) → List Operation
  | [] => []
  | v :: vs => .poke base offset v :: pokes base (offset + width) vs

/-- Writing a run is writing its cells one by one. -/
theorem perform_writeSlice (h : Heap) (base offset : Nat) (vs : List (Cell width)) :
    h.perform (.writeSlice base offset vs) = h.after (pokes base offset vs) := by
  induction vs generalizing h offset with
  | nil =>
    apply Heap.ext
    · exact (List.map_congr_left fun b _ ↦ b.overwrite_nil _).trans (List.map_id' _)
    · exact List.append_nil _
  | cons v vs ih =>
    have hone := h.write_write (base + offset) (encode v) (encodeAll vs)
    rw [length_encode] at hone
    calc h.perform (.writeSlice base offset (v :: vs))
      _ = h.write (base + offset) (encode v ++ encodeAll vs) := rfl
      _ = (h.write (base + offset) (encode v)).perform (.writeSlice base (offset + width) vs) := by
        rw [← hone, perform, Nat.add_assoc]
      _ = h.after (pokes base offset (v :: vs)) := ih _ _

end Heap

/-- Moving a run of elements and moving them one by one are the same, at every offset. Writing a
run leaves a block as writing its elements each behind the one before does, and so it does in the
heap, where no other block changes. Reading a run gives what reading each element gives, and after a
write what was written. Every byte outside the run is as before, and so is every element that is
read apart from it. -/
theorem bulk_agrees_with_scalar (t : ElementType) {bytes : List UInt8} {offset : Nat}
    {vs : List (Cell t.width)} (hfit : offset + vs.length * t.width ≤ bytes.length) :
    writeSlice bytes offset vs = pokeEach bytes offset vs ∧
    (∀ (h : Heap) (base : Nat), h.bytesAt? base = some bytes →
      (h.perform (.writeSlice base offset vs)).bytesAt? base =
        some (writeSlice bytes offset vs) ∧
      h.perform (.writeSlice base offset vs) = h.after (Heap.pokes base offset vs) ∧
      ∀ b ∈ h.blocks, b.base ≠ base → b ∈ (h.perform (.writeSlice base offset vs)).blocks) ∧
    (∀ count, readVec t.width bytes offset count =
      (List.range count).map fun i ↦ peek t.width bytes (offset + i * t.width)) ∧
    readVec t.width (writeSlice bytes offset vs) offset vs.length = vs ∧
    (writeSlice bytes offset vs).length = bytes.length ∧
    (∀ i, i < offset ∨ offset + vs.length * t.width ≤ i →
      (writeSlice bytes offset vs)[i]? = bytes[i]?) ∧
    ∀ (u : ElementType) (other : Nat), other + u.width ≤ bytes.length →
      (other + u.width ≤ offset ∨ offset + vs.length * t.width ≤ other) →
      peek u.width (writeSlice bytes offset vs) other = peek u.width bytes other := by
  refine ⟨writeSlice_eq_pokeEach bytes offset vs, ?_, readVec_eq_map_peek bytes offset,
    readVec_writeSlice hfit, length_splice _ _ _, ?_, ?_⟩
  · intro h base hb
    have hroom : offset + (encodeAll vs).length ≤ bytes.length := by rwa [length_encodeAll]
    refine ⟨?_, h.perform_writeSlice base offset vs, fun b hmem hne ↦ ?_⟩
    · rw [Heap.perform, Heap.bytesAt?_write, hb, Option.map_some, writeSlice]
    · exact Heap.mem_write_of_bytesAt? hb hroom hmem hne
  · intro i hout
    rw [← length_encodeAll] at hout
    exact getElem?_splice_of_outside hout
  · intro u other _ hapart
    rw [← length_encodeAll] at hapart
    rw [peek, peek, writeSlice, window_splice_of_apart hapart]

/-- Twelve bytes on the heap. -/
def twelveBytes : List Heap.Operation :=
  [.allocate Heap.ascending (.memdup [1, 2, 3, 4, 5, 6, 7, 8, 9, 10, 11, 12])]

/-- A signalling not-a-number and minus one, written behind three bytes, are read back bit for bit,
and the number of two bytes before them is as it was. -/
theorem bulk_agrees_with_scalar_unaligned :
    (Heap.empty.after twelveBytes).bytesAt? 0x10000 =
      some [1, 2, 3, 4, 5, 6, 7, 8, 9, 10, 11, 12] ∧
    3 + 2 * ElementType.f32.width ≤ 12 ∧
    ((Heap.empty.after twelveBytes).perform
        (.writeSlice 0x10000 3 ([0x7F800001, 0xBF800000] : List (Cell 4)))).bytesAt? 0x10000 =
      some [1, 2, 3, 1, 0, 0x80, 0x7F, 0, 0, 0x80, 0xBF, 12] ∧
    readVec 4 [1, 2, 3, 1, 0, 0x80, 0x7F, 0, 0, 0x80, 0xBF, 12] 3 2 =
      [0x7F800001, 0xBF800000] ∧
    peek 2 [1, 2, 3, 1, 0, 0x80, 0x7F, 0, 0, 0x80, 0xBF, 12] 1 =
      peek 2 [1, 2, 3, 4, 5, 6, 7, 8, 9, 10, 11, 12] 1 := by
  have hfit : 3 + ([0x7F800001, 0xBF800000] : List (Cell 4)).length * ElementType.f32.width ≤
      ([1, 2, 3, 4, 5, 6, 7, 8, 9, 10, 11, 12] : List UInt8).length := by decide
  obtain ⟨-, hheap, -, hread, -, -, hother⟩ := bulk_agrees_with_scalar .f32 hfit
  have hblock : (Heap.empty.after twelveBytes).bytesAt? 0x10000 =
      some [1, 2, 3, 4, 5, 6, 7, 8, 9, 10, 11, 12] := by decide
  exact ⟨hblock, hfit, (hheap _ _ hblock).1, hread, hother .u16 1 (by decide) (by decide)⟩

end ForeignCall.Memory
