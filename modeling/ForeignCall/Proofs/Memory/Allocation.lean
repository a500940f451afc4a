import ForeignCall.Memory.Heap
import Mathlib.Algebra.Group.Nat.Defs
import Mathlib.Data.List.Nodup
import Mathlib.Data.List.Pairwise

/-!
# Allocation

Asking for memory either fails, and then the heap is as it was, or adds one block that lies apart
from all others, has the size asked for and starts with what is written into it. A block gives way
to the new one only if it is the one to be resized. Every way of asking is a plain allocation,
followed by writes; as these end within the new block, they fall on no other, and what is known of
the block is kept write by write, whatever it held at first.
-/

namespace ForeignCall.Memory

namespace Heap

/-! ### Requests -/

/-- A request for memory. The cells of a run lie in memory themselves, where nothing takes up more
than half of the address space. -/
inductive Request where
  | malloc (size : Nat)
  | memdup (bytes : List UInt8)
  | strdup (text : List Char)
  | realloc (base size : Nat)
  | allocSlice {width : Nat} (vs : List (Cell width)) (terminate : Bool) (narrow : width < 2 ^ 63)
      (fits : vs.length * width < 2 ^ 63)

namespace Request

/-- The answer to a request and the heap after it. -/
def perform (system : System) (h : Heap) : Request → Except MemoryError Nat × Heap
  | malloc size => h.malloc system size
  | memdup bytes => h.memdup system bytes
  | strdup text => h.strdup system text
  | realloc base size => h.realloc system base size
  | allocSlice vs terminate _ _ => h.allocSlice system vs terminate

/-- The size of the block that is asked for. -/
def size : Request → Nat
  | malloc size => size
  | memdup bytes => bytes.length
  | strdup text => (Text.Utf8.encode text).length + 1
  | realloc _ size => size
  | @allocSlice width vs terminate _ _ => max ((vs.length + terminate.toNat) * width) 1

/-- The bytes that are written, from the address of the new block on. -/
def written : Request → List UInt8
  | malloc _ => []
  | memdup bytes => bytes
  | strdup text => Text.Utf8.encode text ++ [0]
  | realloc _ _ => []
  | @allocSlice width vs terminate _ _ =>
    encodeAll vs ++ if terminate then encode (0 : Cell width) else []

/-- The address of the block to be resized. -/
def resized? : Request → Option Nat
  | realloc base _ => some base
  | _ => none

/-- The live block that gives way to the new one. -/
def replaced? (h : Heap) (r : Request) : Option Block := r.resized?.bind h.find?

/-- The live blocks that do not give way. -/
def others (h : Heap) (r : Request) : List Block :=
  match r.replaced? h with
  | some old => h.blocks.erase old
  | none => h.blocks

/-- What the new block starts with: as much of the block that gives way as fits, or else what is
written. -/
def content (h : Heap) (r : Request) : List UInt8 :=
  match r.replaced? h with
  | some old => old.bytes.take r.size
  | none => r.written

/-- A new block starts with what it takes over from the block that gives way. -/
theorem content_of_some {h : Heap} {r : Request} {old : Block} (ho : r.replaced? h = some old) :
    r.content h = old.bytes.take r.size := by
  rw [content, ho]

/-- A new block for which none gives way starts with what is written. -/
theorem content_of_none {h : Heap} {r : Request} (ho : r.replaced? h = none) :
    r.content h = r.written := by
  rw [content, ho]

end Request

end Heap

variable {bytes content new : List UInt8} {others : List Block} {b c : Block}
  {size base offset address : Nat}

/-- Bytes written right after those a block starts with go on from them. -/
theorem append_prefix_splice (h : content <+: bytes)
    (hroom : content.length + new.length ≤ bytes.length) :
    content ++ new <+: splice bytes content.length new := by
  obtain ⟨rest, rfl⟩ := h
  rw [splice_of_le hroom, List.take_left]
  exact List.prefix_append _ _

namespace Block

/-- Two blocks lie apart from each other. -/
instance : Std.Symm Apart := ⟨fun _ _ h ↦ Or.symm h⟩

/-- Blocks with bytes that lie apart have different addresses. -/
theorem Apart.base_ne (h : b.Apart c) (hb : b.bytes ≠ []) (hc : c.bytes ≠ []) :
    b.base ≠ c.base := by
  have hblength := List.length_pos_iff.mpr hb
  have hclength := List.length_pos_iff.mpr hc
  unfold Apart stop at h
  omega

/-- A write that ends within a block does not fall on one that lies apart. -/
theorem Apart.overwrite_eq (h : b.Apart c) (hfit : offset + new.length ≤ b.bytes.length) :
    c.overwrite (b.base + offset) new = c := by
  apply overwrite_of_apart
  unfold Apart stop at h
  unfold stop
  omega

end Block

namespace Heap

variable {h h' rest : Heap}

/-! ### Blocks and their addresses -/

/-- No two blocks have the same address. -/
theorem nodup_bases (h : Heap) : (h.blocks.map (·.base)).Nodup := by
  rw [List.nodup_iff_pairwise_ne, List.pairwise_map]
  exact h.apart.imp_of_mem fun hb hc hbc ↦ hbc.base_ne (h.proper _ hb).1 (h.proper _ hc).1

/-- The block found at an address starts there. -/
theorem base_of_find? {old : Block} (hfind : h.find? base = some old) : old.base = base := by
  simpa using List.find?_some hfind

/-- Without the block at an address all others are left. -/
theorem blocks_erase (h : Heap) (base : Nat) :
    (h.erase base).blocks =
      match h.find? base with
      | some old => h.blocks.erase old
      | none => h.blocks := by
  cases hfind : h.find? base with
  | none =>
    rw [find?, List.find?_eq_none] at hfind
    exact List.filter_eq_self.mpr fun b hb ↦ by simpa using hfind b hb
  | some old =>
    have hold : old ∈ h.blocks := List.mem_of_find?_eq_some hfind
    obtain rfl := base_of_find? hfind
    simp only [erase]
    rw [h.nodup_bases.of_map.erase_eq_filter]
    refine List.filter_congr fun b hb ↦ ?_
    -- Leaving out the address leaves out this block alone, for no other has it.
    have hinj : b.base = old.base ↔ b = old :=
      ⟨List.inj_on_of_nodup_map h.nodup_bases hb hold, congrArg _⟩
    simp [hinj, bne, BEq.beq]

/-! ### Writes -/

/-- Every byte of a write is put on record with its address. -/
theorem written_write (h : Heap) (address : Nat) (new : List UInt8) :
    (h.write address new).written = h.written ++ new.zipIdx address := rfl

/-- Writes right behind each other are one write. -/
theorem write_write (h : Heap) (address : Nat) (first second : List UInt8) :
    (h.write address first).write (address + first.length) second =
      h.write address (first ++ second) := by
  apply Heap.ext
  · simp only [write, List.map_map, Function.comp_def, Block.overwrite_overwrite]
  · simp only [written_write, List.zipIdx_append, List.append_assoc]

/-- A write leaves every block it lies apart from as it is. -/
theorem mem_write (hb : b ∈ h.blocks)
    (hout : b.stop ≤ address ∨ address + new.length ≤ b.base) :
    b ∈ (h.write address new).blocks :=
  List.mem_map.mpr ⟨b, hb, Block.overwrite_of_apart hout⟩

/-- A write that ends within the first block changes this one alone. -/
theorem blocks_write (hblocks : h.blocks = ⟨base, bytes⟩ :: others)
    (hfit : offset + new.length ≤ bytes.length) :
    (h.write (base + offset) new).blocks = ⟨base, splice bytes offset new⟩ :: others := by
  have hapart := h.apart
  rw [hblocks, List.pairwise_cons] at hapart
  have hothers : others.map (·.overwrite (base + offset) new) = others :=
    (List.map_congr_left fun c hc ↦ (hapart.1 c hc).overwrite_eq hfit).trans (List.map_id' _)
  have hfirst := Block.overwrite_base_add ⟨base, bytes⟩ offset new
  simp only [write, hblocks, List.map_cons, hothers, hfirst]

/-! ### What asking for memory can do -/

/-- All that asking for memory can do. If it is refused, the heap stays as it is. Else a block of
the size asked for is added to the rest of the heap, its bytes start with known ones, and what has
been written has been written from its address on. -/
inductive Allocates (h rest : Heap) (size : Nat) (content new : List UInt8) :
    Except MemoryError Nat × Heap → Prop where
  | refused (e : MemoryError) : Allocates h rest size content new (.error e, h)
  | placed (room : rest.Room size) (h' : Heap) (bytes : List UInt8)
      (hblocks : h'.blocks = ⟨room.base, bytes⟩ :: rest.blocks)
      (hwritten : h'.written = h.written ++ new.zipIdx room.base)
      (hlength : bytes.length = size) (hcontent : content <+: bytes) :
      Allocates h rest size content new (.ok room.base, h')

/-- A plain allocation keeps all blocks and writes nothing. -/
theorem allocates_malloc (system : System) (size : Nat) (h : Heap) :
    Allocates h h size [] [] (malloc system size h) := by
  unfold malloc
  split
  · exact .refused _
  · cases system h size with
    | none => exact .refused _
    | some room =>
      exact .placed room _ room.fresh rfl (List.append_nil _).symm room.length_fresh
        List.nil_prefix

/-- A write right after what the new block starts with goes on from that. -/
theorem Allocates.write (ha : Allocates h rest size content content (.ok base, h'))
    (new : List UInt8) (hroom : content.length + new.length ≤ size) :
    Allocates h rest size (content ++ new) (content ++ new)
      (.ok base, h'.write (base + content.length) new) := by
  cases ha with
  | placed room _ bytes hblocks hwritten hlength hcontent =>
    rw [← hlength] at hroom
    refine .placed room _ (splice bytes content.length new) (blocks_write hblocks hroom) ?_
      ((length_splice _ _ _).trans hlength) (append_prefix_splice hcontent hroom)
    rw [written_write, hwritten, List.append_assoc, List.zipIdx_append, Nat.add_comm]

/-- The first write goes to the address of the new block. -/
theorem Allocates.write_first (ha : Allocates h rest size [] [] (.ok base, h'))
    (new : List UInt8) (hroom : new.length ≤ size) :
    Allocates h rest size new new (.ok base, h'.write base new) :=
  ha.write new (by simpa using hroom)

/-- What is done with the new block is done if there is one. -/
theorem Allocates.andThen {content' new new' : List UInt8} {write : Nat → Heap → Heap}
    (hwrite : ∀ base h', Allocates h rest size content new (.ok base, h') →
      Allocates h rest size content' new' (.ok base, write base h'))
    {result : Except MemoryError Nat × Heap} :
    Allocates h rest size content new result →
    Allocates h rest size content' new'
      (match result with
        | (.error e, h) => (.error e, h)
        | (.ok base, h) => (.ok base, write base h)) := by
  intro ha
  rcases result with ⟨_ | base, h'⟩
  · cases ha
    exact .refused _
  · exact hwrite base h' ha

/-- A copy of bytes starts with them. -/
theorem allocates_memdup (system : System) (bytes : List UInt8) (h : Heap) :
    Allocates h h bytes.length bytes bytes (memdup system bytes h) := by
  have hmalloc := allocates_malloc system bytes.length h
  exact .andThen (fun base h' ha ↦ ha.write_first bytes (Nat.le_refl _)) hmalloc

/-- A copy of a text starts with its bytes and a zero byte. -/
theorem allocates_strdup (system : System) (text : List Char) (h : Heap) :
    Allocates h h ((Text.Utf8.encode text).length + 1) (Text.Utf8.encode text ++ [0])
      (Text.Utf8.encode text ++ [0]) (strdup system text h) := by
  simp only [strdup]
  -- Of the encoded text only the length matters.
  generalize Text.Utf8.encode text = bytes
  have hmalloc := allocates_malloc system (bytes.length + 1) h
  split
  · exact .refused _
  · refine .andThen (fun base h' ha ↦ ?_) hmalloc
    have htext := ha.write_first bytes (Nat.le_succ _)
    exact htext.write [0] (Nat.le_refl _)

/-- A resized block starts with the bytes it had, as far as they fit. -/
theorem allocates_realloc (system : System) (base size : Nat) (h : Heap) :
    Allocates h (h.erase base) size (((h.bytesAt? base).getD []).take size) []
      (realloc system base size h) := by
  unfold realloc
  split
  · exact .refused _
  · cases system (h.erase base) size with
    | none => exact .refused _
    | some room =>
      refine .placed room _ (resized ((h.bytesAt? base).getD []) room.fresh) rfl
        (List.append_nil _).symm ((length_resized _ _).trans room.length_fresh) ?_
      rw [resized, room.length_fresh]
      exact List.prefix_append _ _

/-- The size of the block for a run of cells is within the address space. -/
theorem slice_lt {width count : Nat} (hwidth : width < 2 ^ 63) (hcells : count * width < 2 ^ 63)
    (terminate : Bool) : max ((count + terminate.toNat) * width) 1 < 2 ^ 64 := by
  have hlast : terminate.toNat * width ≤ width := by
    cases terminate <;> simp
  rw [Nat.add_mul]
  omega

/-- The size of the block for a run of cells does not overflow. -/
theorem toNat_sliceSize {width count : Nat} {terminate : Bool}
    (hlt : max ((count + terminate.toNat) * width) 1 < 2 ^ 64) :
    (sliceSize width count terminate).toNat = max ((count + terminate.toNat) * width) 1 := by
  have hproduct : (BitVec.ofNat 64 count + if terminate then 1 else 0) * .ofNat 64 width =
      .ofNat 64 ((count + terminate.toNat) * width) := by
    rw [BitVec.ofNat_mul, BitVec.ofNat_add]
    cases terminate <;> rfl
  rw [sliceSize, hproduct]
  by_cases hzero : (count + terminate.toNat) * width = 0
  · rw [hzero]
    rfl
  · have htoNat : (BitVec.ofNat 64 ((count + terminate.toNat) * width)).toNat =
        (count + terminate.toNat) * width := by
      rw [BitVec.toNat_ofNat, Nat.mod_eq_of_lt (by omega)]
    rw [Nat.max_eq_left (Nat.pos_of_ne_zero hzero), if_neg, htoNat]
    intro hnone
    rw [hnone] at htoNat
    exact hzero htoNat.symm

/-- A copy of a run of cells starts with their bytes, and with those of a zero cell after them if
asked for. -/
theorem allocates_allocSlice {width : Nat} (system : System) (vs : List (Cell width))
    (terminate : Bool) (hwidth : width < 2 ^ 63) (hcells : vs.length * width < 2 ^ 63) (h : Heap) :
    Allocates h h (max ((vs.length + terminate.toNat) * width) 1)
      (encodeAll vs ++ if terminate then encode (0 : Cell width) else [])
      (encodeAll vs ++ if terminate then encode (0 : Cell width) else [])
      (allocSlice system vs terminate h) := by
  have hlength : (encodeAll vs).length + terminate.toNat * width =
      (vs.length + terminate.toNat) * width := by
    rw [length_encodeAll, Nat.add_mul]
  have hmalloc := allocates_malloc system (sliceSize width vs.length terminate).toNat h
  rw [toNat_sliceSize (slice_lt hwidth hcells terminate)] at hmalloc
  rw [allocSlice, toNat_sliceSize (slice_lt hwidth hcells terminate)]
  refine .andThen (fun base h' ha ↦ ?_) hmalloc
  -- The cells come first, and the zero cell goes right behind them.
  have hall := ha.write_first (encodeAll vs) (by omega)
  cases terminate with
  | false => simpa using hall
  | true =>
    have hroom : (encodeAll vs).length + width ≤ max ((vs.length + true.toNat) * width) 1 := by
      rw [← hlength, Bool.toNat_true, Nat.one_mul]
      exact Nat.le_max_left _ _
    have hzero := hall.write (encode (0 : Cell width)) (by simpa using hroom)
    rwa [length_encodeAll] at hzero

/-- Every request is refused or adds a block to the others. -/
theorem Request.allocates (r : Request) (system : System) (h : Heap) :
    ∃ rest : Heap, rest.blocks = r.others h ∧
      Allocates h rest r.size (r.content h) r.written (r.perform system h) := by
  cases r with
  | malloc size => exact ⟨h, rfl, allocates_malloc system size h⟩
  | memdup bytes => exact ⟨h, rfl, allocates_memdup system bytes h⟩
  | strdup text => exact ⟨h, rfl, allocates_strdup system text h⟩
  | realloc base size =>
    have hcontent : (Request.realloc base size).content h =
        ((h.bytesAt? base).getD []).take size := by
      rw [bytesAt?]
      cases hfind : h.find? base with
      | some old => exact Request.content_of_some hfind
      | none =>
        have hnone : (Request.realloc base size).content h = [] := Request.content_of_none hfind
        exact hnone.trans List.take_nil.symm
    rw [hcontent]
    exact ⟨h.erase base, blocks_erase h base, allocates_realloc system base size h⟩
  | allocSlice vs terminate narrow fits =>
    exact ⟨h, rfl, allocates_allocSlice system vs terminate narrow fits h⟩

/-- A block that is not to be resized does not give way. -/
theorem Request.mem_others (r : Request) (hb : b ∈ h.blocks)
    (hne : r.resized? ≠ some b.base) : b ∈ r.others h := by
  unfold others
  split
  · rename_i old hold
    obtain ⟨base, hbase, hfind⟩ := Option.bind_eq_some_iff.mp hold
    refine (List.mem_erase_of_ne fun heq ↦ hne ?_).mpr hb
    rw [hbase, heq, base_of_find? hfind]
  · exact hb

/-- What is written is part of what the new block starts with. -/
theorem Request.written_prefix_content (r : Request) (h : Heap) : r.written <+: r.content h := by
  cases r with
  | realloc base size => exact List.nil_prefix
  | malloc size => exact List.prefix_rfl
  | memdup bytes => exact List.prefix_rfl
  | strdup text => exact List.prefix_rfl
  | allocSlice vs terminate narrow fits => exact List.prefix_rfl

/-! ### Runs -/

/-- What is done with the heap. Each request is met by a system of its own, so a system may choose
its places, and what is there, by anything. -/
inductive Operation where
  | allocate (system : System) (r : Request)
  | poke {width : Nat} (base offset : Nat) (v : Cell width)
  | writeSlice {width : Nat} (base offset : Nat) (vs : List (Cell width))
  | copy (target targetOffset source sourceOffset count : Nat)
  | free (base : Nat)

/-- The heap after an operation. -/
def perform (h : Heap) : Operation → Heap
  | .allocate system r => (r.perform system h).2
  | .poke base offset v => h.write (base + offset) (encode v)
  | .writeSlice base offset vs => h.write (base + offset) (encodeAll vs)
  | .copy target targetOffset source sourceOffset count =>
    h.copy target targetOffset source sourceOffset count
  | .free base => h.erase base

/-- The heap after operations one after the other. -/
def after (h : Heap) (operations : List Operation) : Heap := operations.foldl perform h

/-- Whether an operation has nothing to do with a block: it neither resizes nor frees it, and
nothing it writes falls on it. -/
def Operation.Spares (b : Block) : Operation → Prop
  | allocate _ r => r.resized? ≠ some b.base
  | @poke width base offset _ => b.stop ≤ base + offset ∨ base + offset + width ≤ b.base
  | @writeSlice width base offset vs =>
    b.stop ≤ base + offset ∨ base + offset + vs.length * width ≤ b.base
  | copy target targetOffset _ _ count =>
    b.stop ≤ target + targetOffset ∨ target + targetOffset + count ≤ b.base
  | free base => b.base ≠ base

/-- An operation keeps every block it has nothing to do with. -/
theorem mem_perform {o : Operation} (hb : b ∈ h.blocks) (hspares : o.Spares b) :
    b ∈ (h.perform o).blocks := by
  cases o with
  | allocate system r =>
    obtain ⟨rest, hrest, ha⟩ := r.allocates system h
    have hother := r.mem_others hb hspares
    rw [perform]
    generalize r.perform system h = result at ha
    cases ha with
    | refused e => exact hb
    | placed room h' bytes hblocks =>
      show b ∈ h'.blocks
      rw [hblocks]
      exact List.mem_cons_of_mem _ (hrest ▸ hother)
  | poke base offset v => exact mem_write hb (by rwa [length_encode])
  | writeSlice base offset vs => exact mem_write hb (by rwa [length_encodeAll])
  | copy target targetOffset source sourceOffset count =>
    have hcount : (window ((h.bytesAt? source).getD []) sourceOffset count).length ≤ count :=
      List.length_take_le _ _
    refine mem_write hb (hspares.imp_right fun hbelow ↦ ?_)
    omega
  | free base => exact List.mem_filter.mpr ⟨hb, decide_eq_true hspares⟩

/-- A block stays as it is until an operation has to do with it. -/
theorem mem_after {operations : List Operation} (hb : b ∈ h.blocks)
    (hspares : ∀ o ∈ operations, o.Spares b) : b ∈ (h.after operations).blocks := by
  induction operations generalizing h with
  | nil => exact hb
  | cons o operations ih =>
    rw [List.forall_mem_cons] at hspares
    exact ih (mem_perform hb hspares.1) hspares.2

/-- Asking for memory is all or nothing, whatever was done with the heap before and whatever the
system finds in a free place. If a request is refused, the heap is as it was: every block, the one
to be resized included, and nothing has been written. Else exactly one block is added and lies apart
from all others, which are as they were; only a block that is resized gives way. The new block has
the size asked for. What is written is written from its address on and ends within it, and the block
starts with it, and with as many bytes of a block that is resized as fit. -/
theorem allocation_atomic (operations : List Operation) (system : System) (r : Request) :
    (∀ e h', r.perform system (empty.after operations) = (.error e, h') →
      h' = empty.after operations) ∧
    ∀ base h', r.perform system (empty.after operations) = (.ok base, h') →
      ∃ bytes, h'.blocks = ⟨base, bytes⟩ :: r.others (empty.after operations) ∧
        (∀ b ∈ r.others (empty.after operations), Block.Apart ⟨base, bytes⟩ b) ∧
        bytes.length = r.size ∧
        h'.written = (empty.after operations).written ++ r.written.zipIdx base ∧
        r.written.length ≤ bytes.length ∧ r.written <+: bytes ∧
        ∀ old, r.replaced? (empty.after operations) = some old →
          old.bytes.take r.size <+: bytes := by
  generalize empty.after operations = h
  obtain ⟨rest, hrest, ha⟩ := r.allocates system h
  constructor
  · intro e h' heq
    rw [heq] at ha
    cases ha
    rfl
  · intro base h' heq
    rw [heq] at ha
    cases ha with
    | placed room _ bytes hblocks hwritten hlength hcontent =>
      rw [hrest] at hblocks
      have hapart := h'.apart
      rw [hblocks] at hapart
      have hprefix := (r.written_prefix_content h).trans hcontent
      refine ⟨bytes, hblocks, (List.pairwise_cons.mp hapart).1, hlength, hwritten,
        hprefix.length_le, hprefix, fun old hold ↦ ?_⟩
      rwa [Request.content_of_some hold] at hcontent

/-- Two blocks of which the first was written into and the second has been freed. -/
def oneBlock : List Operation :=
  [.allocate ascending (.memdup [1, 2, 3, 4]), .allocate ascending (.malloc 8),
    .poke 0x10000 1 (0xFFFF : Cell 2), .free 0x10010]

/-- Resized to nothing or to more than there is, the block is as it was. Resized to three bytes it
keeps the first three. -/
theorem oneBlock_resized :
    (empty.after oneBlock).blocks = [⟨0x10000, [1, 0xFF, 0xFF, 4]⟩] ∧
    ((Request.realloc 0x10000 0).perform ascending (empty.after oneBlock)).2 =
      empty.after oneBlock ∧
    ((Request.realloc 0x10000 0x1000000000000).perform ascending (empty.after oneBlock)).2 =
      empty.after oneBlock ∧
    ∃ base bytes,
      ((Request.realloc 0x10000 3).perform ascending (empty.after oneBlock)).2.blocks =
        [⟨base, bytes⟩] ∧
      bytes.length = 3 ∧ [1, 0xFF, 0xFF] <+: bytes := by
  obtain ⟨hzero, -⟩ := allocation_atomic oneBlock ascending (.realloc 0x10000 0)
  obtain ⟨hlarge, -⟩ := allocation_atomic oneBlock ascending (.realloc 0x10000 0x1000000000000)
  obtain ⟨-, hplaced⟩ := allocation_atomic oneBlock ascending (.realloc 0x10000 3)
  obtain ⟨bytes, hblocks, -, hlength, -, -, -, hkept⟩ := hplaced _ _ rfl
  exact ⟨by decide, hzero _ _ rfl, hlarge (.outOfMemory 0x1000000000000) _ (Prod.ext rfl rfl),
    _, bytes, hblocks, hlength, hkept _ rfl⟩

end Heap

end ForeignCall.Memory
