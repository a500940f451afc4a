import ForeignCall.Memory.CString
import ForeignCall.Proofs.Memory.Bulk
import ForeignCall.Proofs.Text.Utf8

/-!
# Texts as C strings

A text without a zero character is put on the heap as its bytes and a zero byte, and it is read back
from there as a whole or from any of its characters on. A text with a zero character is refused, and
nothing is allocated for it. The block is the one that a run of bytes with a zero cell after it is
copied to.
-/

namespace ForeignCall.Memory

variable {bytes : List UInt8} {others : List Block} {size width count base offset : Nat}

/-- A run has as many cells as are asked for. -/
theorem length_cells (width count : Nat) (bytes : List UInt8) :
    (cells width count bytes).length = count := by
  induction count generalizing bytes with
  | zero => rfl
  | succ count ih => rw [cells, List.length_cons, ih]

/-! ### Reading a text -/

/-- The length of a text in front of a zero byte is that of its bytes. -/
theorem strlen?_encode {cs : List Char} (h : '\x00' ∉ cs) :
    strlen? (Text.Utf8.encode cs ++ [0]) = some (Text.Utf8.encode cs).length := by
  rw [strlen?, cString?_append_zero (Text.Utf8.zero_notMem_encode h), Option.map_some]

/-- A text in front of a zero byte is read back. -/
theorem readCString?_encode {cs : List Char} (h : '\x00' ∉ cs) :
    readCString? (Text.Utf8.encode cs ++ [0]) = some (String.ofList cs) := by
  rw [readCString?, cString?_append_zero (Text.Utf8.zero_notMem_encode h), Option.map_some,
    Text.Utf8.decodeLossy_encode]

namespace Heap

variable {system : System} {h h' : Heap} {text : List Char}

/-! ### The new block -/

/-- Room for a block ends within the address space, and so does every size there is room for. -/
theorem Room.size_lt (room : h.Room size) : size < 2 ^ 64 := by
  have hbase := room.fits.1
  have hstop := room.fits.2.1
  omega

/-- The bytes of the first block. -/
theorem bytesAt?_of_blocks (hblocks : h.blocks = ⟨base, bytes⟩ :: others) :
    h.bytesAt? base = some bytes := by
  simp [bytesAt?, find?, hblocks]

/-- The bytes from an address in the first block. -/
theorem bytesFrom_of_blocks (hblocks : h.blocks = ⟨base, bytes⟩ :: others)
    (hoffset : offset < bytes.length) : h.bytesFrom (base + offset) = bytes.drop offset := by
  simp [bytesFrom, hblocks, Block.stop, hoffset]

/-- Where there is room, a plain allocation takes it as it is. -/
theorem malloc_of_room {room : h.Room size} (hroom : system h size = some room)
    (hpos : 0 < size) :
    malloc system size h = (.ok room.base, h.add room room.fresh room.length_fresh hpos) := by
  simp [malloc, hroom, Nat.ne_of_gt hpos]

/-- Where there is room, a text is copied. -/
theorem exists_strdup_of_room {room : h.Room ((Text.Utf8.encode text).length + 1)}
    (hroom : system h ((Text.Utf8.encode text).length + 1) = some room)
    (htext : '\x00' ∉ text) : ∃ h', strdup system text h = (.ok room.base, h') := by
  simp only [strdup, Text.Utf8.findIdx?_zero_eq_none htext, malloc_of_room hroom (Nat.succ_pos _)]
  exact ⟨_, rfl⟩

/-- All that a copy of a text changes: there is a new block with its bytes and a zero byte, and just
these have been written to its addresses. -/
theorem of_strdup (hcopy : strdup system text h = (.ok base, h')) :
    base < 2 ^ 64 ∧ h'.blocks = ⟨base, Text.Utf8.encode text ++ [0]⟩ :: h.blocks ∧
      h'.written = h.written ++ (Text.Utf8.encode text ++ [0]).zipIdx base := by
  have ha := allocates_strdup system text h
  rw [hcopy] at ha
  cases ha with
  | placed room _ bytes hblocks hwritten hlength hcontent =>
    have hbytes := hcontent.eq_of_length (by simp [hlength])
    have hstop := room.fits.2.1
    exact ⟨by omega, hbytes ▸ hblocks, hwritten⟩

/-- A copy of a text, from the address of a character on, is the rest of the text and a zero. -/
theorem bytesFrom_strdup (hcopy : strdup system text h = (.ok base, h'))
    (before after : List Char) (hsplit : text = before ++ after) :
    h'.bytesFrom (base + (Text.Utf8.encode before).length) = Text.Utf8.encode after ++ [0] := by
  obtain ⟨-, hblocks, -⟩ := of_strdup hcopy
  rw [hsplit, Text.Utf8.encode_append] at hblocks
  rw [bytesFrom_of_blocks hblocks (by simp), List.append_assoc, List.drop_left]

/-- A plain allocation is never refused for a zero byte. -/
theorem malloc_ne_interiorNul (system : System) (size : Nat) (h : Heap) (k : Nat) :
    (malloc system size h).1 ≠ .error (.interiorNul k) := by
  unfold malloc
  split
  · simp
  · split <;> simp

/-- A text is refused for the first zero byte that is found, and for nothing else. -/
theorem strdup_eq_interiorNul_iff {k : Nat} :
    (strdup system text h).1 = .error (.interiorNul k) ↔
      (Text.Utf8.encode text).findIdx? (· = 0) = some k := by
  cases hfind : (Text.Utf8.encode text).findIdx? (· = 0) with
  | some position => simp [strdup, hfind]
  | none =>
    have hmalloc := malloc_ne_interiorNul system ((Text.Utf8.encode text).length + 1) h k
    simp only [strdup, hfind]
    generalize malloc system ((Text.Utf8.encode text).length + 1) h = result at hmalloc
    rcases result with ⟨_ | _, _⟩
    · simpa using hmalloc
    · simp

/-- A text that is refused leaves the heap as it was. -/
theorem strdup_refused {k : Nat} (hrefused : (strdup system text h).1 = .error (.interiorNul k)) :
    (strdup system text h).2 = h := by
  rw [strdup_eq_interiorNul_iff] at hrefused
  simp only [strdup, hrefused]

/-- A text that is copied has no zero character. -/
theorem not_nul_of_strdup (hcopy : strdup system text h = (.ok base, h')) : '\x00' ∉ text := by
  intro hnul
  obtain ⟨before, after, hsplit, hbefore⟩ := List.eq_append_cons_of_mem hnul
  have hfind := Text.Utf8.findIdx?_zero_append hbefore after
  rw [← hsplit] at hfind
  simp [strdup, hfind] at hcopy

/-- A run of single bytes with a zero cell after it is copied as a text with these bytes is. -/
theorem allocSlice_eq_strdup (htext : '\x00' ∉ text)
    (hsize : (Text.Utf8.encode text).length + 1 < 2 ^ 64) :
    allocSlice system (cells 1 (Text.Utf8.encode text).length (Text.Utf8.encode text)) true h =
      strdup system text h := by
  have hmax : max (((Text.Utf8.encode text).length + true.toNat) * 1) 1 =
      (Text.Utf8.encode text).length + 1 := by
    rw [Bool.toNat_true, Nat.mul_one]
    exact Nat.max_eq_left (Nat.le_add_left _ _)
  have hslice : (sliceSize 1 (Text.Utf8.encode text).length true).toNat =
      (Text.Utf8.encode text).length + 1 := by
    rw [toNat_sliceSize (by rwa [hmax]), hmax]
  have hzero : encode (0 : Cell 1) = [0] := rfl
  simp only [allocSlice, strdup, length_cells, hslice, hzero, Nat.mul_one, ↓reduceIte,
    encodeAll_cells (Nat.mul_one _).symm, Text.Utf8.findIdx?_zero_eq_none htext]

/-- A text is refused, and nothing is allocated, exactly if it has a zero character; the error gives
the place of the first one among the bytes of the text. Any other text is copied if there is room,
whatever the room holds: a block is added that is its bytes and a zero byte, and just these have been
written, to the addresses of the block. The length of the C string is the number of the bytes, and it
reads as the text; from the address of any of its characters, and of its end, it reads as the rest of
the text. A copy of the bytes as a run of cells with a zero cell after it is the same. -/
theorem cString_round_trip (system : System) (h : Heap) (s : String) :
    (∀ k, (strdup system s.toList h).1 = .error (.interiorNul k) ↔
      ∃ before after, s.toList = before ++ '\x00' :: after ∧ '\x00' ∉ before ∧
        k = (Text.Utf8.encode before).length) ∧
    (∀ k, (strdup system s.toList h).1 = .error (.interiorNul k) →
      (strdup system s.toList h).2 = h) ∧
    ('\x00' ∉ s.toList →
      ∀ room, system h ((Text.Utf8.encode s.toList).length + 1) = some room →
        ∃ h', strdup system s.toList h = (.ok room.base, h') ∧
          h'.blocks = ⟨room.base, Text.Utf8.encode s.toList ++ [0]⟩ :: h.blocks ∧
          h'.written = h.written ++ (Text.Utf8.encode s.toList ++ [0]).zipIdx room.base ∧
          h'.bytesAt? room.base = some (Text.Utf8.encode s.toList ++ [0]) ∧
          strlen? (h'.bytesFrom room.base) = some (Text.Utf8.encode s.toList).length ∧
          readCString? (h'.bytesFrom room.base) = some s ∧
          (∀ before after, s.toList = before ++ after →
            readCString? (h'.bytesFrom (room.base + (Text.Utf8.encode before).length)) =
              some (String.ofList after)) ∧
          allocSlice system (cells 1 (Text.Utf8.encode s.toList).length
            (Text.Utf8.encode s.toList)) true h = (.ok room.base, h')) := by
  refine ⟨fun k ↦ ?_, fun k hrefused ↦ strdup_refused hrefused, fun htext room hroom ↦ ?_⟩
  · rw [strdup_eq_interiorNul_iff, Text.Utf8.findIdx?_zero_eq_some_iff]
  · obtain ⟨h', hcopy⟩ := exists_strdup_of_room hroom htext
    obtain ⟨-, hblocks, hwritten⟩ := of_strdup hcopy
    have hwhole : h'.bytesFrom room.base = Text.Utf8.encode s.toList ++ [0] :=
      bytesFrom_strdup hcopy [] s.toList rfl
    refine ⟨h', hcopy, hblocks, hwritten, bytesAt?_of_blocks hblocks, ?_, ?_,
      fun before after hsplit ↦ ?_, ?_⟩
    · rw [hwhole, strlen?_encode htext]
    · rw [hwhole, readCString?_encode htext, String.ofList_toList]
    · have hafter : '\x00' ∉ after := by
        intro hmem
        exact htext (hsplit ▸ List.mem_append_right before hmem)
      rw [bytesFrom_strdup hcopy before after hsplit, readCString?_encode hafter]
    · rw [allocSlice_eq_strdup htext room.size_lt, hcopy]

/-- A system whose free places are full of the byte 0xAA. -/
def littered : System := fun h size ↦
  (ascending h size).map fun room ↦
    { room with fresh := List.replicate size 0xAA, length_fresh := List.length_replicate }

/-- A text of characters of one, three and four bytes, copied to where there are no zeros and read
from its last character on, and a text whose third character is the zero character. -/
theorem cString_round_trip_wide :
    '\x00' ∉ "h€😀".toList ∧
    (∃ room h', littered empty ((Text.Utf8.encode "h€😀".toList).length + 1) = some room ∧
      0 ∉ room.fresh ∧ strdup littered "h€😀".toList empty = (.ok room.base, h') ∧
      h'.bytesAt? room.base = some [0x68, 0xE2, 0x82, 0xAC, 0xF0, 0x9F, 0x98, 0x80, 0] ∧
      readCString? (h'.bytesFrom (room.base + 4)) = some "😀") ∧
    (strdup littered "é\x00c".toList empty).1 = .error (.interiorNul 2) := by
  obtain ⟨-, -, hcopied⟩ := cString_round_trip littered empty "h€😀"
  obtain ⟨hrefused, -, -⟩ := cString_round_trip littered empty "é\x00c"
  have htext : '\x00' ∉ "h€😀".toList := by decide
  obtain ⟨h', hcopy, -, -, hbytes, -, -, hread, -⟩ := hcopied htext _ rfl
  exact ⟨htext, ⟨_, h', rfl, by decide, hcopy, hbytes.trans (by decide),
      hread ['h', '€'] ['😀'] (by decide)⟩,
    (hrefused 2).mpr ⟨['é'], ['c'], by decide, by decide, by decide⟩⟩

end Heap

end ForeignCall.Memory
