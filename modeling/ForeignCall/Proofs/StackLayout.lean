import ForeignCall.Proofs.Image
import Mathlib.Algebra.Group.Nat.Defs

/-!
# Stack layout with 32-bit words

Under the two conventions with 32-bit words no argument has a register. The general file of the
image is the stack: the words of the arguments one after the other, two for an eight-byte value in
the byte order of the allocator and one for any other, then zeros. The stack words counted in the
invoker are as many as the callee finds arguments in, so a callee that removes its arguments from
the stack removes exactly these.
-/

namespace ForeignCall

/-! ### Words of an argument -/

/-- The low half of a container, in a container of its own. -/
def lowHalf (word : Word) : Word := (word.setWidth 32).setWidth 64

/-- The high half of a container, in a container of its own. -/
def highHalf (word : Word) : Word := lowHalf (word >>> 32)

/-- The 32-bit words an argument is passed in: both halves of an eight-byte value in the byte
order, the low half of the canonical container of any other. -/
def Scalar.stackWords (order : ByteOrder) (t : Scalar) (raw : Word) : List Word :=
  if t.bytes = 8 then
    match order with
    | .little => [lowHalf (t.canonical raw), highHalf (t.canonical raw)]
    | .big => [highHalf (t.canonical raw), lowHalf (t.canonical raw)]
  else [lowHalf (t.canonical raw)]

/-- The 32-bit words of all declared arguments, one argument after the other. -/
def Prototype.stackWords (order : ByteOrder) (p : Prototype) (slots : Slots) : List Word :=
  (List.zipWith (Scalar.stackWords order) p.args slots.toList).flatten

/-- The low half of a word is a 32-bit word. -/
theorem lowHalf_lt (word : Word) : (lowHalf word).toNat < 2 ^ 32 := by
  rw [lowHalf, BitVec.toNat_setWidth, BitVec.toNat_setWidth]
  omega

/-- Every word of an argument is a 32-bit word. -/
theorem Scalar.lt_of_mem_stackWords {order : ByteOrder} {t : Scalar} {raw word : Word}
    (h : word ∈ t.stackWords order raw) : word.toNat < 2 ^ 32 := by
  have hhalf : ∃ whole, word = lowHalf whole := by
    unfold stackWords at h
    split at h
    · cases order <;> simp only [List.mem_cons, List.not_mem_nil, or_false] at h
      · exact h.elim (⟨_, ·⟩) (⟨_, ·⟩)
      · exact h.elim (⟨_, ·⟩) (⟨_, ·⟩)
    · exact ⟨_, List.mem_singleton.mp h⟩
  obtain ⟨whole, rfl⟩ := hhalf
  exact lowHalf_lt whole

/-- Every word of a declared argument is a 32-bit word. -/
theorem Prototype.lt_of_mem_stackWords {order : ByteOrder} {p : Prototype} {slots : Slots}
    {word : Word} (h : word ∈ p.stackWords order slots) : word.toNat < 2 ^ 32 := by
  obtain ⟨words, hwords, hmem⟩ := List.mem_flatten.mp h
  obtain ⟨k, hk, rfl⟩ := List.mem_iff_getElem.mp hwords
  rw [List.getElem_zipWith] at hmem
  exact Scalar.lt_of_mem_stackWords hmem

/-- The mask of a 32-bit word leaves the low half. -/
theorem and_mask_w32 (word : Word) : word &&& WordSize.w32.mask = lowHalf word := by
  have hm : WordSize.w32.mask = (BitVec.allOnes 32).setWidth 64 := by decide
  apply BitVec.eq_of_getLsbD_eq
  intro j hj
  simp only [hm, lowHalf, BitVec.getLsbD_and, BitVec.getLsbD_setWidth, BitVec.getLsbD_allOnes, hj,
    decide_true, Bool.true_and]
  exact Bool.and_comm _ _

/-- The words of an argument are those that the shifts of an allocator cut out of it. -/
theorem Scalar.map_shifts_eq_stackWords {a : Allocator} (hw : a.wordSize = .w32) (t : Scalar)
    (raw : Word) : (a.shifts t).map (fun s ↦ (t.canonical raw >>> s.val) &&& a.wordSize.mask) =
      t.stackWords a.order raw := by
  have hlow : (t.canonical raw >>> (0 : Fin 64).val) &&& WordSize.w32.mask =
      lowHalf (t.canonical raw) := and_mask_w32 _
  have hhigh : (t.canonical raw >>> (32 : Fin 64).val) &&& WordSize.w32.mask =
      highHalf (t.canonical raw) := and_mask_w32 _
  have hsplit : a.splits t = true ↔ t.bytes = 8 := by
    rw [Allocator.splits_iff, hw]
    exact and_iff_right rfl
  simp only [Allocator.shifts, Scalar.stackWords, hsplit, hw]
  split
  · cases a.order <;> simp only [List.map_cons, List.map_nil, hlow, hhigh]
  · simp only [List.map_cons, List.map_nil, hlow]

/-! ### Moves onto consecutive stack words -/

/-- The words to be moved for numbered arguments, each by its slot and its shift. -/
def Allocator.cuts (a : Allocator) (args : List (Fin 16 × Scalar)) : List (Fin 16 × Fin 64) :=
  args.flatMap fun x ↦ (a.shifts x.2).map fun s ↦ (x.1, s)

/-- The invariant of a draft with 32-bit words. -/
structure Draft.Stacked (a : Allocator) (done : List (Fin 16 × Scalar)) (d : Draft) :
    Prop where
  moves : d.moves = (a.cuts done).mapIdx fun k c ↦ a.word c.1 c.2 (Allocator.place k)
  stack : d.cursor.stack = (a.cuts done).length
  fixedFloats : d.fixedFloats = 0

namespace Draft.Stacked

variable {a : Allocator} {p : Prototype} {done : List (Fin 16 × Scalar)} {d e : Draft}
  {x : Fin 16 × Scalar}

/-- The empty draft has nothing on the stack. -/
theorem start (a : Allocator) : Draft.Stacked a [] .start where
  moves := rfl
  stack := rfl
  fixedFloats := rfl

/-- With 32-bit words compiling one more argument puts its words onto the stack. -/
theorem assign (hw : a.wordSize = .w32) (h : d.Stacked a done) {isFixed : Bool}
    (hx : a.assign isFixed x.1 x.2 d = some e) : e.Stacked a (done ++ [x]) := by
  have hg := Allocator.generalCount_eq_zero hw
  have hf := Allocator.floatCount_eq_zero hw
  have hcuts : a.cuts (done ++ [x]) =
      a.cuts done ++ (a.shifts x.2).map fun s ↦ (x.1, s) := by
    simp [Allocator.cuts]
  rcases Allocator.assign_cases hx with ⟨-, hlt, -⟩ | ⟨-, -, hlt, -⟩ | ⟨-, -, -, rfl⟩
  · omega
  · omega
  · constructor
    case moves =>
      rw [hcuts, List.mapIdx_append, ← h.moves, ← h.stack]
      apply congrArg (d.moves ++ ·)
      apply List.ext_getElem?
      intro j
      simp only [Allocator.stackMoves, Allocator.stackStart_eq_zero hw, List.getElem?_mapIdx,
        List.getElem?_map, Option.map_map, Nat.zero_add, Nat.add_comm j]
      rfl
    case stack =>
      rw [hcuts, List.length_append, List.length_map, ← h.stack]
      rfl
    case fixedFloats => exact h.fixedFloats

/-- The draft of a prototype compiled with 32-bit words has its moves on the stack, besides being
sound. -/
theorem of_compile (hw : a.wordSize = .w32) {inv : Invoker} (h : a.compile p = .ok inv) :
    ∃ d, d.Sound a p (Allocator.numbered p.args) ∧ d.Stacked a (Allocator.numbered p.args) ∧
      inv = a.finish p d :=
  Draft.Sound.compile_induct (fun done d ↦ d.Stacked a done) (.start a)
    (fun _ _ _ _ _ _ _ hd hx ↦ hd.assign hw hx) h

end Draft.Stacked

namespace Allocator

variable {a : Allocator} {p : Prototype} {inv : Invoker}

private theorem map_numbered_eq_zipWith (hl : p.args.length ≤ 16) (slots : Slots)
    (words : Scalar → Word → List Word) :
    (numbered p.args).map (fun x ↦ words x.2 (getElem slots x.1.val x.1.isLt)) =
      List.zipWith words p.args slots.toList := by
  apply List.ext_getElem
  · rw [List.length_map, length_numbered hl, List.length_zipWith, Vector.length_toList,
      Nat.min_eq_left hl]
  · intro k hk hk'
    simp [numbered]

/-- The words that are moved are those of the arguments, in order. -/
theorem map_cuts_eq_stackWords (hw : a.wordSize = .w32) (hl : p.args.length ≤ 16) (slots : Slots) :
    (a.cuts (numbered p.args)).map (fun c ↦
      (getElem (slots.canonical p.args) c.1.val c.1.isLt >>> c.2.val) &&& a.wordSize.mask) =
      p.stackWords a.order slots := by
  rw [Prototype.stackWords, ← map_numbered_eq_zipWith hl, cuts, List.map_flatMap,
    List.flatMap_def]
  apply congrArg List.flatten
  apply List.map_congr_left
  intro x hx
  rw [List.map_map, ← Scalar.map_shifts_eq_stackWords hw]
  simp only [Function.comp_def, Slots.getElem_canonical, mem_numbered.mp hx]

/-- The number of stack words is that of the words of all arguments. -/
theorem stackWords_of_w32 (hw : a.wordSize = .w32) (h : a.compile p = .ok inv) (slots : Slots) :
    inv.stackWords = (p.stackWords a.order slots).length := by
  obtain ⟨d, -, hstack, rfl⟩ := Draft.Stacked.of_compile hw h
  rw [← map_cuts_eq_stackWords hw (compile_eq_ok_iff.mp h).1, List.length_map]
  exact hstack.stack

/-- With 32-bit words the general file holds the words of all arguments, then zeros. -/
theorem general_of_w32 (hw : a.wordSize = .w32) (h : a.compile p = .ok inv) (slots : Slots)
    (k : Fin 16) :
    (inv.assemble slots).general k = (p.stackWords a.order slots)[k.val]?.getD 0 := by
  obtain ⟨d, hd, hstack, rfl⟩ := Draft.Stacked.of_compile hw h
  change (Move.run d.moves (slots.canonical p.args) .zero)[k.val] = _
  rw [← map_cuts_eq_stackWords hw (compile_eq_ok_iff.mp h).1, List.getElem?_map]
  cases hc : (a.cuts (numbered p.args))[k.val]? with
  | some c =>
    have hm : a.word c.1 c.2 (place k.val) ∈ d.moves := by
      rw [hstack.moves]
      apply List.mem_of_getElem? (i := k.val)
      rw [List.getElem?_mapIdx, hc]
      rfl
    have hr := Move.getElem_run_of_mem hd.distinct hm (slots.canonical p.args) .zero
    rw [value_word, Image.getElem_zero, BitVec.zero_or] at hr
    have hk : (place k.val).val = k.val := val_place (by omega)
    simpa only [word, hk, Option.map_some, Option.getD_some] using hr
  | none =>
    have hlen := List.getElem?_eq_none_iff.mp hc
    have hfit := hd.stack_le
    rw [stackStart_eq_zero hw, hstack.stack] at hfit
    apply (Move.getElem_run_of_forall_ne ?_ _ _ _).trans (Image.getElem_zero _ _)
    intro m hm
    rw [hstack.moves] at hm
    obtain ⟨j, hj, rfl⟩ := List.mem_mapIdx.mp hm
    rw [word, val_place (by omega)]
    omega

/-- With 32-bit words the floating-point file holds zeros. -/
theorem float_of_w32 (hw : a.wordSize = .w32) (h : a.compile p = .ok inv) (slots : Slots)
    (k : Fin 8) : (inv.assemble slots).float k = 0 := by
  obtain ⟨d, hd, -, rfl⟩ := Draft.Stacked.of_compile hw h
  apply (Move.getElem_run_of_forall_ne ?_ _ _ _).trans (Image.getElem_zero _ _)
  intro m hm he
  have htaken := hd.taken m hm
  have hg := hd.general_le
  have hf := hd.float_le
  have hs := hd.stack_le
  rw [generalCount_eq_zero hw] at hg
  rw [floatCount_eq_zero hw] at hf
  unfold Cursor.Takes at htaken
  omega

/-- Under the 32-bit conventions a call finds the words of its arguments one after the other on
the stack and nothing else in the image, and the invoker counts these words. -/
theorem stack_image_by_argument {a : Allocator}
    (hc : a.convention = .x86Cdecl ∨ a.convention = .x86Stdcall) {p : Prototype} {inv : Invoker}
    (h : a.compile p = .ok inv) (slots : Slots) :
    (inv.assemble slots).generalFile = (p.stackWords a.order slots).rightpad 16 0 ∧
      (inv.assemble slots).floatFile = List.replicate 8 0 ∧ inv.fixedFloats = 0 ∧
      (∀ word ∈ (inv.assemble slots).generalFile, word.toNat < 2 ^ 32) ∧
      inv.stackWords = (p.stackWords a.order slots).length := by
  have hw := w32_of_x86 hc
  have hcount := stackWords_of_w32 hw h slots
  have hgeneral : (inv.assemble slots).generalFile =
      (p.stackWords a.order slots).rightpad 16 0 := by
    obtain ⟨d, hd, -, rfl⟩ := Draft.Stacked.of_compile hw h
    have hfit : a.stackStart + (a.finish p d).stackWords ≤ 16 := hd.stack_le
    exact ofFn_eq_rightpad (by omega) (general_of_w32 hw h slots)
  have hfloat : (inv.assemble slots).floatFile = ([] : List Word).rightpad 8 0 :=
    ofFn_eq_rightpad (Nat.zero_le 8) (float_of_w32 hw h slots)
  have hfixed : inv.fixedFloats = 0 := by
    obtain ⟨d, -, hstack, rfl⟩ := Draft.Stacked.of_compile hw h
    exact hstack.fixedFloats
  refine ⟨hgeneral, hfloat, hfixed, ?_, hcount⟩
  intro word hword
  rw [hgeneral, List.rightpad, List.mem_append] at hword
  rcases hword with hword | hword
  · exact Prototype.lt_of_mem_stackWords hword
  · rw [List.eq_of_mem_replicate hword]
    decide

/-- With the big byte order the high half of a double comes first, between a negative byte, which
fills its word, and an unsigned one. -/
theorem stack_image_big_endian :
    ∃ inv, Allocator.compile
      ⟨.x86Stdcall, .big, 0, 0, .registers, by decide, by decide, by decide⟩
      (.fixed .i32 [.i8, .f64, .u16]) = .ok inv ∧
      (inv.assemble (.ofList [0x1FF, 0x1122334455667788, 0xFFFF5])).generalFile =
        [0xFFFFFFFF, 0x11223344, 0x55667788, 0xFFF5, 0, 0, 0, 0, 0, 0, 0, 0, 0, 0, 0, 0] ∧
      inv.stackWords = 4 := by
  obtain ⟨hgeneral, -, -, -, hcount⟩ := stack_image_by_argument
    (a := ⟨.x86Stdcall, .big, 0, 0, .registers, by decide, by decide, by decide⟩)
    (p := .fixed .i32 [.i8, .f64, .u16]) (.inr rfl) rfl
    (.ofList [0x1FF, 0x1122334455667788, 0xFFFF5])
  exact ⟨_, rfl, hgeneral.trans (by decide), hcount.trans (by decide)⟩

end Allocator

end ForeignCall
