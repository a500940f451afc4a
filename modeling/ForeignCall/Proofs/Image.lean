import ForeignCall.Proofs.Assignment.Sound
import ForeignCall.Proofs.Canonical
import ForeignCall.Proofs.Run

/-!
# What an image says about the arguments

The image assembled for a call holds every native word of every declared argument in a place of
its own, and nothing else. Two lists of argument words therefore give the same image exactly if
the canonical words of all declared arguments agree: no bit of an argument is lost, and neither
what lies above its width nor a word beyond the declared ones shows.
-/

namespace ForeignCall

/-- The canonical word of a numbered argument; a missing word is zero. -/
def argumentWord (words : List Word) (x : Fin 16 × Scalar) : Word :=
  x.2.canonical (words[x.1.val]?.getD 0)

namespace Allocator

/-- The slot of a declared argument holds its canonical word. -/
theorem getElem_canonical_ofList {args : List Scalar} {x : Fin 16 × Scalar}
    (hx : x ∈ numbered args) (words : List Word) :
    getElem ((Slots.ofList words).canonical args) x.1.val x.1.isLt = argumentWord words x := by
  rw [Slots.getElem_canonical, mem_numbered.mp hx, Slots.getElem_ofList]
  rfl

/-- The bits of a native word: what its shift and the word size leave of the slot. -/
theorem value_word (a : Allocator) (source : Fin 16) (s : Fin 64) (dest : Fin 24)
    (slots : Slots) :
    (a.word source s dest).value slots =
      (getElem slots source.val source.isLt >>> s.val) &&& a.wordSize.mask := by
  simp [word, Move.value]

/-- The place that a native word of a declared argument is moved to holds that word. -/
theorem getElem_assemble_word {a : Allocator} {p : Prototype} {d : Draft}
    (hd : d.Sound a p (numbered p.args)) {x : Fin 16 × Scalar} (hx : x ∈ numbered p.args)
    {s : Fin 64} {dest : Fin 24} (hm : a.word x.1 s dest ∈ d.moves) (words : List Word) :
    getElem ((a.finish p d).assemble (.ofList words)) dest.val dest.isLt =
      (argumentWord words x >>> s.val) &&& a.wordSize.mask := by
  have hr := Move.getElem_run_of_mem hd.distinct hm ((Slots.ofList words).canonical p.args) .zero
  rw [value_word, Image.getElem_zero, BitVec.zero_or, getElem_canonical_ofList hx] at hr
  exact hr

/-- With 64-bit words the place that a declared argument is moved to holds its canonical word. -/
theorem getElem_assemble_of_w64 {a : Allocator} {p : Prototype} {d : Draft}
    (hd : d.Sound a p (numbered p.args)) (hw : a.wordSize = .w64) {x : Fin 16 × Scalar}
    (hx : x ∈ numbered p.args) {k : Nat} (hk : k < 24) (hm : a.word x.1 0 (place k) ∈ d.moves)
    (words : List Word) :
    ((a.finish p d).assemble (.ofList words))[k] = argumentWord words x := by
  have hr := getElem_assemble_word hd hx hm words
  simpa only [val_place hk, hw, WordSize.mask, Fin.val_zero, BitVec.ushiftRight_zero,
    BitVec.and_allOnes] using hr

/-- A place that nothing is moved to holds zero. -/
theorem getElem_assemble_of_forall_ne {a : Allocator} {p : Prototype} {d : Draft} {k : Nat}
    (hk : k < 24) (hne : ∀ m ∈ d.moves, m.dest.val ≠ k) (words : List Word) :
    ((a.finish p d).assemble (.ofList words))[k] = 0#64 := by
  have hr := Move.getElem_run_of_forall_ne hne ((Slots.ofList words).canonical p.args) .zero hk
  rw [Image.getElem_zero] at hr
  exact hr

/-- Each native word of a declared argument has a place in the image. -/
theorem exists_place_of_word {a : Allocator} {p : Prototype} {inv : Invoker}
    (h : a.compile p = .ok inv) {x : Fin 16 × Scalar} (hx : x ∈ numbered p.args) {s : Fin 64}
    (hs : s ∈ a.shifts x.2) : ∃ dest : Fin 24, ∀ words : List Word,
      getElem (inv.assemble (.ofList words)) dest.val dest.isLt =
        (argumentWord words x >>> s.val) &&& a.wordSize.mask := by
  obtain ⟨d, hd, rfl⟩ := Draft.Sound.of_compile h
  obtain ⟨dest, hm⟩ := hd.carried x hx s hs
  exact ⟨dest, getElem_assemble_word hd hx hm⟩

/-- The image depends on the canonical words of the declared arguments alone. -/
theorem assemble_congr {a : Allocator} {p : Prototype} {inv : Invoker}
    (h : a.compile p = .ok inv) {xs ys : List Word}
    (hw : ∀ x ∈ numbered p.args, argumentWord xs x = argumentWord ys x) :
    inv.assemble (.ofList xs) = inv.assemble (.ofList ys) := by
  obtain ⟨d, hd, rfl⟩ := Draft.Sound.of_compile h
  apply Move.run_congr
  intro m hm
  obtain ⟨x, hx, s, -, hword⟩ := hd.declared m hm
  rw [hword, value_word, value_word]
  change (getElem ((Slots.ofList xs).canonical p.args) x.1.val x.1.isLt >>> s.val) &&& _ =
    (getElem ((Slots.ofList ys).canonical p.args) x.1.val x.1.isLt >>> s.val) &&& _
  rw [getElem_canonical_ofList hx, getElem_canonical_ofList hx, hw x hx]

/-! ### Native words determine a value -/

private theorem eq_of_w64_word {x y : Word}
    (h : (x >>> (0 : Fin 64).val) &&& WordSize.w64.mask =
      (y >>> (0 : Fin 64).val) &&& WordSize.w64.mask) : x = y := by
  simpa only [WordSize.mask, Fin.val_zero, BitVec.ushiftRight_zero, BitVec.and_allOnes] using h

private theorem getLsbD_of_w32_word {x y : Word} {s : Nat}
    (h : (x >>> s) &&& WordSize.w32.mask = (y >>> s) &&& WordSize.w32.mask) {j : Nat}
    (hj : j < 32) : x.getLsbD (s + j) = y.getLsbD (s + j) := by
  have hm : WordSize.w32.mask = (BitVec.allOnes 32).setWidth 64 := by decide
  have hbit := congrArg (fun w : Word ↦ w.getLsbD j) h
  simpa only [hm, BitVec.getLsbD_and, BitVec.getLsbD_ushiftRight, BitVec.getLsbD_setWidth,
    BitVec.getLsbD_allOnes, hj, show j < 64 by omega, decide_true, Bool.and_self,
    Bool.and_true] using hbit

private theorem bits_le_of_not_splits {a : Allocator} {t : Scalar} (hw : a.wordSize = .w32)
    (h : a.splits t = false) : t.bits ≤ 32 := by
  cases t <;> simp_all [splits, Scalar.bytes, Scalar.bits]

/-- Canonical words with the same native words are equal. -/
theorem canonical_eq_of_words (a : Allocator) (t : Scalar) (x y : Word)
    (h : ∀ s ∈ a.shifts t, (t.canonical x >>> s.val) &&& a.wordSize.mask =
      (t.canonical y >>> s.val) &&& a.wordSize.mask) : t.canonical x = t.canonical y := by
  cases hw : a.wordSize with
  | w64 =>
    have h0 := h 0 (by simp [shifts_of_w64 hw])
    rw [hw] at h0
    exact eq_of_w64_word h0
  | w32 =>
    rw [hw] at h
    cases hs : a.splits t with
    | true =>
      have h0 : (0 : Fin 64) ∈ a.shifts t := by cases ho : a.order <;> simp [shifts, hs, ho]
      have h32 : (32 : Fin 64) ∈ a.shifts t := by cases ho : a.order <;> simp [shifts, hs, ho]
      apply BitVec.eq_of_getLsbD_eq
      intro j hj
      by_cases hlow : j < 32
      · have hbit := getLsbD_of_w32_word (h 0 h0) hlow
        simpa only [Fin.val_zero, Nat.zero_add] using hbit
      · have hbit := getLsbD_of_w32_word (h 32 h32) (show j - 32 < 32 by omega)
        have hsum : ((32 : Fin 64) : Nat) + (j - 32) = j := by
          change 32 + (j - 32) = j
          omega
        rwa [hsum] at hbit
    | false =>
      have hb := bits_le_of_not_splits hw hs
      have h0 : (0 : Fin 64) ∈ a.shifts t := by simp [shifts, hs]
      rw [Scalar.canonical_eq_iff]
      intro j hj
      have hbit := getLsbD_of_w32_word (h 0 h0) (show j < 32 by omega)
      simpa only [Fin.val_zero, Nat.zero_add, Scalar.getLsbD_canonical t _ j (by omega), hj,
        ite_true] using hbit

/-- Equal images come from equal canonical words. -/
theorem argumentWord_eq_of_assemble_eq {a : Allocator} {p : Prototype} {inv : Invoker}
    (h : a.compile p = .ok inv) {xs ys : List Word}
    (himage : inv.assemble (.ofList xs) = inv.assemble (.ofList ys)) {x : Fin 16 × Scalar}
    (hx : x ∈ numbered p.args) : argumentWord xs x = argumentWord ys x := by
  apply canonical_eq_of_words a
  intro s hs
  obtain ⟨dest, hdest⟩ := exists_place_of_word h hx hs
  have hxs := hdest xs
  rw [himage, hdest ys] at hxs
  exact hxs.symm

/-- What holds of every numbered argument holds of every declared one. -/
theorem forall_numbered_iff {p : Prototype} (hl : p.args.length ≤ 16) (xs ys : List Word) :
    (∀ x ∈ numbered p.args, argumentWord xs x = argumentWord ys x) ↔
      ∀ (i : Nat) (t : Scalar), p.args[i]? = some t →
        t.canonical (xs[i]?.getD 0) = t.canonical (ys[i]?.getD 0) := by
  constructor
  · intro h i t ht
    obtain ⟨hi, hmem⟩ := mem_numbered_of_getElem? hl ht
    exact h (⟨i, hi⟩, t) hmem
  · intro h x hx
    exact h x.1.val x.2 (mem_numbered.mp hx)

/-- Two lists of argument words give the same image exactly if the canonical words of every
declared argument agree. -/
theorem assemble_eq_iff {a : Allocator} {p : Prototype} {inv : Invoker}
    (h : a.compile p = .ok inv) (xs ys : List Word) :
    inv.assemble (.ofList xs) = inv.assemble (.ofList ys) ↔
      ∀ (i : Nat) (t : Scalar), p.args[i]? = some t →
        t.canonical (xs[i]?.getD 0) = t.canonical (ys[i]?.getD 0) := by
  rw [← forall_numbered_iff (compile_eq_ok_iff.mp h).1]
  exact ⟨fun himage _ hx ↦ argumentWord_eq_of_assemble_eq h himage hx, assemble_congr h⟩

/-- With 32-bit words and the big byte order, bits above the width of an argument and a third word
for two arguments do not show, and a bit of the high half of a float does. -/
theorem assemble_eq_iff_split :
    ∃ inv, Allocator.compile
      ⟨.x86Cdecl, .big, 0, 0, .registers, by decide, by decide, by decide⟩
      (.fixed .i32 [.i8, .f64]) = .ok inv ∧
      inv.assemble (.ofList [0x1FF, 5, 7]) = inv.assemble (.ofList [0xFF, 5]) ∧
      inv.assemble (.ofList [0xFF, 0x100000005]) ≠ inv.assemble (.ofList [0xFF, 5]) := by
  have h := assemble_eq_iff
    (a := ⟨.x86Cdecl, .big, 0, 0, .registers, by decide, by decide, by decide⟩)
    (p := .fixed .i32 [.i8, .f64]) rfl
  refine ⟨_, rfl, (h _ _).mpr ?_, fun himage ↦ ?_⟩
  · intro i t ht
    match i, ht with
    | 0, rfl => decide
    | 1, rfl => decide
    | _ + 2, ht => cases ht
  · exact absurd ((h _ _).mp himage 1 .f64 rfl) (by decide)

end Allocator

end ForeignCall
