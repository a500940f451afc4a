import ForeignCall.Proofs.Assignment.Sound
import ForeignCall.Proofs.Run

/-!
# Runs as joins

A move never takes bits away, it only adds its own. What a run leaves in a word is therefore the
word before, joined with the bits of all moves onto it, in whatever order they come and however
often they are run. Compiled moves do not even share a word: on an image of zeros they could as
well replace what they find.
-/

namespace ForeignCall

/-- The bits of all words of a list. -/
def joined (words : List Word) : Word := words.foldr (· ||| ·) 0

/-- A bit is in the join exactly if it is in one of the words. -/
theorem getLsbD_joined (words : List Word) (j : Nat) :
    (joined words).getLsbD j = words.any (·.getLsbD j) := by
  induction words with
  | nil => simp [joined]
  | cons word rest ih =>
    rw [List.any_cons, ← ih]
    exact BitVec.getLsbD_or

/-- The order of the words does not matter. -/
theorem joined_eq_of_perm {words others : List Word} (h : words.Perm others) :
    joined words = joined others := by
  apply BitVec.eq_of_getLsbD_eq
  intro j _
  rw [getLsbD_joined, getLsbD_joined]
  exact h.any_eq

/-- Adding words one after the other adds their join. -/
theorem foldl_or_eq_or_joined (word : Word) (words : List Word) :
    words.foldl (· ||| ·) word = word ||| joined words := by
  induction words generalizing word with
  | nil => simp [joined]
  | cons next rest ih =>
    rw [List.foldl_cons, ih, BitVec.or_assoc]
    rfl

/-- The word of an image under its number: words of the general file come first, and those of the
floating-point file go on from sixteen. -/
def Image.slot (image : Image) (d : Fin 24) : Word :=
  if h : d.val < 16 then image.general ⟨d.val, h⟩ else image.float ⟨d.val - 16, by omega⟩

/-- The number of a word is its place in the image. -/
theorem Image.slot_eq_getElem (image : Image) (d : Fin 24) :
    image.slot d = getElem image d.val d.isLt := by
  unfold slot
  split
  · rfl
  · next h =>
    unfold float
    congr 1
    exact Nat.add_sub_cancel' (Nat.not_lt.mp h)

/-- Images with the same words are equal. -/
theorem Image.ext_slot {image other : Image} (h : ∀ d, image.slot d = other.slot d) :
    image = other := by
  apply Vector.ext
  intro i hi
  have hslot := h ⟨i, hi⟩
  rwa [Image.slot_eq_getElem, Image.slot_eq_getElem] at hslot

namespace Move

variable {moves others : List Move}

/-- The bits that moves add to a word of the image. -/
def bitsOnto (moves : List Move) (slots : Slots) (d : Fin 24) : Word :=
  joined ((moves.filter (·.dest = d)).map (·.value slots))

/-- A word after a run is the word before, joined with the bits of the moves onto it. -/
theorem slot_run (moves : List Move) (slots : Slots) (image : Image) (d : Fin 24) :
    (run moves slots image).slot d = image.slot d ||| bitsOnto moves slots d := by
  have hfilter : moves.filter (·.dest.val = d.val) = moves.filter (·.dest = d) := by
    simp only [Fin.ext_iff]
  rw [Image.slot_eq_getElem, Image.slot_eq_getElem, getElem_run, hfilter, bitsOnto,
    ← foldl_or_eq_or_joined, List.foldl_map]

/-- The order of the moves does not matter. -/
theorem run_eq_of_perm (h : others.Perm moves) (slots : Slots) (image : Image) :
    run others slots image = run moves slots image := by
  apply Image.ext_slot
  intro d
  rw [slot_run, slot_run, bitsOnto, bitsOnto, joined_eq_of_perm ((h.filter _).map _)]

/-- A second run adds nothing. -/
theorem run_run_self (moves : List Move) (slots : Slots) (image : Image) :
    run moves slots (run moves slots image) = run moves slots image := by
  apply Image.ext_slot
  intro d
  rw [slot_run, slot_run, BitVec.or_assoc, BitVec.or_self]

/-! ### Replacing instead of adding -/

/-- Puts the bits of a move in place of what its destination holds. -/
def replace (m : Move) (slots : Slots) (image : Image) : Image :=
  Vector.ofFn fun d => if d = m.dest then m.value slots else image.slot d

/-- Runs moves in order, each in place of what its destination holds. -/
def runReplacing (moves : List Move) (slots : Slots) (image : Image) : Image :=
  moves.foldl (fun image m => m.replace slots image) image

/-- A replacing move sets its destination and changes no other word. -/
theorem slot_replace (m : Move) (slots : Slots) (image : Image) (d : Fin 24) :
    (m.replace slots image).slot d = if d = m.dest then m.value slots else image.slot d := by
  rw [Image.slot_eq_getElem, replace, Vector.getElem_ofFn]

/-- Onto a word of zeros a move adds what it would put there. -/
theorem apply_eq_replace {m : Move} {image : Image} (h : image.slot m.dest = 0#64) (slots : Slots) :
    m.apply slots image = m.replace slots image := by
  apply Image.ext_slot
  intro d
  rw [slot_replace, Image.slot_eq_getElem, getElem_apply, ← Image.slot_eq_getElem]
  by_cases hd : d = m.dest
  · rw [hd, if_pos rfl, if_pos rfl, h, BitVec.zero_or]
  · rw [if_neg fun he ↦ hd (Fin.ext he).symm, if_neg hd]

/-- Moves to different words that are all zero add what they would put there. -/
theorem runReplacing_eq_run (hd : (moves.map Move.dest).Nodup) {image : Image}
    (hz : ∀ m ∈ moves, image.slot m.dest = 0#64) (slots : Slots) :
    runReplacing moves slots image = run moves slots image := by
  induction moves generalizing image with
  | nil => rw [runReplacing, run, List.foldl_nil, List.foldl_nil]
  | cons m rest ih =>
    rw [List.map_cons, List.nodup_cons] at hd
    rw [List.forall_mem_cons] at hz
    -- The first move leaves the words of the others at zero, for it does not go to any of them.
    have hrest : ∀ n ∈ rest, (m.replace slots image).slot n.dest = 0#64 := by
      intro n hn
      have hne : n.dest ≠ m.dest := fun he ↦ hd.1 (he ▸ List.mem_map_of_mem hn)
      rw [slot_replace, if_neg hne, hz.2 n hn]
    have hrun := ih hd.2 hrest
    rw [← apply_eq_replace hz.1] at hrun
    rw [runReplacing, List.foldl_cons, ← apply_eq_replace hz.1]
    exact hrun

/-- The moves of a compiled prototype could replace what they find in an image of zeros. -/
theorem runReplacing_of_compile {a : Allocator} {p : Prototype} {inv : Invoker}
    (h : a.compile p = .ok inv) (slots : Slots) :
    runReplacing inv.moves slots .zero = run inv.moves slots .zero := by
  obtain ⟨d, hd, rfl⟩ := Draft.Sound.of_compile h
  refine runReplacing_eq_run hd.distinct (fun m _ ↦ ?_) slots
  rw [Image.slot_eq_getElem, Image.getElem_zero]

/-- Running moves adds bits and nothing else. Each word holds what it held before, joined with
what each move onto it cuts out of its slot; a word that no move names is unchanged. Neither the
order of the moves nor running them again changes the image. The moves of a compiled prototype,
run on an image of zeros, give the same image if each replaces what it finds. -/
theorem run_accumulates (moves : List Move) (slots : Slots) (image : Image) :
    (∀ d, (run moves slots image).slot d =
      image.slot d ||| joined ((moves.filter (·.dest = d)).map fun m ↦
        ((slots.get m.source >>> m.shiftDown.val) &&& m.mask) <<< m.shiftUp.val)) ∧
    (∀ d, (∀ m ∈ moves, m.dest ≠ d) → (run moves slots image).slot d = image.slot d) ∧
    (∀ others : List Move, others.Perm moves →
      run others slots image = run moves slots image) ∧
    run moves slots (run moves slots image) = run moves slots image ∧
    ∀ (a : Allocator) (p : Prototype) (inv : Invoker), a.compile p = .ok inv →
      runReplacing inv.moves slots .zero = run inv.moves slots .zero := by
  refine ⟨slot_run moves slots image, ?_, ?_, run_run_self moves slots image, ?_⟩
  · intro d hne
    rw [Image.slot_eq_getElem, Image.slot_eq_getElem]
    exact getElem_run_of_forall_ne (fun m hm he ↦ hne m hm (Fin.ext he)) slots image d.isLt
  · intro others h
    exact run_eq_of_perm h slots image
  · intro a p inv h
    exact runReplacing_of_compile h slots

/-- Of two moves onto the first general word and one onto a floating-point word, the first word
collects the bits of both in either order and keeps the bit it had. The words of a variadic call
through the positional registers are as good replaced. -/
theorem run_accumulates_colliding :
    ∃ colliding : List Move,
      colliding = [⟨0, 8, 0xFF, 0, 0⟩, ⟨1, 0, 0xF, 60, 0⟩, .whole 2 17] ∧
      (run colliding (.ofList [0x1234, 0x5A, 7]) (.ofList [1])).slot 0 = 0xA000000000000013 ∧
      (∀ m ∈ colliding, m.dest ≠ 16) ∧
      (run colliding (.ofList [0x1234, 0x5A, 7]) (.ofList [1])).slot 16 = 0 ∧
      run colliding.reverse (.ofList [0x1234, 0x5A, 7]) (.ofList [1]) =
        run colliding (.ofList [0x1234, 0x5A, 7]) (.ofList [1]) ∧
      ∃ inv, Allocator.x64Windows.compile ⟨.i32, [.f64, .u8, .f32], some 2, by decide⟩ = .ok inv ∧
        runReplacing inv.moves (.ofList [0x1234, 0x5A, 7]) .zero =
          run inv.moves (.ofList [0x1234, 0x5A, 7]) .zero := by
  obtain ⟨hslot, hother, hperm, -, hcompiled⟩ :=
    run_accumulates [⟨0, 8, 0xFF, 0, 0⟩, ⟨1, 0, 0xF, 60, 0⟩, .whole 2 17]
      (.ofList [0x1234, 0x5A, 7]) (.ofList [1])
  refine ⟨_, rfl, (hslot 0).trans (by decide), by decide, ?_, hperm _ (List.reverse_perm _), _,
    rfl, hcompiled .x64Windows ⟨.i32, [.f64, .u8, .f32], some 2, by decide⟩ _ rfl⟩
  exact (hother 16 (by decide)).trans (by decide)

end Move

end ForeignCall
