import ForeignCall.Proofs.Assignment.Sound
import Mathlib.Algebra.Group.Nat.Defs

/-!
# Well-formed move lists

The shape of a compiled invoker, whatever the allocator and the prototype. Its moves follow the
arguments they read, with one move for each word of an argument and one more for the copy that a
float gets where registers go by position. They fill the stack words one after the other, and each
of the other places is a register the allocator may use.
-/

namespace ForeignCall

namespace Allocator

/-- How often an argument is moved by a list of moves that places it: twice if its words are split
or if it is in a floating-point register and has a copy beside, otherwise once. -/
def moveCount (a : Allocator) (moves : List Move) (i : Nat) (t : Scalar) : Nat :=
  if (a.wordSize = .w32 ∧ t.bytes = 8) ∨ (a.policy = .shadowGeneral ∧ t.isFloat = true ∧
      ∃ m ∈ moves, m.source.val = i ∧ 16 ≤ m.dest.val) then 2
  else 1

/-- The stack words among the places of moves, in the order of the moves. -/
def stackPlaces (a : Allocator) (moves : List Move) : List Nat :=
  (moves.map (·.dest.val)).filter fun k ↦ a.stackStart ≤ k && k < 16

end Allocator

/-- The shape of an invoker that an allocator compiles from a prototype. -/
structure Invoker.WellFormed (a : Allocator) (p : Prototype) (inv : Invoker) : Prop where
  /-- Moves follow the arguments they read. -/
  source_le : (inv.moves.map Move.source).Pairwise (· ≤ ·)
  /-- Only declared arguments are read. -/
  source_lt : ∀ m ∈ inv.moves, m.source.val < p.args.length
  /-- Every declared argument is read, and exactly as often as it has places. -/
  count_source : ∀ (i : Nat) (t : Scalar), p.args[i]? = some t →
    inv.moves.countP (·.source.val = i) = a.moveCount inv.moves i t
  /-- A place is an integer register, a stack word in use or a floating-point register. -/
  dest_mem : ∀ m ∈ inv.moves, m.dest.val < a.generalCount ∨
    (a.stackStart ≤ m.dest.val ∧ m.dest.val < a.stackStart + inv.stackWords) ∨
    (16 ≤ m.dest.val ∧ m.dest.val < 16 + a.floatCount)
  /-- No place is filled twice. -/
  dest_nodup : (inv.moves.map Move.dest).Nodup
  /-- The stack words in use are filled one after the other. -/
  stackPlaces_eq : a.stackPlaces inv.moves = List.range' a.stackStart inv.stackWords
  /-- The stack words in use are within the general file. -/
  stack_le : a.stackStart + inv.stackWords ≤ 16
  /-- Nothing is shifted up. -/
  shiftUp_eq : ∀ m ∈ inv.moves, m.shiftUp = 0
  /-- A word is cut at a half of the container. -/
  shiftDown_eq : ∀ m ∈ inv.moves, m.shiftDown = 0 ∨ m.shiftDown = 32
  /-- The mask names the floating-point registers of arguments outside the variadic part. -/
  fixedFloats_iff : ∀ j : Nat, inv.fixedFloats.getLsbD j = true ↔
    ∃ m ∈ inv.moves, m.dest.val = 16 + j ∧ p.isVariadicAt m.source.val = false
  /-- The mask names registers that the allocator may use, and has a bit for each of them. -/
  fixedFloats_lt : inv.fixedFloats.toNat < 2 ^ a.floatCount ∧ a.floatCount ≤ 8

namespace Allocator

variable {a : Allocator}

/-- The places on the stack of two runs of moves are those of the one and of the other. -/
theorem stackPlaces_append (a : Allocator) (ms ns : List Move) :
    a.stackPlaces (ms ++ ns) = a.stackPlaces ms ++ a.stackPlaces ns := by
  simp only [stackPlaces, List.map_append, List.filter_append]

/-- Moves that read other arguments do not change how often an argument is moved. -/
theorem moveCount_append_left {ms ns : List Move} {i : Nat} (h : ∀ m ∈ ns, m.source.val ≠ i)
    (t : Scalar) : a.moveCount (ms ++ ns) i t = a.moveCount ms i t := by
  have hns : ¬∃ m ∈ ns, m.source.val = i ∧ 16 ≤ m.dest.val := fun ⟨m, hm, hi, _⟩ ↦ h m hm hi
  simp only [moveCount, List.mem_append, or_and_right, exists_or, hns, or_false]

/-- Moves that read other arguments do not change how often an argument is moved. -/
theorem moveCount_append_right {ms ns : List Move} {i : Nat} (h : ∀ m ∈ ms, m.source.val ≠ i)
    (t : Scalar) : a.moveCount (ms ++ ns) i t = a.moveCount ns i t := by
  have hms : ¬∃ m ∈ ms, m.source.val = i ∧ 16 ≤ m.dest.val := fun ⟨m, hm, hi, _⟩ ↦ h m hm hi
  simp only [moveCount, List.mem_append, or_and_right, exists_or, hms, false_or]

end Allocator

/-- The invariant of a draft whose moves follow the arguments. -/
structure Draft.InOrder (a : Allocator) (done : List (Fin 16 × Scalar)) (d : Draft) :
    Prop where
  sorted : (d.moves.map Move.source).Pairwise (· ≤ ·)
  source_lt : ∀ m ∈ d.moves, m.source.val < done.length
  count : ∀ x ∈ done, d.moves.countP (·.source.val = x.1.val) =
    a.moveCount d.moves x.1.val x.2
  stack : a.stackPlaces d.moves = List.range' a.stackStart d.cursor.stack

namespace Draft.InOrder

variable {a : Allocator} {p : Prototype} {done : List (Fin 16 × Scalar)} {d e : Draft}
  {x : Fin 16 × Scalar}

/-- The empty draft has no moves. -/
theorem start (a : Allocator) : Draft.InOrder a [] .start where
  sorted := .nil
  source_lt := by simp [Draft.start]
  count := by simp
  stack := rfl

/-- The moves stay in order when those of one more argument follow them. -/
theorem extend (h : d.InOrder a done) (hn : x.1.val = done.length)
    (hlt : ∀ y ∈ done, y.1.val < done.length) {c : Cursor} {new : List Move}
    {fixedFloats : BitVec 8} {k : Nat} (source : ∀ m ∈ new, m.source = x.1)
    (count : new.length = a.moveCount new x.1.val x.2)
    (stackPlaces : a.stackPlaces new = List.range' (a.stackStart + d.cursor.stack) k)
    (stack : c.stack = d.cursor.stack + k) :
    Draft.InOrder a (done ++ [x]) ⟨c, d.moves ++ new, fixedFloats⟩ where
  sorted := by
    rw [List.map_append, List.pairwise_append]
    refine ⟨h.sorted, ?_, ?_⟩
    · rw [List.pairwise_map, List.pairwise_iff_getElem]
      intro i j hi hj _
      have hsource := source _ (List.getElem_mem hi)
      exact Fin.le_of_eq (hsource.trans (source _ (List.getElem_mem hj)).symm)
    · intro i hi j hj
      obtain ⟨m, hm, rfl⟩ := List.mem_map.mp hi
      obtain ⟨n, hn', rfl⟩ := List.mem_map.mp hj
      rw [source n hn', Fin.le_def, hn]
      exact Nat.le_of_lt (h.source_lt m hm)
  source_lt := by
    intro m hm
    rw [List.length_append, List.length_singleton]
    rcases List.mem_append.mp hm with hm | hm
    · exact Nat.lt_succ_of_lt (h.source_lt m hm)
    · rw [source m hm, hn]
      exact Nat.lt_succ_self _
  count := by
    intro y hy
    rw [List.countP_append]
    rcases List.mem_append.mp hy with hy | hy
    · have hne : ∀ m ∈ new, m.source.val ≠ y.1.val := by
        intro m hm
        have := hlt y hy
        rw [source m hm]
        omega
      have hzero : new.countP (·.source.val = y.1.val) = 0 := by
        simpa [List.countP_eq_zero] using hne
      rw [hzero, Nat.add_zero, Allocator.moveCount_append_left hne, h.count y hy]
    · obtain rfl := List.mem_singleton.mp hy
      have hne : ∀ m ∈ d.moves, m.source.val ≠ y.1.val := by
        intro m hm
        have := h.source_lt m hm
        omega
      have hzero : d.moves.countP (·.source.val = y.1.val) = 0 := by
        simpa [List.countP_eq_zero] using hne
      have hall : new.countP (·.source.val = y.1.val) = new.length := by
        rw [List.countP_eq_length]
        intro m hm
        rw [source m hm, decide_eq_true_eq]
      rw [hzero, Nat.zero_add, hall, Allocator.moveCount_append_right hne, count]
  stack := by
    rw [Allocator.stackPlaces_append, h.stack, stackPlaces, List.range'_append_1, stack]

private theorem inFloat (h : d.InOrder a done) (hn : x.1.val = done.length)
    (hlt : ∀ y ∈ done, y.1.val < done.length) {isFixed : Bool}
    (hf : x.2.isFloat = true) (hfree : d.cursor.float < a.floatCount) :
    (a.inFloat isFixed x.1 d).InOrder a (done ++ [x]) := by
  obtain ⟨hg, hs, hfl⟩ := a.places_le
  have hw : a.wordSize = .w64 := Allocator.w64_of_float hfree
  have hdest : (Allocator.place (16 + d.cursor.float)).val = 16 + d.cursor.float :=
    Allocator.val_place (by omega)
  have hcopy : (Allocator.place d.cursor.float).val = d.cursor.float :=
    Allocator.val_place (by omega)
  apply h.extend hn hlt (k := 0)
  case source =>
    intro m hm
    rcases Allocator.mem_floatMoves.mp hm with rfl | ⟨-, rfl⟩ <;> rfl
  case count =>
    have hmem : ∃ m ∈ a.floatMoves x.1 d.cursor.float, m.source.val = x.1.val ∧
        16 ≤ m.dest.val :=
      ⟨_, Allocator.mem_floatMoves.mpr (.inl rfl), rfl, by
        rw [Allocator.word, hdest]
        exact Nat.le_add_right 16 _⟩
    have hlen : (a.floatMoves x.1 d.cursor.float).length =
        if a.shadows = true then 2 else 1 := by
      unfold Allocator.floatMoves
      split <;> rfl
    rw [hlen, Allocator.moveCount]
    simp only [hw, hf, hmem, reduceCtorEq, false_and, false_or, and_true,
      ← Allocator.shadows_iff]
  case stackPlaces =>
    -- The copy is in an integer register: there are as many as floating-point registers.
    have hpos : a.shadows = true → d.cursor.float < a.stackStart := fun hsh ↦ by
      have := Allocator.count_eq_of_shadows hsh
      omega
    rw [Allocator.stackPlaces, List.range'_zero, List.filter_eq_nil_iff]
    intro k hk
    obtain ⟨m, hm, rfl⟩ := List.mem_map.mp hk
    rcases Allocator.mem_floatMoves.mp hm with rfl | ⟨hsh, rfl⟩
    · simp only [Allocator.word, hdest, Bool.and_eq_true, decide_eq_true_eq]
      omega
    · have := hpos hsh
      simp only [Allocator.word, hcopy, Bool.and_eq_true, decide_eq_true_eq]
      omega
  case stack => rfl

private theorem inGeneral (h : d.InOrder a done) (hn : x.1.val = done.length)
    (hlt : ∀ y ∈ done, y.1.val < done.length) (hfree : d.cursor.general < a.generalCount) :
    (a.inGeneral x.1 d).InOrder a (done ++ [x]) := by
  obtain ⟨hg, hs, -⟩ := a.places_le
  have hw : a.wordSize = .w64 := Allocator.w64_of_general hfree
  have hdest : (Allocator.place d.cursor.general).val = d.cursor.general :=
    Allocator.val_place (by omega)
  apply h.extend hn hlt (k := 0)
  case source =>
    intro m hm
    rw [List.mem_singleton.mp hm]
    rfl
  case count =>
    have hnone : ¬16 ≤ (Allocator.place d.cursor.general).val := by omega
    simp [Allocator.moveCount, hw, Allocator.word, hnone]
  case stackPlaces =>
    have hlow : ¬a.stackStart ≤ d.cursor.general := by omega
    simp [Allocator.stackPlaces, Allocator.word, hdest, hlow]
  case stack => rfl

private theorem onStack (h : d.InOrder a done) (hn : x.1.val = done.length)
    (hlt : ∀ y ∈ done, y.1.val < done.length)
    (hle : a.stackStart + d.cursor.stack + (a.shifts x.2).length ≤ 16) :
    (a.onStack x.1 x.2 d).InOrder a (done ++ [x]) := by
  have hplaces : (a.stackMoves x.1 (a.shifts x.2) d.cursor.stack).map (·.dest.val) =
      List.range' (a.stackStart + d.cursor.stack) (a.shifts x.2).length := by
    apply List.ext_getElem
    · rw [List.length_map, Allocator.stackMoves, List.length_mapIdx, List.length_range']
    · intro j hj hj'
      rw [List.length_range'] at hj'
      simp only [Allocator.stackMoves, List.getElem_map, List.getElem_mapIdx, Allocator.word,
        List.getElem_range', Nat.one_mul]
      exact Allocator.val_place (by omega)
  apply h.extend hn hlt (k := (a.shifts x.2).length)
  case source =>
    intro m hm
    obtain ⟨j, hj, rfl⟩ := List.mem_mapIdx.mp hm
    rfl
  case count =>
    have hnone : ¬∃ m ∈ a.stackMoves x.1 (a.shifts x.2) d.cursor.stack,
        m.source.val = x.1.val ∧ 16 ≤ m.dest.val := by
      rintro ⟨m, hm, -, hd⟩
      have hmem := List.mem_map_of_mem (f := fun m : Move ↦ m.dest.val) hm
      rw [hplaces, List.mem_range'_1] at hmem
      omega
    rw [Allocator.stackMoves, List.length_mapIdx, Allocator.length_shifts,
      ← Allocator.stackMoves]
    simp only [Allocator.moveCount, hnone, and_false, or_false, Allocator.splits_iff]
  case stackPlaces =>
    rw [Allocator.stackPlaces, hplaces, List.filter_eq_self]
    intro k hk
    rw [List.mem_range'_1] at hk
    simp only [Bool.and_eq_true, decide_eq_true_eq]
    omega
  case stack => rfl

/-- Compiling one more argument keeps the moves in order. -/
theorem assign (h : d.InOrder a done) (hn : x.1.val = done.length)
    (hlt : ∀ y ∈ done, y.1.val < done.length) {isFixed : Bool}
    (hx : a.assign isFixed x.1 x.2 d = some e) : e.InOrder a (done ++ [x]) := by
  rcases Allocator.assign_cases hx with ⟨hf, hfree, rfl⟩ | ⟨-, -, hfree, rfl⟩ | ⟨-, -, hle, rfl⟩
  · exact h.inFloat hn hlt hf hfree
  · exact h.inGeneral hn hlt hfree
  · exact h.onStack hn hlt hle

/-- The draft of a compiled prototype has its moves in order, besides being sound. -/
theorem of_compile {inv : Invoker} (h : a.compile p = .ok inv) :
    ∃ d, d.Sound a p (Allocator.numbered p.args) ∧ d.InOrder a (Allocator.numbered p.args) ∧
      inv = a.finish p d :=
  Draft.Sound.compile_induct (fun done d ↦ d.InOrder a done) (.start a)
    (fun _ _ _ _ _ hsplit _ hd hx ↦ hd.assign (Allocator.number_eq_length hsplit)
      (fun _ ↦ Allocator.number_lt_length hsplit) hx) h

end Draft.InOrder

namespace Invoker

variable {a : Allocator} {p : Prototype} {inv : Invoker}

/-- The mask of a sound draft names no register beyond those the allocator may use. -/
theorem fixedFloats_lt_of_sound {d : Draft} (hd : d.Sound a p (Allocator.numbered p.args)) :
    d.fixedFloats.toNat < 2 ^ a.floatCount := by
  apply Nat.lt_pow_two_of_testBit
  intro j hj
  rw [BitVec.testBit_toNat, Bool.eq_false_iff]
  intro hbit
  have h8 : j < 8 := BitVec.lt_of_getLsbD hbit
  obtain ⟨m, hm, hdest, -⟩ := (hd.fixed j h8).mp hbit
  have htaken := hd.taken m hm
  have hgeneral := hd.general_le
  have hfloat := hd.float_le
  have hstack := hd.stack_le
  obtain ⟨hg, hs, -⟩ := a.places_le
  unfold Cursor.Takes at htaken
  omega

/-- Every compiled invoker is well-formed. -/
theorem wellFormed_of_compile (h : a.compile p = .ok inv) : inv.WellFormed a p := by
  have hfit := (Allocator.compile_eq_ok_iff.mp h).1
  have hl := Allocator.length_numbered hfit
  obtain ⟨d, hd, ho, rfl⟩ := Draft.InOrder.of_compile h
  have hword (m : Move) (hm : m ∈ d.moves) :
      ∃ x : Fin 16 × Scalar, ∃ s ∈ a.shifts x.2, m = a.word x.1 s m.dest := by
    obtain ⟨x, -, s, hs, he⟩ := hd.declared m hm
    exact ⟨x, s, hs, he⟩
  constructor
  case source_le => exact ho.sorted
  case source_lt => exact hl ▸ ho.source_lt
  case count_source =>
    intro i t ht
    obtain ⟨hi, hmem⟩ := Allocator.mem_numbered_of_getElem? hfit ht
    exact ho.count (⟨i, hi⟩, t) hmem
  case dest_mem =>
    intro m hm
    have htaken := hd.taken m hm
    have hgeneral := hd.general_le
    have hfloat := hd.float_le
    unfold Cursor.Takes at htaken
    change _ ∨ (_ ∧ _ < a.stackStart + d.cursor.stack) ∨ _
    omega
  case dest_nodup => exact hd.distinct
  case stackPlaces_eq => exact ho.stack
  case stack_le => exact hd.stack_le
  case shiftUp_eq =>
    intro m hm
    obtain ⟨x, s, -, he⟩ := hword m hm
    rw [he, Allocator.word]
  case shiftDown_eq =>
    intro m hm
    obtain ⟨x, s, hs, he⟩ := hword m hm
    rw [he, Allocator.word]
    exact Allocator.shift_eq hs
  case fixedFloats_iff =>
    intro j
    by_cases hj : j < 8
    · exact hd.fixed j hj
    · rw [BitVec.getLsbD_of_ge _ _ (by omega)]
      constructor
      · intro hbit
        cases hbit
      · rintro ⟨m, -, hdest, -⟩
        have := m.dest.isLt
        omega
  case fixedFloats_lt => exact ⟨fixedFloats_lt_of_sound hd, a.places_le.2.2⟩

/-- A Microsoft x64 call with floats on both sides of the variadic marker: each float with a
register is moved twice, the fifth argument is on the stack, and the mask names the first register
alone. -/
theorem wellFormed_variadic_floats :
    ∃ inv, Allocator.x64Windows.compile ⟨.i32, [.f64, .u8, .f32, .i64, .f64], some 2, by decide⟩ =
        .ok inv ∧
      inv.WellFormed .x64Windows ⟨.i32, [.f64, .u8, .f32, .i64, .f64], some 2, by decide⟩ ∧
      inv.moves.map (·.source.val) = [0, 0, 1, 2, 2, 3, 4] ∧
      inv.moves.map (·.dest.val) = [16, 0, 1, 18, 2, 3, 4] ∧ inv.stackWords = 1 ∧
      inv.fixedFloats = 1 :=
  ⟨_, rfl, wellFormed_of_compile rfl, by decide, by decide, by decide, by decide⟩

end Invoker

end ForeignCall
