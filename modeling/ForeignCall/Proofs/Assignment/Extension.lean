import ForeignCall.Proofs.Assignment.Sound

/-!
# Extending a prototype

What is handed out to an argument depends on the types before it alone: not on the arguments that
follow, not on the result, and not on where the variadic part starts. Two runs over one list of
arguments therefore agree in their places, and a run over a longer list goes on from a run over the
shorter one. The variadic index shows only in the mask, as the registers of the arguments before it.
-/

namespace ForeignCall

/-- What a draft has handed out: the places that are taken and the moves to them. -/
def Draft.handedOut (d : Draft) : Cursor × List Move := (d.cursor, d.moves)

/-- A draft goes on from another if its moves follow those of the other, and no stack word was
given back. -/
structure Draft.GoesOn (d e : Draft) : Prop where
  moves : d.moves <+: e.moves
  stack : d.cursor.stack ≤ e.cursor.stack

namespace Draft.GoesOn

variable {a : Allocator} {d e f : Draft}

/-- A draft goes on from itself. -/
theorem refl (d : Draft) : d.GoesOn d := ⟨List.prefix_rfl, Nat.le_refl _⟩

/-- What goes on from a draft that goes on goes on from the first. -/
theorem trans (hde : d.GoesOn e) (hef : e.GoesOn f) : d.GoesOn f :=
  ⟨hde.moves.trans hef.moves, Nat.le_trans hde.stack hef.stack⟩

/-- Compiling an argument goes on from the draft before it. -/
theorem assign {isFixed : Bool} {source : Fin 16} {t : Scalar}
    (h : a.assign isFixed source t d = some e) : d.GoesOn e := by
  rcases Allocator.assign_cases h with ⟨-, -, rfl⟩ | ⟨-, -, -, rfl⟩ | ⟨-, -, -, rfl⟩
  · exact ⟨List.prefix_append _ _, Nat.le_refl _⟩
  · exact ⟨List.prefix_append _ _, Nat.le_refl _⟩
  · exact ⟨List.prefix_append _ _, Nat.le_add_right _ _⟩

/-- Compiling further arguments goes on from the draft before them. -/
theorem assignAll {p : Prototype} {todo : List (Fin 16 × Scalar)}
    (h : a.assignAll p todo d = .ok e) : d.GoesOn e :=
  @Allocator.assignAll_induct a p todo (fun _ f ↦ d.GoesOn f)
    (fun _ _ _ _ _ _ hd hx ↦ hd.trans (assign hx)) [] todo d e (List.nil_append todo).symm
    (.refl d) h

end Draft.GoesOn

namespace Allocator

variable {a : Allocator} {p q : Prototype} {d e : Draft}

/-! ### Two runs over one list of arguments -/

/-- Where an argument goes depends on what was handed out before it, not on whether it is in the
variadic part. -/
theorem map_handedOut_assign (h : d.handedOut = e.handedOut) (isFixed isFixed' : Bool)
    (source : Fin 16) (t : Scalar) :
    (a.assign isFixed source t d).map Draft.handedOut =
      (a.assign isFixed' source t e).map Draft.handedOut := by
  obtain ⟨hcursor, hmoves⟩ := Prod.mk.inj h
  rw [assign_eq, assign_eq, hcursor]
  split
  · simp only [Option.map_some, Draft.handedOut, inFloat, hcursor, hmoves]
  · split
    · simp only [Option.map_some, Draft.handedOut, inGeneral, hcursor, hmoves]
    · split
      · simp only [Option.map_some, Draft.handedOut, onStack, hcursor, hmoves]
      · rfl

/-- If an argument finds its place in a draft, it finds the same in a draft that has handed out the
same. -/
theorem exists_assign_of_handedOut {d' : Draft} (h : d.handedOut = e.handedOut)
    {isFixed : Bool} {source : Fin 16} {t : Scalar} (hd : a.assign isFixed source t d = some d')
    (isFixed' : Bool) :
    ∃ e', a.assign isFixed' source t e = some e' ∧ d'.handedOut = e'.handedOut := by
  have hmap := map_handedOut_assign (a := a) h isFixed isFixed' source t
  rw [hd, Option.map_some, eq_comm, Option.map_eq_some_iff] at hmap
  obtain ⟨e', he, heq⟩ := hmap
  exact ⟨e', he, heq.symm⟩

/-- Numbered arguments find the same places under prototypes with different results and variadic
parts. -/
theorem exists_assignAll_of_handedOut {todo : List (Fin 16 × Scalar)} {d' : Draft}
    (h : d.handedOut = e.handedOut) (hd : a.assignAll p todo d = .ok d') (q : Prototype) :
    ∃ e', a.assignAll q todo e = .ok e' ∧ d'.handedOut = e'.handedOut := by
  induction todo generalizing d e with
  | nil =>
    cases hd
    exact ⟨e, rfl, h⟩
  | cons x rest ih =>
    obtain ⟨i, t⟩ := x
    rw [assignAll] at hd
    split at hd
    · cases hd
    · next d₁ hd₁ =>
      obtain ⟨e₁, he₁, heq⟩ := exists_assign_of_handedOut h hd₁ (!q.isVariadicAt i.val)
      rw [assignAll, he₁]
      exact ih heq hd

/-- Prototypes with one list of arguments compile together, to the same moves and as many stack
words. -/
theorem exists_compile_of_args_eq {inv : Invoker} (hargs : p.args = q.args)
    (h : a.compile p = .ok inv) :
    ∃ other, a.compile q = .ok other ∧ other.moves = inv.moves ∧
      other.stackWords = inv.stackWords := by
  obtain ⟨hl, d, hd, rfl⟩ := compile_eq_ok_iff.mp h
  obtain ⟨e, he, heq⟩ := exists_assignAll_of_handedOut (e := .start) rfl hd q
  obtain ⟨hcursor, hmoves⟩ := Prod.mk.inj heq
  rw [hargs] at hl he
  refine ⟨a.finish q e, compile_eq_ok_iff.mpr ⟨hl, e, he, rfl⟩, hmoves.symm, ?_⟩
  exact congrArg Cursor.stack hcursor.symm

/-! ### A longer list of arguments -/

/-- The first arguments of a longer list are numbered as they are alone. -/
theorem numbered_append {args : List Scalar} (hl : args.length ≤ 16) (more : List Scalar) :
    ∃ rest, numbered (args ++ more) = numbered args ++ rest := by
  have htake : ((List.finRange 16).take args.length).length = args.length := by
    rw [List.length_take, List.length_finRange]
    exact Nat.min_eq_left hl
  have hsplit (more : List Scalar) : numbered (args ++ more) =
      ((List.finRange 16).take args.length).zip args ++
        ((List.finRange 16).drop args.length).zip more := by
    rw [← List.zip_append htake, List.take_append_drop, numbered]
  have halone := hsplit []
  rw [List.append_nil, List.zip_nil_right, List.append_nil] at halone
  exact ⟨_, by rw [hsplit, halone]⟩

/-- If a prototype with more arguments compiles, so does the one without them, and its moves are
the first of the longer one. -/
theorem exists_compile_of_append {more : List Scalar} (hargs : q.args = p.args ++ more)
    {longer : Invoker} (h : a.compile q = .ok longer) :
    ∃ shorter, a.compile p = .ok shorter ∧ shorter.moves <+: longer.moves ∧
      shorter.stackWords ≤ longer.stackWords := by
  obtain ⟨hl, e, he, rfl⟩ := compile_eq_ok_iff.mp h
  have hfit : p.args.length ≤ 16 := by
    rw [hargs, List.length_append] at hl
    exact Nat.le_trans (Nat.le_add_right _ _) hl
  obtain ⟨rest, hnumbered⟩ := numbered_append hfit more
  rw [hargs, hnumbered, assignAll_append] at he
  -- The run over the longer list first compiles the arguments of the shorter one.
  cases hd : a.assignAll q (numbered p.args) .start with
  | error error =>
    rw [hd] at he
    cases he
  | ok d =>
    rw [hd] at he
    have hgoes : d.GoesOn e := .assignAll he
    obtain ⟨d', hd', heq⟩ := exists_assignAll_of_handedOut (e := .start) rfl hd p
    obtain ⟨hcursor, hmoves⟩ := Prod.mk.inj heq
    refine ⟨a.finish p d', compile_eq_ok_iff.mpr ⟨hfit, d', hd', rfl⟩, ?_, ?_⟩
    · rw [finish, finish, ← hmoves]
      exact hgoes.moves
    · rw [finish, finish, ← hcursor]
      exact hgoes.stack

/-! ### The variadic index -/

/-- An argument is outside the variadic part if it is before the index where that starts. -/
theorem isVariadicAt_eq_false_iff (p : Prototype) (i : Nat) :
    p.isVariadicAt i = false ↔ ∀ v ∈ p.variadic, i < v := by
  unfold Prototype.isVariadicAt
  cases p.variadic <;> simp

/-- The mask of a compiled prototype names the floating-point registers whose arguments are before
the variadic index. -/
theorem fixedFloats_iff_of_compile {inv : Invoker} (h : a.compile p = .ok inv) (j : Nat) :
    inv.fixedFloats.getLsbD j = true ↔
      ∃ m ∈ inv.moves, m.dest.val = 16 + j ∧ ∀ v ∈ p.variadic, m.source.val < v := by
  obtain ⟨d, hd, rfl⟩ := Draft.Sound.of_compile h
  simp only [← isVariadicAt_eq_false_iff]
  by_cases hj : j < 8
  · exact hd.fixed j hj
  · constructor
    · intro hbit
      exact absurd (BitVec.lt_of_getLsbD hbit) hj
    · rintro ⟨m, -, hdest, -⟩
      have := m.dest.isLt
      omega

/-- The places of arguments depend on the types before them alone. If a prototype compiles, so does
one with its first arguments, whatever their results and variadic parts; the moves of the shorter
one are the first of the longer one, and it takes no more stack words. With the same arguments both
have the same moves and stack words, and if one of them is not variadic, the mask of the other is
its mask without the registers whose arguments are in the variadic part. -/
theorem places_by_earlier_types (a : Allocator) (p q : Prototype) (more : List Scalar)
    (hargs : q.args = p.args ++ more) :
    (∀ longer, a.compile q = .ok longer → ∃ shorter, a.compile p = .ok shorter ∧
      shorter.moves <+: longer.moves ∧ shorter.stackWords ≤ longer.stackWords) ∧
    (more = [] →
      (∀ inv, a.compile p = .ok inv → ∃ other, a.compile q = .ok other ∧
        other.moves = inv.moves ∧ other.stackWords = inv.stackWords) ∧
      ∀ inv full, a.compile p = .ok inv → a.compile q = .ok full → q.variadic = none →
        ∀ j, inv.fixedFloats.getLsbD j = true ↔ full.fixedFloats.getLsbD j = true ∧
          ∃ m ∈ full.moves, m.dest.val = 16 + j ∧ ∀ v ∈ p.variadic, m.source.val < v) := by
  refine ⟨fun longer h ↦ exists_compile_of_append hargs h, ?_⟩
  rintro rfl
  have hsame : p.args = q.args := by rw [hargs, List.append_nil]
  refine ⟨fun inv h ↦ exists_compile_of_args_eq hsame h, ?_⟩
  intro inv full h hfull hnone j
  obtain ⟨other, hother, hmoves, -⟩ := exists_compile_of_args_eq hsame h
  rw [hfull] at hother
  cases hother
  rw [fixedFloats_iff_of_compile h, fixedFloats_iff_of_compile hfull, hmoves, hnone]
  constructor
  · rintro ⟨m, hm, hdest, hbefore⟩
    exact ⟨⟨m, hm, hdest, by simp⟩, m, hm, hdest, hbefore⟩
  · exact And.right

/-- A Microsoft x64 call with five arguments, and its first three with a variadic float: the moves
of the three are the first of the five, and of their two floating-point registers the mask has the
one before the marker. -/
theorem places_by_earlier_types_windows :
    (∃ shorter longer,
      x64Windows.compile ⟨.i32, [.f64, .u8, .f32], some 1, by decide⟩ = .ok shorter ∧
      x64Windows.compile ⟨.f64, [.f64, .u8, .f32, .i64, .f64], some 4, by decide⟩ = .ok longer ∧
      shorter.moves <+: longer.moves ∧ shorter.moves.map (·.dest.val) = [16, 0, 1, 18, 2] ∧
      shorter.stackWords ≤ longer.stackWords ∧ longer.stackWords = 1) ∧
    ∃ inv full,
      x64Windows.compile ⟨.i32, [.f64, .u8, .f32], some 1, by decide⟩ = .ok inv ∧
      x64Windows.compile (.fixed .f64 [.f64, .u8, .f32]) = .ok full ∧
      full.moves = inv.moves ∧ full.fixedFloats = 5 ∧
      inv.fixedFloats.getLsbD 0 = true ∧ inv.fixedFloats.getLsbD 2 = false := by
  constructor
  · obtain ⟨hshorter, -⟩ := places_by_earlier_types x64Windows
      ⟨.i32, [.f64, .u8, .f32], some 1, by decide⟩
      ⟨.f64, [.f64, .u8, .f32, .i64, .f64], some 4, by decide⟩ [.i64, .f64] rfl
    obtain ⟨shorter, h, hmoves, hstack⟩ := hshorter _ rfl
    cases h
    exact ⟨_, _, rfl, rfl, hmoves, by decide, hstack, by decide⟩
  · obtain ⟨-, hsame⟩ := places_by_earlier_types x64Windows
      ⟨.i32, [.f64, .u8, .f32], some 1, by decide⟩ (.fixed .f64 [.f64, .u8, .f32]) [] rfl
    obtain ⟨hother, hmask⟩ := hsame rfl
    obtain ⟨full, hfull, hmoves, -⟩ := hother _ rfl
    have hbits := hmask _ full rfl hfull rfl
    cases hfull
    refine ⟨_, _, rfl, rfl, hmoves, by decide, ?_, ?_⟩
    · rw [hbits]
      decide
    · rw [Bool.eq_false_iff, ne_eq, hbits]
      decide

end Allocator

end ForeignCall
