import ForeignCall.Proofs.Assignment.Demand

/-!
# Floating-point policies

Allocators with the same registers may still treat floats differently, and the difference shows
only where it is meant to. While every float finds a floating-point register, it does not matter
whether floats may go on to the integer registers. A float that does so frees a stack word and
pushes at most one integer onto the stack in its place, so no more stack words are needed, and the
floating-point file is the same. Registers by position are no different where there are no floats.
-/

namespace ForeignCall

/-- Whether a move goes into the floating-point file. -/
def Move.intoFloat (m : Move) : Bool := 16 ≤ m.dest.val

/-- What a draft says about the floating-point file: how many registers are taken, the moves into
it, and the mask. -/
def Draft.floatFile (d : Draft) : Nat × List Move × BitVec 8 :=
  (d.cursor.float, d.moves.filter Move.intoFloat, d.fixedFloats)

/-- Drafts that differ at most in how many floating-point registers are used up. -/
structure Draft.Alike (d e : Draft) : Prop where
  general : d.cursor.general = e.cursor.general
  stack : d.cursor.stack = e.cursor.stack
  moves : d.moves = e.moves
  fixedFloats : d.fixedFloats = e.fixedFloats

namespace Allocator

/-- Allocators that differ at most in their policy. -/
structure SameRegisters (a b : Allocator) : Prop where
  convention : a.convention = b.convention
  order : a.order = b.order
  general : a.generalCount = b.generalCount
  float : a.floatCount = b.floatCount

variable {a b : Allocator} {p : Prototype} {d e d' e' : Draft} {isFixed : Bool}
  {source : Fin 16} {t : Scalar} {todo : List (Fin 16 × Scalar)}

namespace SameRegisters

/-- Parameters that differ in the policy alone give such allocators. -/
theorem of_make {convention : Convention} {word : WordSize} {order : ByteOrder}
    {general float : Nat} {policy policy' : FloatPolicy}
    (ha : make convention word order general float policy = .ok a)
    (hb : make convention word order general float policy' = .ok b) : a.SameRegisters b := by
  obtain ⟨hac, -, hao, hag, haf, -⟩ := eq_of_make_eq_ok ha
  obtain ⟨hbc, -, hbo, hbg, hbf, -⟩ := eq_of_make_eq_ok hb
  exact ⟨hac.trans hbc.symm, hao.trans hbo.symm, hag.trans hbg.symm, haf.trans hbf.symm⟩

/-- They have the same word size. -/
theorem wordSize (h : a.SameRegisters b) : a.wordSize = b.wordSize :=
  congrArg Convention.wordSize h.convention

/-- The stack starts at the same slot under both. -/
theorem stackStart (h : a.SameRegisters b) : a.stackStart = b.stackStart :=
  congrArg Convention.generalRegisters h.convention

/-- Values are cut alike under both. -/
theorem shifts (h : a.SameRegisters b) (t : Scalar) : a.shifts t = b.shifts t := by
  rw [Allocator.shifts, Allocator.shifts, splits, splits, h.wordSize, h.order]

/-- A word of an argument is moved alike under both. -/
theorem word (h : a.SameRegisters b) : a.word = b.word := by
  funext source shift dest
  simp only [Allocator.word, h.wordSize]

/-- The words of an argument are moved to the stack alike under both. -/
theorem stackMoves (h : a.SameRegisters b) : a.stackMoves = b.stackMoves := by
  funext source shifts k
  simp only [Allocator.stackMoves, h.word, h.stackStart]

end SameRegisters

/-! ### Runs that hand out alike -/

/-- Whether two runs put all floats among further arguments into floating-point registers: there
are none, or both have the registers left for them and lose none to integers. -/
def FloatsFit (a b : Allocator) (args : List Scalar) (d e : Draft) : Prop :=
  floats args = 0 ∨ (a.shadows = false ∧ b.shadows = false ∧
    d.cursor.float = e.cursor.float ∧ d.cursor.float + floats args ≤ a.floatCount)

/-- Two runs that are alike stay so when both put an argument into the same floating-point register.
-/
theorem SameRegisters.alike_inFloat (h : a.SameRegisters b) (hd : d.Alike e)
    (hsa : a.shadows = false) (hsb : b.shadows = false)
    (hfloat : d.cursor.float = e.cursor.float) :
    (a.inFloat isFixed source d).Alike (b.inFloat isFixed source e) where
  general := by simpa [inFloat, hsa, hsb] using hd.general
  stack := hd.stack
  moves := by simp only [inFloat, floatMoves, hsa, hsb, hd.moves, hfloat, h.word]
  fixedFloats := by simp only [inFloat, hd.fixedFloats, hfloat]

/-- Two runs that are alike stay so when both put an argument into an integer register. -/
theorem SameRegisters.alike_inGeneral (h : a.SameRegisters b) (hd : d.Alike e) :
    (a.inGeneral source d).Alike (b.inGeneral source e) where
  general := by simp only [inGeneral, hd.general]
  stack := hd.stack
  moves := by simp only [inGeneral, hd.moves, hd.general, h.word]
  fixedFloats := hd.fixedFloats

/-- Two runs that are alike stay so when both put an argument on the stack. -/
theorem SameRegisters.alike_onStack (h : a.SameRegisters b) (hd : d.Alike e) :
    (a.onStack source t d).Alike (b.onStack source t e) where
  general := hd.general
  stack := by simp only [onStack, hd.stack, h.shifts]
  moves := by simp only [onStack, hd.moves, hd.stack, h.shifts, h.stackMoves]
  fixedFloats := hd.fixedFloats

/-- One argument finds the same place under two policies if it is an integer, or a float for which
both have the same floating-point register left. -/
theorem SameRegisters.assign_alike (h : a.SameRegisters b) (hd : d.Alike e) {rest : List Scalar}
    (hfit : FloatsFit a b (t :: rest) d e) (isFixed : Bool) (source : Fin 16) :
    (a.assign isFixed source t d = none ∧ b.assign isFixed source t e = none) ∨
    ∃ d' e', a.assign isFixed source t d = some d' ∧ b.assign isFixed source t e = some e' ∧
      d'.Alike e' ∧ FloatsFit a b rest d' e' := by
  cases ht : t.isFloat with
  | true =>
    obtain hnone | ⟨hsa, hsb, hfloat, hle⟩ := hfit
    · simp [floats, ht] at hnone
    have hcount : floats (t :: rest) = floats rest + 1 := by simp [floats, ht]
    have ha : d.cursor.float < a.floatCount := by omega
    have hb : e.cursor.float < b.floatCount := by rwa [← hfloat, ← h.float]
    refine .inr ⟨a.inFloat isFixed source d, b.inFloat isFixed source e, ?_, ?_,
      h.alike_inFloat hd hsa hsb hfloat, .inr ?_⟩
    · rw [assign_eq, if_pos ⟨ht, ha⟩]
    · rw [assign_eq, if_pos ⟨ht, hb⟩]
    · simp only [inFloat]
      exact ⟨hsa, hsb, by omega, by omega⟩
  | false =>
    have hcount : floats (t :: rest) = floats rest := by simp [floats, ht]
    rw [FloatsFit, hcount] at hfit
    have hmay (c : Allocator) : c.mayTakeGeneral t = true := mayTakeGeneral_iff.mpr (.inl ht)
    -- Both decide by the same counts, since an integer asks for none of the floating-point ones.
    simp only [assign_eq, ht, Bool.false_eq_true, false_and, if_false, hmay, true_and,
      ← hd.general, ← h.general, ← h.stackStart, ← hd.stack, ← h.shifts]
    by_cases hg : d.cursor.general < a.generalCount
    · refine .inr ⟨_, _, if_pos hg, if_pos hg, h.alike_inGeneral hd, hfit.imp_right ?_⟩
      rintro ⟨hsa, hsb, hfloat, hle⟩
      simp only [inGeneral, hsa, hsb]
      exact ⟨trivial, trivial, hfloat, hle⟩
    · rw [if_neg hg, if_neg hg]
      by_cases hs : a.stackStart + d.cursor.stack + (a.shifts t).length ≤ 16
      · exact .inr ⟨_, _, if_pos hs, if_pos hs, h.alike_onStack hd, hfit⟩
      · exact .inl ⟨if_neg hs, if_neg hs⟩

/-- Numbered arguments find the same places under two policies, up to the same argument if one of
them finds none, if all floats among them have floating-point registers. -/
theorem SameRegisters.assignAll_alike (h : a.SameRegisters b) (hd : d.Alike e)
    (hfit : FloatsFit a b (todo.map Prod.snd) d e) :
    (∃ d' e', a.assignAll p todo d = .ok d' ∧ b.assignAll p todo e = .ok e' ∧ d'.Alike e') ∨
    ∃ error, a.assignAll p todo d = .error error ∧ b.assignAll p todo e = .error error := by
  induction todo generalizing d e with
  | nil => exact .inl ⟨d, e, rfl, rfl, hd⟩
  | cons x rest ih =>
    obtain ⟨i, t⟩ := x
    rw [assignAll, assignAll]
    obtain ⟨ha, hb⟩ | ⟨d', e', ha, hb, hd', hfit'⟩ :=
      h.assign_alike hd hfit (!p.isVariadicAt i.val) i
    · rw [ha, hb, h.convention]
      exact .inr ⟨_, rfl, rfl⟩
    · rw [ha, hb]
      exact ih hd' hfit'

/-- If all floats of a prototype have floating-point registers, or none of them is a float, the
policy makes no difference. -/
theorem SameRegisters.compile_eq (h : a.SameRegisters b)
    (hfit : floats p.args = 0 ∨
      (a.shadows = false ∧ b.shadows = false ∧ floats p.args ≤ a.floatCount)) :
    a.compile p = b.compile p := by
  unfold compile
  split
  · rfl
  · next hl =>
    have hargs : (numbered p.args).map Prod.snd = p.args := map_snd_numbered (by omega)
    have hstart : FloatsFit a b ((numbered p.args).map Prod.snd) .start .start := by
      rw [hargs]
      refine hfit.imp_right fun ⟨hsa, hsb, hle⟩ ↦ ⟨hsa, hsb, rfl, ?_⟩
      rwa [Draft.start, Cursor.start, Nat.zero_add]
    obtain ⟨d, e, ha, hb, halike⟩ | ⟨error, ha, hb⟩ :=
      h.assignAll_alike (p := p) ⟨rfl, rfl, rfl, rfl⟩ hstart
    · rw [ha, hb]
      simp only [h.convention, halike.moves, halike.stack, halike.fixedFloats]
    · rw [ha, hb]

/-! ### The floating-point file -/

private theorem intoFloat_word {a : Allocator} {source : Fin 16} {shift : Fin 64} {k : Nat}
    (h : k < 24) : (a.word source shift (place k)).intoFloat = decide (16 ≤ k) := by
  simp only [Move.intoFloat, Allocator.word, val_place h]

/-- Where registers do not go by position, the floating-point file of a draft changes by a float
that finds a register there, and by nothing else. -/
theorem floatFile_assign (hs : a.shadows = false) (h : a.assign isFixed source t d = some e) :
    e.floatFile =
      if t.isFloat = true ∧ d.cursor.float < a.floatCount then
        (d.cursor.float + 1,
          d.moves.filter Move.intoFloat ++ [a.word source 0 (place (16 + d.cursor.float))],
          if isFixed then d.fixedFloats ||| 1#8 <<< d.cursor.float else d.fixedFloats)
      else d.floatFile := by
  obtain ⟨hgeneral, hstart, hfloat⟩ := a.places_le
  rcases assign_cases h with ⟨ht, hlt, rfl⟩ | ⟨hf, -, hlt, rfl⟩ | ⟨hf, -, hle, rfl⟩
  · have hinto : (a.word source 0 (place (16 + d.cursor.float))).intoFloat = true := by
      rw [intoFloat_word (by omega)]
      simp
    simp [Draft.floatFile, inFloat, floatMoves, hs, ht, hlt, hinto]
  · have hinto : (a.word source 0 (place d.cursor.general)).intoFloat = false := by
      rw [intoFloat_word (by omega)]
      simp only [decide_eq_false_iff_not]
      omega
    rw [if_neg hf]
    simp [Draft.floatFile, inGeneral, hs, hinto]
  · have hinto : (a.stackMoves source (a.shifts t) d.cursor.stack).filter Move.intoFloat = [] := by
      rw [List.filter_eq_nil_iff]
      intro m hm
      obtain ⟨j, hj, rfl⟩ := List.mem_mapIdx.mp hm
      rw [intoFloat_word (by omega)]
      simp only [decide_eq_true_eq]
      omega
    rw [if_neg hf]
    simp [Draft.floatFile, onStack, hinto]

/-- Two policies that do not hand out registers by position fill the floating-point file alike, as
long as both find places. -/
theorem SameRegisters.floatFile_eq (h : a.SameRegisters b) (hsa : a.shadows = false)
    (hsb : b.shadows = false) (hfile : d.floatFile = e.floatFile)
    (hd : a.assignAll p todo d = .ok d') (he : b.assignAll p todo e = .ok e') :
    d'.floatFile = e'.floatFile := by
  induction todo generalizing d e with
  | nil =>
    cases hd
    cases he
    exact hfile
  | cons x rest ih =>
    obtain ⟨i, t⟩ := x
    rw [assignAll] at hd he
    split at hd
    · cases hd
    · next d₁ hd₁ =>
      split at he
      · cases he
      · next e₁ he₁ =>
        refine ih ?_ hd he
        obtain ⟨hcursor, hmoves, hfixed⟩ : d.cursor.float = e.cursor.float ∧
            d.moves.filter Move.intoFloat = e.moves.filter Move.intoFloat ∧
            d.fixedFloats = e.fixedFloats := by simpa [Draft.floatFile] using hfile
        rw [floatFile_assign hsa hd₁, floatFile_assign hsb he₁, hfile, hcursor, hmoves, hfixed,
          h.float, h.word]

/-! ### More stack words -/

/-- Floats that may go on to the integer registers need no more stack words. -/
theorem SameRegisters.demand_le (h : a.SameRegisters b) (ha : a.policy = .registers)
    (hb : b.policy = .registersThenGeneral) (args : List Scalar) :
    b.demand args ≤ a.demand args := by
  simp only [demand, ha, hb, ← h.wordSize, ← h.general, ← h.float]
  cases a.wordSize with
  | w32 => exact Nat.le_refl _
  | w64 => simp only; omega

/-- What compiles with floats in floating-point registers only also compiles if floats may go on to
the integer registers. It needs no more stack words then, and its floating-point file is the
same. -/
theorem SameRegisters.exists_compile (h : a.SameRegisters b) (ha : a.policy = .registers)
    (hb : b.policy = .registersThenGeneral) {inv : Invoker} (hinv : a.compile p = .ok inv) :
    ∃ other, b.compile p = .ok other ∧ other.stackWords ≤ inv.stackWords ∧
      other.moves.filter Move.intoFloat = inv.moves.filter Move.intoFloat ∧
      other.fixedFloats = inv.fixedFloats := by
  have hdemand := h.demand_le ha hb p.args
  obtain ⟨hl, hfit⟩ := exists_compile_iff.mp ⟨inv, hinv⟩
  obtain ⟨other, hother⟩ : ∃ other, b.compile p = .ok other := by
    rw [h.convention] at hfit
    exact exists_compile_iff.mpr ⟨hl, Nat.le_trans hdemand hfit⟩
  refine ⟨other, hother, ?_, ?_⟩
  · rwa [(stackWords_of_compile hinv).1, (stackWords_of_compile hother).1]
  · obtain ⟨-, d, hd, rfl⟩ := compile_eq_ok_iff.mp hinv
    obtain ⟨-, e, he, rfl⟩ := compile_eq_ok_iff.mp hother
    have hsa : a.shadows = false := shadows_of_ne (by simp [ha])
    have hsb : b.shadows = false := shadows_of_ne (by simp [hb])
    have hfile : e.floatFile = d.floatFile := (h.floatFile_eq hsa hsb rfl hd he).symm
    simp only [Draft.floatFile, Prod.mk.injEq] at hfile
    exact hfile.2

/-- The policy makes a difference to floats without a floating-point register alone. With as many
registers as there are floats, a prototype compiles to the same invoker or fails with the same
error whether or not floats may take integer registers. With fewer, what compiles if they may not
compiles if they may, with no more stack words, the same moves into the floating-point file and the
same mask. Without floats, registers by position are no different from either, wherever they can
be had. -/
theorem float_policies_agree {convention : Convention} {order : ByteOrder} {general float : Nat}
    (ha : make convention .w64 order general float .registers = .ok a)
    (hb : make convention .w64 order general float .registersThenGeneral = .ok b)
    (p : Prototype) :
    (floats p.args ≤ float → a.compile p = b.compile p) ∧
    (∀ inv, a.compile p = .ok inv → ∃ other, b.compile p = .ok other ∧
      other.stackWords ≤ inv.stackWords ∧
      other.moves.filter Move.intoFloat = inv.moves.filter Move.intoFloat ∧
      other.fixedFloats = inv.fixedFloats) ∧
    (general = float → floats p.args = 0 →
      ∃ c, make convention .w64 order general float .shadowGeneral = .ok c ∧
        c.compile p = a.compile p ∧ c.compile p = b.compile p) := by
  have hab : a.SameRegisters b := .of_make ha hb
  obtain ⟨rfl, haw, rfl, rfl, rfl, hap⟩ := eq_of_make_eq_ok ha
  obtain ⟨-, -, -, -, -, hbp⟩ := eq_of_make_eq_ok hb
  refine ⟨fun hle ↦ ?_, fun inv hinv ↦ hab.exists_compile hap hbp hinv, ?_⟩
  · have hsa : a.shadows = false := shadows_of_ne (by simp [hap])
    have hsb : b.shadows = false := shadows_of_ne (by simp [hbp])
    exact hab.compile_eq (.inr ⟨hsa, hsb, hle⟩)
  · intro heq hnone
    let c : Allocator := { a with policy := .shadowGeneral, paired := fun _ ↦ ⟨heq, haw⟩ }
    have hca : c.SameRegisters a := ⟨rfl, rfl, rfl, rfl⟩
    have hcb : c.SameRegisters b := ⟨hab.convention, hab.order, hab.general, hab.float⟩
    have hmake : make a.convention a.wordSize a.order a.generalCount a.floatCount .shadowGeneral =
        .ok c := c.make_self
    rw [haw] at hmake
    exact ⟨c, hmake, hca.compile_eq (.inl hnone), hcb.compile_eq (.inl hnone)⟩

/-- Two registers of each kind. Two floats, one of them variadic, are treated alike. Four floats
leave the stack to the integer behind them if two of them may take the integer registers. Without
floats, registers by position are like the others. -/
theorem float_policies_agree_four_floats :
    ∃ a b, make .x64Windows .w64 .little 2 2 .registers = .ok a ∧
      make .x64Windows .w64 .little 2 2 .registersThenGeneral = .ok b ∧
      (floats [.f64, .i64, .f32, .u8, .i16] ≤ 2 ∧
        a.compile ⟨.i32, [.f64, .i64, .f32, .u8, .i16], some 1, by decide⟩ =
          b.compile ⟨.i32, [.f64, .i64, .f32, .u8, .i16], some 1, by decide⟩) ∧
      (∃ inv other, a.compile (.fixed .f64 [.f64, .f32, .f64, .f32, .i64]) = .ok inv ∧
        b.compile (.fixed .f64 [.f64, .f32, .f64, .f32, .i64]) = .ok other ∧
        inv.stackWords = 2 ∧ other.stackWords = 1 ∧ other.stackWords ≤ inv.stackWords ∧
        inv.moves.map (·.dest.val) = [16, 17, 4, 5, 0] ∧
        other.moves.map (·.dest.val) = [16, 17, 0, 1, 4] ∧
        other.moves.filter Move.intoFloat = inv.moves.filter Move.intoFloat ∧
        other.fixedFloats = inv.fixedFloats) ∧
      ∃ c, make .x64Windows .w64 .little 2 2 .shadowGeneral = .ok c ∧
        floats [.i8, .u64, .i32] = 0 ∧
        c.compile (.fixed .i8 [.i8, .u64, .i32]) = a.compile (.fixed .i8 [.i8, .u64, .i32]) ∧
        c.compile (.fixed .i8 [.i8, .u64, .i32]) = b.compile (.fixed .i8 [.i8, .u64, .i32]) := by
  obtain ⟨a, ha⟩ : ∃ a, make .x64Windows .w64 .little 2 2 .registers = .ok a := ⟨_, rfl⟩
  obtain ⟨b, hb⟩ : ∃ b, make .x64Windows .w64 .little 2 2 .registersThenGeneral = .ok b := ⟨_, rfl⟩
  refine ⟨a, b, ha, hb, ?_, ?_, ?_⟩
  · obtain ⟨hfew, -, -⟩ := float_policies_agree ha hb
      ⟨.i32, [.f64, .i64, .f32, .u8, .i16], some 1, by decide⟩
    exact ⟨by decide, hfew (by decide)⟩
  · obtain ⟨-, hmany, -⟩ := float_policies_agree ha hb
      (.fixed .f64 [.f64, .f32, .f64, .f32, .i64])
    cases ha
    obtain ⟨other, hother, hstack, hmoves, hfixed⟩ := hmany _ rfl
    cases hb
    cases hother
    exact ⟨_, _, rfl, rfl, by decide, by decide, hstack, by decide, by decide, hmoves, hfixed⟩
  · obtain ⟨-, -, hnone⟩ := float_policies_agree ha hb (.fixed .i8 [.i8, .u64, .i32])
    obtain ⟨c, hc, hca, hcb⟩ := hnone rfl (by decide)
    exact ⟨c, hc, by decide, hca, hcb⟩

end Allocator

end ForeignCall
