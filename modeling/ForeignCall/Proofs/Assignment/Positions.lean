import ForeignCall.Proofs.Image

/-!
# Places by position

Where registers go by position, the place of an argument depends on its number alone: the first
arguments are in the integer registers of their positions, with a copy in the floating-point
register beside if they are floats, and the others follow on the stack. Integer and floating-point
registers are used up in step, so neither file ever runs ahead of the other.
-/

namespace ForeignCall

namespace Allocator

/-- The place in the general file of the argument at a position. -/
def position (a : Allocator) (k : Nat) : Nat :=
  if k < a.generalCount then k else a.stackStart + (k - a.generalCount)

end Allocator

/-- The invariant of a draft whose arguments are placed by position. -/
structure Draft.Positional (a : Allocator) (done : List (Fin 16 × Scalar)) (d : Draft) :
    Prop where
  general : d.cursor.general = min done.length a.generalCount
  stack : d.cursor.stack = done.length - a.generalCount
  carried : ∀ x ∈ done, a.word x.1 0 (Allocator.place (a.position x.1.val)) ∈ d.moves
  copied : ∀ x ∈ done, x.2.isFloat = true → x.1.val < a.generalCount →
    a.word x.1 0 (Allocator.place (16 + x.1.val)) ∈ d.moves
  copies : ∀ m ∈ d.moves, 16 ≤ m.dest.val → ∃ x ∈ done, x.2.isFloat = true ∧
    x.1.val < a.generalCount ∧ m = a.word x.1 0 (Allocator.place (16 + x.1.val))

namespace Draft.Positional

variable {a : Allocator} {p : Prototype} {done : List (Fin 16 × Scalar)} {d e : Draft}
  {x : Fin 16 × Scalar}

/-- The empty draft has no position taken. -/
theorem start (a : Allocator) : Draft.Positional a [] .start where
  general := by simp [Draft.start, Cursor.start]
  stack := by simp [Draft.start, Cursor.start]
  carried := by simp
  copied := by simp
  copies := by simp [Draft.start]

private theorem extend (h : d.Positional a done) {c : Cursor} {new : List Move}
    {fixedFloats : BitVec 8} (general : c.general = min (done.length + 1) a.generalCount)
    (stack : c.stack = done.length + 1 - a.generalCount)
    (carried : a.word x.1 0 (Allocator.place (a.position x.1.val)) ∈ new)
    (copied : x.2.isFloat = true → x.1.val < a.generalCount →
      a.word x.1 0 (Allocator.place (16 + x.1.val)) ∈ new)
    (copies : ∀ m ∈ new, 16 ≤ m.dest.val → x.2.isFloat = true ∧ x.1.val < a.generalCount ∧
      m = a.word x.1 0 (Allocator.place (16 + x.1.val))) :
    Draft.Positional a (done ++ [x]) ⟨c, d.moves ++ new, fixedFloats⟩ where
  general := by simpa using general
  stack := by simpa using stack
  carried := by
    intro y hy
    rcases List.mem_append.mp hy with hy | hy
    · exact List.mem_append_left _ (h.carried y hy)
    · obtain rfl := List.mem_singleton.mp hy
      exact List.mem_append_right _ carried
  copied := by
    intro y hy hf hk
    rcases List.mem_append.mp hy with hy | hy
    · exact List.mem_append_left _ (h.copied y hy hf hk)
    · obtain rfl := List.mem_singleton.mp hy
      exact List.mem_append_right _ (copied hf hk)
  copies := by
    intro m hm hd
    rcases List.mem_append.mp hm with hm | hm
    · obtain ⟨y, hy, hrest⟩ := h.copies m hm hd
      exact ⟨y, List.mem_append_left _ hy, hrest⟩
    · exact ⟨x, by simp, copies m hm hd⟩

/-- Compiling one more argument places it by its position. -/
theorem assign (hs : a.shadows = true) (hsound : d.Sound a p done) (h : d.Positional a done)
    (hn : x.1.val = done.length) {isFixed : Bool}
    (hx : a.assign isFixed x.1 x.2 d = some e) : e.Positional a (done ++ [x]) := by
  have hg := h.general
  have hst := h.stack
  have hlock := hsound.lockstep hs
  have hcount := Allocator.count_eq_of_shadows hs
  have hplaces := a.places_le
  have hstack := hsound.stack_le
  rcases Allocator.assign_cases hx with ⟨hf, hlt, rfl⟩ | ⟨hf, -, hlt, rfl⟩ | ⟨hf, hm, hle, rfl⟩
  · have hk : x.1.val < a.generalCount := by omega
    have hfloat : d.cursor.float = x.1.val := by omega
    have hpos : a.position x.1.val = x.1.val := if_pos hk
    apply h.extend
    case general => simp only [hs, ite_true]; omega
    case stack => simp only; omega
    case carried =>
      rw [hpos, hfloat]
      exact Allocator.mem_floatMoves.mpr (.inr ⟨hs, rfl⟩)
    case copied =>
      intro _ _
      rw [hfloat]
      exact Allocator.mem_floatMoves.mpr (.inl rfl)
    case copies =>
      intro m hm hd
      rw [hfloat] at hm
      rcases Allocator.mem_floatMoves.mp hm with rfl | ⟨-, rfl⟩
      · exact ⟨hf, hk, rfl⟩
      · rw [Allocator.word, Allocator.val_place (by omega)] at hd
        omega
  · have hk : x.1.val < a.generalCount := by omega
    have hgeneral : d.cursor.general = x.1.val := by omega
    have hint : ¬x.2.isFloat = true := fun ht ↦ hf ⟨ht, by omega⟩
    have hpos : a.position x.1.val = x.1.val := if_pos hk
    apply h.extend
    case general => simp only; omega
    case stack => simp only; omega
    case carried => simp [hpos, hgeneral]
    case copied => exact fun ht _ ↦ absurd ht hint
    case copies =>
      intro m hm hd
      rw [List.mem_singleton.mp hm, Allocator.word, hgeneral,
        Allocator.val_place (by omega)] at hd
      omega
  · have hk : ¬x.1.val < a.generalCount := by
      intro hlt
      have hmay : a.mayTakeGeneral x.2 = true := by
        have hint : ¬x.2.isFloat = true := fun ht ↦ hf ⟨ht, by omega⟩
        simp [Allocator.mayTakeGeneral, hint]
      exact hm ⟨hmay, by omega⟩
    have hshift := Allocator.shifts_of_w64 (Allocator.w64_of_shadows hs) x.2
    have hpos : a.position x.1.val = a.stackStart + d.cursor.stack := by
      rw [Allocator.position, if_neg hk]
      omega
    rw [Allocator.onStack, hshift]
    rw [hshift, List.length_singleton] at hle
    apply h.extend
    case general => simp only; omega
    case stack => simp only [List.length_singleton]; omega
    case carried => simp [hpos, Allocator.stackMoves]
    case copied => exact fun _ hlt ↦ absurd hlt hk
    case copies =>
      intro m hm hd
      simp only [Allocator.stackMoves, List.mapIdx_cons, List.mapIdx_nil, List.mem_singleton,
        Nat.add_zero] at hm
      rw [hm, Allocator.word, Allocator.val_place (by omega)] at hd
      omega

/-- The draft of a compiled prototype is placed by position, besides being sound. -/
theorem of_compile (hs : a.shadows = true) {inv : Invoker} (h : a.compile p = .ok inv) :
    ∃ d, d.Sound a p (Allocator.numbered p.args) ∧
      d.Positional a (Allocator.numbered p.args) ∧ inv = a.finish p d :=
  Draft.Sound.compile_induct (fun done d ↦ d.Positional a done) (.start a)
    (fun _ _ _ _ _ hsplit hsound hd hx ↦
      hd.assign hs hsound (Allocator.number_eq_length hsplit) hx) h

end Draft.Positional

namespace Allocator

variable {a : Allocator} {p : Prototype} {inv : Invoker}

/-- Where registers go by position, a prototype compiles if the arguments beyond the registers fit
the stack words. -/
theorem exists_compile_of_shadows (hs : a.shadows = true) (hl : p.args.length ≤ 16)
    (hfit : a.stackStart + (p.args.length - a.generalCount) ≤ 16) :
    ∃ inv, a.compile p = .ok inv := by
  have hw := w64_of_shadows hs
  have hplaces := a.places_le
  obtain ⟨d, hd⟩ : ∃ d, a.assignAll p (numbered p.args) .start = .ok d := assignAll_progress
    (fun done d ↦ d.Sound a p done ∧ d.Positional a done)
    (by
      rintro done x rest d hsplit ⟨hsound, hpos⟩
      have hlen : done.length < p.args.length := by
        have := congrArg List.length hsplit
        rw [length_numbered hl, List.length_append, List.length_cons] at this
        omega
      have hroom : a.stackStart + d.cursor.stack + (a.shifts x.2).length ≤ 16 := by
        have := hpos.stack
        rw [shifts_of_w64 hw, List.length_singleton]
        omega
      obtain ⟨e, he⟩ := exists_assign hroom (!p.isVariadicAt x.1.val) x.1
      exact ⟨e, he, hsound.assign he, hpos.assign hs hsound (number_eq_length hsplit) he⟩)
    (List.nil_append _).symm ⟨.start, .start a⟩
  exact ⟨_, compile_eq_ok_iff.mpr ⟨hl, d, hd, rfl⟩⟩

/-- In a compiled prototype every argument has its position within the general file. -/
theorem position_lt (hs : a.shadows = true) (h : a.compile p = .ok inv) {x : Fin 16 × Scalar}
    (hx : x ∈ numbered p.args) : a.position x.1.val < 16 := by
  have hl := length_numbered (compile_eq_ok_iff.mp h).1
  have hlt := (List.getElem?_eq_some_iff.mp (mem_numbered.mp hx)).1
  obtain ⟨d, hd, hp, -⟩ := Draft.Positional.of_compile hs h
  have hst := hp.stack
  have hle := hd.stack_le
  unfold position
  split <;> omega

/-! ### The image by position -/

/-- The general file holds an argument at its position. -/
theorem getElem_position (hs : a.shadows = true) (h : a.compile p = .ok inv)
    {x : Fin 16 × Scalar} (hx : x ∈ numbered p.args) (words : List Word) {k : Fin 16}
    (hk : k.val = a.position x.1.val) :
    (inv.assemble (.ofList words)).general k = argumentWord words x := by
  obtain ⟨d, hd, hp, rfl⟩ := Draft.Positional.of_compile hs h
  have hm := hp.carried x hx
  rw [← hk] at hm
  exact getElem_assemble_of_w64 hd (w64_of_shadows hs) hx (by omega) hm words

/-- The general file holds nothing beyond the position of the last argument. -/
theorem general_of_length_le (hs : a.shadows = true) (h : a.compile p = .ok inv)
    (words : List Word) {k : Fin 16} (hk : a.position p.args.length ≤ k.val) :
    (inv.assemble (.ofList words)).general k = 0 := by
  have hl := length_numbered (compile_eq_ok_iff.mp h).1
  obtain ⟨d, hd, hp, rfl⟩ := Draft.Positional.of_compile hs h
  have hplaces := a.places_le
  apply getElem_assemble_of_forall_ne (by omega)
  intro m hm he
  have ht := he ▸ hd.taken m hm
  have hg := hp.general
  have hst := hp.stack
  unfold Cursor.Takes at ht
  unfold position at hk
  split at hk <;> omega

/-- A floating-point register of a position that has one holds the float at that position. -/
theorem float_of_isFloat (hs : a.shadows = true) (h : a.compile p = .ok inv)
    {x : Fin 16 × Scalar} (hx : x ∈ numbered p.args) (hf : x.2.isFloat = true)
    (hlt : x.1.val < a.generalCount) (words : List Word) {k : Fin 8} (hk : k.val = x.1.val) :
    (inv.assemble (.ofList words)).float k = argumentWord words x := by
  obtain ⟨d, hd, hp, rfl⟩ := Draft.Positional.of_compile hs h
  have hm := hp.copied x hx hf hlt
  rw [← hk] at hm
  exact getElem_assemble_of_w64 hd (w64_of_shadows hs) hx (by omega) hm words

/-- A floating-point register of a position without a float holds zero. -/
theorem float_of_forall_ne (hs : a.shadows = true) (h : a.compile p = .ok inv) (words : List Word)
    {k : Fin 8} (hk : ∀ x ∈ numbered p.args, x.2.isFloat = true → x.1.val ≠ k.val) :
    (inv.assemble (.ofList words)).float k = 0 := by
  have hplaces := a.places_le
  obtain ⟨d, hd, hp, rfl⟩ := Draft.Positional.of_compile hs h
  apply getElem_assemble_of_forall_ne (by omega)
  intro m hm he
  obtain ⟨x, hx, hf, hlt, rfl⟩ := hp.copies m hm (by omega)
  rw [word, val_place (by omega)] at he
  exact hk x hx hf (by omega)

/-- The mask names the positions of floats outside the variadic part that have a register. -/
theorem fixedFloats_iff_of_shadows (hs : a.shadows = true) (h : a.compile p = .ok inv) {k : Nat}
    (hk : k < 8) : inv.fixedFloats.getLsbD k = true ↔
      ∃ x ∈ numbered p.args, x.1.val = k ∧ k < a.generalCount ∧ x.2.isFloat = true ∧
        p.isVariadicAt k = false := by
  have hplaces := a.places_le
  obtain ⟨d, hd, hp, rfl⟩ := Draft.Positional.of_compile hs h
  change d.fixedFloats.getLsbD k = true ↔ _
  rw [hd.fixed k hk]
  constructor
  · rintro ⟨m, hm, hdest, hv⟩
    obtain ⟨x, hx, hf, hlt, rfl⟩ := hp.copies m hm (by omega)
    rw [word, val_place (by omega)] at hdest
    have hxk : x.1.val = k := by omega
    exact ⟨x, hx, hxk, hxk ▸ hlt, hf, hxk ▸ hv⟩
  · rintro ⟨x, hx, rfl, hlt, hf, hv⟩
    exact ⟨_, hp.copied x hx hf hlt, val_place (by omega), hv⟩

end Allocator

end ForeignCall
