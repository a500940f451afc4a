import ForeignCall.Proofs.Assignment.Step

/-!
# Sound drafts

The invariant of handing out places. The counts stay within what the convention loads, every move
goes to a place that is counted as taken, no two moves go to one place, and each argument so far
is carried by exactly the moves that cut out its native words. The mask names the floating-point
registers that hold an argument outside the variadic part.
-/

namespace ForeignCall

/-- Whether a place of the image is counted as taken. -/
def Cursor.Takes (a : Allocator) (c : Cursor) (k : Nat) : Prop :=
  k < c.general ∨ (a.stackStart ≤ k ∧ k < a.stackStart + c.stack) ∨
    (16 ≤ k ∧ k < 16 + c.float)

/-- The invariant of a draft that compiled the arguments `done` of a prototype. -/
structure Draft.Sound (a : Allocator) (p : Prototype) (done : List (Fin 16 × Scalar))
    (d : Draft) : Prop extends d.cursor.Within a where
  taken : ∀ m ∈ d.moves, d.cursor.Takes a m.dest.val
  distinct : (d.moves.map Move.dest).Nodup
  carried : ∀ x ∈ done, ∀ s ∈ a.shifts x.2, ∃ dest, a.word x.1 s dest ∈ d.moves
  declared : ∀ m ∈ d.moves, ∃ x ∈ done, ∃ s ∈ a.shifts x.2, m = a.word x.1 s m.dest
  fixed : ∀ k, k < 8 → (d.fixedFloats.getLsbD k = true ↔
    ∃ m ∈ d.moves, m.dest.val = 16 + k ∧ p.isVariadicAt m.source.val = false)

namespace Draft.Sound

variable {a : Allocator} {p : Prototype} {done : List (Fin 16 × Scalar)} {d : Draft}

/-- The empty draft is sound. -/
theorem start : Draft.Sound a p [] .start where
  toWithin := .start a
  taken := by simp [Draft.start]
  distinct := by simp [Draft.start]
  carried := by simp
  declared := by simp [Draft.start]
  fixed := by simp [Draft.start]

/-- A sound draft stays sound when it takes places that are free and moves the native words of one
more argument there. -/
theorem extend (h : d.Sound a p done) {x : Fin 16 × Scalar} {c : Cursor} {new : List Move}
    {fixedFloats : BitVec 8} (within : c.Within a)
    (grows : ∀ k, d.cursor.Takes a k → c.Takes a k)
    (taken : ∀ m ∈ new, c.Takes a m.dest.val)
    (fresh : ∀ m ∈ new, ¬d.cursor.Takes a m.dest.val)
    (distinct : (new.map Move.dest).Nodup)
    (carried : ∀ s ∈ a.shifts x.2, ∃ dest, a.word x.1 s dest ∈ new)
    (declared : ∀ m ∈ new, ∃ s ∈ a.shifts x.2, m = a.word x.1 s m.dest)
    (fixed : ∀ k, k < 8 → (fixedFloats.getLsbD k = true ↔ d.fixedFloats.getLsbD k = true ∨
      ∃ m ∈ new, m.dest.val = 16 + k ∧ p.isVariadicAt m.source.val = false)) :
    Draft.Sound a p (done ++ [x]) ⟨c, d.moves ++ new, fixedFloats⟩ where
  toWithin := within
  taken := by
    intro m hm
    rcases List.mem_append.mp hm with hm | hm
    · exact grows _ (h.taken m hm)
    · exact taken m hm
  distinct := by
    rw [List.map_append, List.nodup_append]
    refine ⟨h.distinct, distinct, ?_⟩
    intro i hi j hj he
    obtain ⟨m, hm, rfl⟩ := List.mem_map.mp hi
    obtain ⟨n, hn, rfl⟩ := List.mem_map.mp hj
    exact fresh n hn (he ▸ h.taken m hm)
  carried := by
    intro y hy s hs
    rcases List.mem_append.mp hy with hy | hy
    · obtain ⟨dest, hm⟩ := h.carried y hy s hs
      exact ⟨dest, List.mem_append_left _ hm⟩
    · obtain rfl := List.mem_singleton.mp hy
      obtain ⟨dest, hm⟩ := carried s hs
      exact ⟨dest, List.mem_append_right _ hm⟩
  declared := by
    intro m hm
    rcases List.mem_append.mp hm with hm | hm
    · obtain ⟨y, hy, hs⟩ := h.declared m hm
      exact ⟨y, List.mem_append_left _ hy, hs⟩
    · exact ⟨x, by simp, declared m hm⟩
  fixed := by
    intro k hk
    rw [fixed k hk, h.fixed k hk]
    simp only [List.mem_append, or_and_right, exists_or]

private theorem takes_of_le {c e : Cursor} (hg : c.general ≤ e.general)
    (hf : c.float ≤ e.float) (hs : c.stack ≤ e.stack) (k : Nat) (h : c.Takes a k) :
    e.Takes a k := by
  unfold Cursor.Takes at h ⊢
  omega

private theorem no_float_dest {new : List Move} (hn : ∀ m ∈ new, m.dest.val < 16)
    {fixedFloats : BitVec 8} (k : Nat) :
    fixedFloats.getLsbD k = true ↔ fixedFloats.getLsbD k = true ∨
      ∃ m ∈ new, m.dest.val = 16 + k ∧ p.isVariadicAt m.source.val = false := by
  have hf : ¬∃ m ∈ new, m.dest.val = 16 + k ∧ p.isVariadicAt m.source.val = false := by
    rintro ⟨m, hm, hd, -⟩
    have := hn m hm
    omega
  simp only [hf, or_false]

private theorem getLsbD_setBit (mask : BitVec 8) {k f : Nat} (hk : k < 8) (isFixed : Bool) :
    (if isFixed then mask ||| 1#8 <<< f else mask).getLsbD k = true ↔
      mask.getLsbD k = true ∨ (k = f ∧ isFixed = true) := by
  cases isFixed with
  | false => simp
  | true =>
    simp only [ite_true, BitVec.getLsbD_or, ← BitVec.twoPow_eq, BitVec.getLsbD_twoPow,
      Bool.or_eq_true, Bool.and_eq_true, decide_eq_true_eq, and_true]
    constructor
    · rintro (h | ⟨-, h⟩)
      · exact .inl h
      · exact .inr h.symm
    · rintro (h | rfl)
      · exact .inl h
      · exact .inr ⟨hk, rfl⟩

private theorem inFloat (h : d.Sound a p done) {x : Fin 16 × Scalar}
    (hlt : d.cursor.float < a.floatCount)
    (hwithin : (a.inFloat (!p.isVariadicAt x.1.val) x.1 d).cursor.Within a) :
    (a.inFloat (!p.isVariadicAt x.1.val) x.1 d).Sound a p (done ++ [x]) := by
  obtain ⟨hg, hs, hf⟩ := a.places_le
  have hw : a.wordSize = .w64 := Allocator.w64_of_float hlt
  have hgeneral := h.general_le
  have hstack := h.stack_le
  have hdest : (Allocator.place (16 + d.cursor.float)).val = 16 + d.cursor.float :=
    Allocator.val_place (by omega)
  have hcopy : (Allocator.place d.cursor.float).val = d.cursor.float :=
    Allocator.val_place (by omega)
  -- With registers by position the copy goes to the next integer register: both counts agree.
  have hpos : a.shadows = true → d.cursor.float = d.cursor.general ∧
      a.generalCount = a.floatCount := fun hsh ↦
    ⟨(h.lockstep hsh).symm, Allocator.count_eq_of_shadows hsh⟩
  have hgen : d.cursor.general ≤ (a.inFloat (!p.isVariadicAt x.1.val) x.1 d).cursor.general := by
    simp only [Allocator.inFloat]
    split <;> omega
  apply h.extend
  case within => exact hwithin
  case grows => exact takes_of_le hgen (Nat.le_succ _) (Nat.le_refl _)
  case taken =>
    intro m hm
    rcases Allocator.mem_floatMoves.mp hm with rfl | ⟨hsh, rfl⟩
    · simp only [Allocator.word, Cursor.Takes, hdest]
      omega
    · have := hpos hsh
      simp only [Allocator.word, Cursor.Takes, hcopy, hsh, ite_true]
      omega
  case fresh =>
    intro m hm
    rcases Allocator.mem_floatMoves.mp hm with rfl | ⟨hsh, rfl⟩
    · simp only [Allocator.word, Cursor.Takes, hdest]
      omega
    · have := hpos hsh
      simp only [Allocator.word, Cursor.Takes, hcopy]
      omega
  case distinct =>
    unfold Allocator.floatMoves
    split
    · have hne : Allocator.place (16 + d.cursor.float) ≠ Allocator.place d.cursor.float := by
        intro he
        rw [Fin.ext_iff, hdest, hcopy] at he
        omega
      simp [Allocator.word, hne]
    · simp
  case carried =>
    intro s hs
    rw [Allocator.shifts_of_w64 hw, List.mem_singleton] at hs
    subst hs
    exact ⟨_, Allocator.mem_floatMoves.mpr (.inl rfl)⟩
  case declared =>
    intro m hm
    refine ⟨0, by simp [Allocator.shifts_of_w64 hw], ?_⟩
    rcases Allocator.mem_floatMoves.mp hm with rfl | ⟨-, rfl⟩ <;> rfl
  case fixed =>
    intro k hk
    rw [getLsbD_setBit _ hk]
    apply or_congr_right
    constructor
    · rintro ⟨rfl, hv⟩
      exact ⟨_, Allocator.mem_floatMoves.mpr (.inl rfl), hdest, by
        simpa [Allocator.word] using hv⟩
    · rintro ⟨m, hm, hd, hv⟩
      rcases Allocator.mem_floatMoves.mp hm with rfl | ⟨-, rfl⟩
      · rw [Allocator.word, hdest] at hd
        exact ⟨by omega, by simpa [Allocator.word] using hv⟩
      · rw [Allocator.word, hcopy] at hd
        omega

private theorem inGeneral (h : d.Sound a p done) {x : Fin 16 × Scalar}
    (hlt : d.cursor.general < a.generalCount)
    (hwithin : (a.inGeneral x.1 d).cursor.Within a) :
    (a.inGeneral x.1 d).Sound a p (done ++ [x]) := by
  obtain ⟨hg, hs, hf⟩ := a.places_le
  have hw : a.wordSize = .w64 := Allocator.w64_of_general hlt
  have hdest : (Allocator.place d.cursor.general).val = d.cursor.general :=
    Allocator.val_place (by omega)
  have hnext : d.cursor.float ≤ (a.inGeneral x.1 d).cursor.float := by
    simp only [Allocator.inGeneral]
    split <;> omega
  apply h.extend
  case within => exact hwithin
  case grows => exact takes_of_le (Nat.le_succ _) hnext (Nat.le_refl _)
  case taken =>
    simp only [List.mem_singleton, forall_eq, Allocator.word, Cursor.Takes, hdest]
    omega
  case fresh =>
    simp only [List.mem_singleton, forall_eq, Allocator.word, Cursor.Takes, hdest]
    omega
  case distinct => simp
  case carried => simp [Allocator.shifts_of_w64 hw]
  case declared => simp [Allocator.shifts_of_w64 hw, Allocator.word]
  case fixed =>
    intro k _
    apply no_float_dest
    simp only [List.mem_singleton, forall_eq, Allocator.word, hdest]
    omega

private theorem onStack (h : d.Sound a p done) {x : Fin 16 × Scalar}
    (hle : a.stackStart + d.cursor.stack + (a.shifts x.2).length ≤ 16)
    (hwithin : (a.onStack x.1 x.2 d).cursor.Within a) :
    (a.onStack x.1 x.2 d).Sound a p (done ++ [x]) := by
  obtain ⟨hg, hs, hf⟩ := a.places_le
  have hgeneral := h.general_le
  have hmem {m : Move} (hm : m ∈ a.stackMoves x.1 (a.shifts x.2) d.cursor.stack) :
      ∃ j, ∃ hj : j < (a.shifts x.2).length,
        m = a.word x.1 (a.shifts x.2)[j] (Allocator.place (a.stackStart + d.cursor.stack + j)) ∧
        m.dest.val = a.stackStart + d.cursor.stack + j := by
    obtain ⟨j, hj, rfl⟩ := List.mem_mapIdx.mp hm
    exact ⟨j, hj, rfl, Allocator.val_place (by omega)⟩
  apply h.extend
  case within => exact hwithin
  case grows => exact takes_of_le (Nat.le_refl _) (Nat.le_refl _) (Nat.le_add_right _ _)
  case taken =>
    intro m hm
    obtain ⟨j, hj, -, hd⟩ := hmem hm
    simp only [Cursor.Takes, hd]
    omega
  case fresh =>
    intro m hm
    obtain ⟨j, hj, -, hd⟩ := hmem hm
    simp only [Cursor.Takes, hd]
    omega
  case distinct => exact a.nodup_dest_stackMoves x.1 hle
  case carried =>
    intro s hs
    obtain ⟨j, hj, rfl⟩ := List.mem_iff_getElem.mp hs
    exact ⟨_, List.mem_mapIdx.mpr ⟨j, hj, rfl⟩⟩
  case declared =>
    intro m hm
    obtain ⟨j, hj, rfl, -⟩ := hmem hm
    exact ⟨_, List.getElem_mem hj, rfl⟩
  case fixed =>
    intro k _
    apply no_float_dest
    intro m hm
    obtain ⟨j, hj, -, hd⟩ := hmem hm
    omega

/-- Compiling one more argument keeps a draft sound. -/
theorem assign (h : d.Sound a p done) {x : Fin 16 × Scalar} {e : Draft}
    (hx : a.assign (!p.isVariadicAt x.1.val) x.1 x.2 d = some e) :
    e.Sound a p (done ++ [x]) := by
  have hwithin := h.toWithin.assign hx
  rcases Allocator.assign_cases hx with ⟨-, hlt, rfl⟩ | ⟨-, -, hlt, rfl⟩ | ⟨-, -, hle, rfl⟩
  · exact h.inFloat hlt hwithin
  · exact h.inGeneral hlt hwithin
  · exact h.onStack hle hwithin

/-- A place that is filled is an integer register the allocator may use, a stack word in use or a
floating-point register the allocator may use. -/
theorem dest_cases (h : d.Sound a p done) {m : Move} (hm : m ∈ d.moves) :
    m.dest.val < a.generalCount ∨
      (a.stackStart ≤ m.dest.val ∧ m.dest.val < a.stackStart + d.cursor.stack) ∨
      (16 ≤ m.dest.val ∧ m.dest.val < 16 + a.floatCount) := by
  have htaken := h.taken m hm
  have hgeneral := h.general_le
  have hfloat := h.float_le
  unfold Cursor.Takes at htaken
  omega

/-- The draft of a compiled prototype is sound. -/
theorem of_compile {inv : Invoker} (h : a.compile p = .ok inv) :
    ∃ d, d.Sound a p (Allocator.numbered p.args) ∧ inv = a.finish p d :=
  Allocator.compile_induct (fun done d ↦ d.Sound a p done) start
    (fun _ _ _ _ _ _ hd hx ↦ hd.assign hx) h

/-- What every argument preserves in sound drafts holds of a compiled prototype, besides its draft
being sound. -/
theorem compile_induct {inv : Invoker} (Inv : List (Fin 16 × Scalar) → Draft → Prop)
    (start : Inv [] .start)
    (step : ∀ done x rest d e, Allocator.numbered p.args = done ++ x :: rest → d.Sound a p done →
      Inv done d → a.assign (!p.isVariadicAt x.1.val) x.1 x.2 d = some e → Inv (done ++ [x]) e)
    (h : a.compile p = .ok inv) :
    ∃ d, d.Sound a p (Allocator.numbered p.args) ∧ Inv (Allocator.numbered p.args) d ∧
      inv = a.finish p d := by
  obtain ⟨d, ⟨hsound, hinv⟩, he⟩ := Allocator.compile_induct
    (fun done d ↦ d.Sound a p done ∧ Inv done d) ⟨.start, start⟩
    (fun done x rest d e hsplit hd hx ↦
      ⟨hd.1.assign hx, step done x rest d e hsplit hd.1 hd.2 hx⟩) h
  exact ⟨d, hsound, hinv, he⟩

end Draft.Sound

end ForeignCall
