import ForeignCall.Proofs.Image

/-!
# Classes of arguments

With 64-bit words, and where registers do not go by position, a compiler sorts the arguments into
three classes, each in declaration order: the first floats as far as there are floating-point
registers, of the others the first that may take an integer register as far as there are any, and
the rest. The places that an allocator hands out one argument at a time are those of this sorting:
the k-th argument of a class is in the k-th place of its file.
-/

namespace ForeignCall

/-! ### The first elements with a property -/

/-- The first `n` elements that satisfy `P`. -/
def firstOf {α : Type} (P : α → Bool) (n : Nat) (xs : List α) : List α := (xs.filter P).take n

/-- The list without its first `n` elements that satisfy `P`. -/
def withoutFirst {α : Type} (P : α → Bool) : Nat → List α → List α
  | _, [] => []
  | n, x :: xs =>
    if P x = true ∧ 0 < n then withoutFirst P (n - 1) xs else x :: withoutFirst P n xs

/-- The first elements and the others are the whole list. -/
theorem firstOf_append_withoutFirst_perm {α : Type} (P : α → Bool) (n : Nat) (xs : List α) :
    (firstOf P n xs ++ withoutFirst P n xs).Perm xs := by
  induction xs generalizing n with
  | nil => simp [firstOf, withoutFirst]
  | cons x xs ih =>
    by_cases hx : P x = true ∧ 0 < n
    · have hn : n = n - 1 + 1 := by omega
      have hf : firstOf P n (x :: xs) = x :: firstOf P (n - 1) xs := by
        rw [firstOf, List.filter_cons_of_pos hx.1, hn, List.take_succ_cons]
        rfl
      rw [hf, withoutFirst, if_pos hx]
      exact (ih (n - 1)).cons x
    · have hf : firstOf P n (x :: xs) = firstOf P n xs := by
        rw [firstOf, firstOf, List.filter_cons]
        split
        · next hp =>
          have hn : n = 0 := by
            have := not_and.mp hx hp
            omega
          simp only [hn, List.take_zero]
        · rfl
      rw [hf, withoutFirst, if_neg hx]
      exact List.perm_middle.trans ((ih n).cons x)

/-- At most `n` elements are the first `n`. -/
theorem length_firstOf_le {α : Type} (P : α → Bool) (n : Nat) (xs : List α) :
    (firstOf P n xs).length ≤ n := by
  rw [firstOf, List.length_take]
  exact Nat.min_le_left _ _

/-- One more element is among the first if it has the property and there is room. -/
theorem firstOf_concat {α : Type} (P : α → Bool) (n : Nat) (xs : List α) (x : α) :
    firstOf P n (xs ++ [x]) =
      if P x = true ∧ (firstOf P n xs).length < n then firstOf P n xs ++ [x]
      else firstOf P n xs := by
  simp only [firstOf, List.filter_append, List.take_append, List.length_take]
  cases hp : P x with
  | false => simp [hp]
  | true =>
    by_cases hn : (xs.filter P).length < n
    · have hm : min n (xs.filter P).length < n := by omega
      have ht : List.take (n - (xs.filter P).length) [x] = [x] := by
        apply List.take_of_length_le
        simp only [List.length_singleton]
        omega
      simp only [List.filter_cons_of_pos hp, List.filter_nil, ht, hm, and_self, ite_true]
    · have hm : ¬min n (xs.filter P).length < n := by omega
      have ht : n - (xs.filter P).length = 0 := by omega
      simp only [ht, List.take_zero, List.append_nil, hm, and_false, ite_false]

/-- One more element is among the others unless it is among the first. -/
theorem withoutFirst_concat {α : Type} (P : α → Bool) (n : Nat) (xs : List α) (x : α) :
    withoutFirst P n (xs ++ [x]) =
      if P x = true ∧ (firstOf P n xs).length < n then withoutFirst P n xs
      else withoutFirst P n xs ++ [x] := by
  induction xs generalizing n with
  | nil => simp [withoutFirst, firstOf]
  | cons y ys ih =>
    rw [List.cons_append, withoutFirst, withoutFirst]
    by_cases hy : P y = true ∧ 0 < n
    · have hl : (firstOf P n (y :: ys)).length < n ↔ (firstOf P (n - 1) ys).length < n - 1 := by
        simp only [firstOf, List.filter_cons_of_pos hy.1, List.length_take, List.length_cons]
        omega
      simp only [if_pos hy, ih, hl]
    · have hl : (firstOf P n (y :: ys)).length < n ↔ (firstOf P n ys).length < n := by
        simp only [firstOf, List.filter_cons, List.length_take]
        split
        · next hp =>
          have := not_and.mp hy hp
          simp only [List.length_cons]
          omega
        · rfl
      simp only [if_neg hy, ih, hl]
      split <;> rfl

/-! ### The three classes -/

namespace Allocator

/-- The floats that find a floating-point register: the first ones. -/
def floatClass (a : Allocator) (args : List (Fin 16 × Scalar)) : List (Fin 16 × Scalar) :=
  firstOf (·.2.isFloat) a.floatCount args

/-- The arguments without a floating-point register. -/
def pastFloat (a : Allocator) (args : List (Fin 16 × Scalar)) : List (Fin 16 × Scalar) :=
  withoutFirst (·.2.isFloat) a.floatCount args

/-- The arguments that find an integer register: of those without a floating-point register the
first that may take one. -/
def generalClass (a : Allocator) (args : List (Fin 16 × Scalar)) : List (Fin 16 × Scalar) :=
  firstOf (a.mayTakeGeneral ·.2) a.generalCount (a.pastFloat args)

/-- The arguments that go onto the stack: the rest. -/
def stackClass (a : Allocator) (args : List (Fin 16 × Scalar)) : List (Fin 16 × Scalar) :=
  withoutFirst (a.mayTakeGeneral ·.2) a.generalCount (a.pastFloat args)

/-- Every argument is in exactly one class. -/
theorem classes_perm (a : Allocator) (args : List (Fin 16 × Scalar)) :
    (a.floatClass args ++ (a.generalClass args ++ a.stackClass args)).Perm args :=
  ((firstOf_append_withoutFirst_perm _ _ _).append_left _).trans
    (firstOf_append_withoutFirst_perm _ _ _)

/-- An argument with a place in a class is one of the arguments. -/
theorem mem_of_mem_classes {a : Allocator} {args : List (Fin 16 × Scalar)}
    {x : Fin 16 × Scalar}
    (h : x ∈ a.floatClass args ∨ x ∈ a.generalClass args ∨ x ∈ a.stackClass args) :
    x ∈ args := by
  apply (a.classes_perm args).mem_iff.mp
  simpa only [List.mem_append] using h

section Concat

variable {a : Allocator} {done : List (Fin 16 × Scalar)} {x : Fin 16 × Scalar}

private theorem classes_concat_float
    (h : x.2.isFloat = true ∧ (a.floatClass done).length < a.floatCount) :
    a.floatClass (done ++ [x]) = a.floatClass done ++ [x] ∧
      a.generalClass (done ++ [x]) = a.generalClass done ∧
      a.stackClass (done ++ [x]) = a.stackClass done := by
  have hp : a.pastFloat (done ++ [x]) = a.pastFloat done := by
    rw [pastFloat, withoutFirst_concat]
    exact if_pos h
  refine ⟨?_, ?_, ?_⟩
  · rw [floatClass, firstOf_concat]
    exact if_pos h
  · rw [generalClass, hp, generalClass]
  · rw [stackClass, hp, stackClass]

private theorem pastFloat_concat
    (h : ¬(x.2.isFloat = true ∧ (a.floatClass done).length < a.floatCount)) :
    a.floatClass (done ++ [x]) = a.floatClass done ∧
      a.pastFloat (done ++ [x]) = a.pastFloat done ++ [x] := by
  refine ⟨?_, ?_⟩
  · rw [floatClass, firstOf_concat]
    exact if_neg h
  · rw [pastFloat, withoutFirst_concat]
    exact if_neg h

private theorem classes_concat_general
    (hf : ¬(x.2.isFloat = true ∧ (a.floatClass done).length < a.floatCount))
    (h : a.mayTakeGeneral x.2 = true ∧ (a.generalClass done).length < a.generalCount) :
    a.floatClass (done ++ [x]) = a.floatClass done ∧
      a.generalClass (done ++ [x]) = a.generalClass done ++ [x] ∧
      a.stackClass (done ++ [x]) = a.stackClass done := by
  obtain ⟨hc, hp⟩ := pastFloat_concat hf
  refine ⟨hc, ?_, ?_⟩
  · rw [generalClass, hp, firstOf_concat]
    exact if_pos h
  · rw [stackClass, hp, withoutFirst_concat]
    exact if_pos h

private theorem classes_concat_stack
    (hf : ¬(x.2.isFloat = true ∧ (a.floatClass done).length < a.floatCount))
    (h : ¬(a.mayTakeGeneral x.2 = true ∧ (a.generalClass done).length < a.generalCount)) :
    a.floatClass (done ++ [x]) = a.floatClass done ∧
      a.generalClass (done ++ [x]) = a.generalClass done ∧
      a.stackClass (done ++ [x]) = a.stackClass done ++ [x] := by
  obtain ⟨hc, hp⟩ := pastFloat_concat hf
  refine ⟨hc, ?_, ?_⟩
  · rw [generalClass, hp, firstOf_concat]
    exact if_neg h
  · rw [stackClass, hp, withoutFirst_concat]
    exact if_neg h

end Concat

end Allocator

/-! ### Places by class -/

/-- Whether the arguments of a list are moved to consecutive places, the first of them `base`. -/
def Allocator.Fills (a : Allocator) (moves : List Move) (base : Nat)
    (args : List (Fin 16 × Scalar)) : Prop :=
  ∀ k x, args[k]? = some x → a.word x.1 0 (Allocator.place (base + k)) ∈ moves

namespace Allocator.Fills

variable {a : Allocator} {moves : List Move} {base : Nat} {args : List (Fin 16 × Scalar)}

/-- No argument needs no move. -/
theorem nil (a : Allocator) (moves : List Move) (base : Nat) : a.Fills moves base [] := by
  intro k x h
  cases h

/-- Further moves leave arguments in their places. -/
theorem append (h : a.Fills moves base args) (new : List Move) :
    a.Fills (moves ++ new) base args :=
  fun k x hk ↦ List.mem_append_left new (h k x hk)

/-- One more argument is moved to the next place. -/
theorem concat (h : a.Fills moves base args) (x : Fin 16 × Scalar) :
    a.Fills (moves ++ [a.word x.1 0 (Allocator.place (base + args.length))]) base
      (args ++ [x]) := by
  intro k y hk
  rw [List.getElem?_append] at hk
  split at hk
  · exact List.mem_append_left _ (h k y hk)
  · next hl =>
    obtain ⟨hlt, he⟩ := List.getElem?_eq_some_iff.mp hk
    simp only [List.length_singleton] at hlt
    rw [List.getElem_singleton] at he
    have hlast : k = args.length := by omega
    rw [hlast, ← he]
    exact List.mem_append_right _ (List.mem_singleton.mpr rfl)

end Allocator.Fills

/-- The invariant of a draft whose arguments are sorted into the three classes. -/
structure Draft.Classified (a : Allocator) (done : List (Fin 16 × Scalar)) (d : Draft) :
    Prop where
  general : d.cursor.general = (a.generalClass done).length
  float : d.cursor.float = (a.floatClass done).length
  stack : d.cursor.stack = (a.stackClass done).length
  in_general : a.Fills d.moves 0 (a.generalClass done)
  in_float : a.Fills d.moves 16 (a.floatClass done)
  on_stack : a.Fills d.moves a.stackStart (a.stackClass done)

namespace Draft.Classified

variable {a : Allocator} {done : List (Fin 16 × Scalar)} {d e : Draft} {x : Fin 16 × Scalar}

/-- In the empty draft all classes are empty. -/
theorem start (a : Allocator) : Draft.Classified a [] .start where
  general := by simp [Draft.start, Cursor.start, Allocator.generalClass, Allocator.pastFloat,
    withoutFirst, firstOf]
  float := by simp [Draft.start, Cursor.start, Allocator.floatClass, firstOf]
  stack := by simp [Draft.start, Cursor.start, Allocator.stackClass, Allocator.pastFloat,
    withoutFirst]
  in_general := by
    simp only [Allocator.generalClass, Allocator.pastFloat, withoutFirst, firstOf,
      List.filter_nil, List.take_nil]
    exact .nil a _ 0
  in_float := by
    simp only [Allocator.floatClass, firstOf, List.filter_nil, List.take_nil]
    exact .nil a _ 16
  on_stack := by
    simp only [Allocator.stackClass, Allocator.pastFloat, withoutFirst]
    exact .nil a _ _

/-- Compiling one more argument sorts it into its class. -/
theorem assign (hw : a.wordSize = .w64) (hs : a.shadows = false) (h : d.Classified a done)
    {isFixed : Bool} (hx : a.assign isFixed x.1 x.2 d = some e) :
    e.Classified a (done ++ [x]) := by
  rcases Allocator.assign_cases hx with ⟨hf, hlt, rfl⟩ | ⟨hf, hm, hlt, rfl⟩ | ⟨hf, hg, -, rfl⟩
  · rw [h.float] at hlt
    obtain ⟨hcf, hcg, hcs⟩ := Allocator.classes_concat_float ⟨hf, hlt⟩
    have hmoves : (a.inFloat isFixed x.1 d).moves =
        d.moves ++ [a.word x.1 0 (Allocator.place (16 + (a.floatClass done).length))] := by
      simp [Allocator.inFloat, Allocator.floatMoves, hs, h.float]
    constructor
    case general => simpa [Allocator.inFloat, hs, hcg] using h.general
    case float => simpa [Allocator.inFloat, hcf] using h.float
    case stack => simpa [Allocator.inFloat, hcs] using h.stack
    case in_general => rw [hmoves, hcg]; exact h.in_general.append _
    case in_float => rw [hmoves, hcf]; exact h.in_float.concat x
    case on_stack => rw [hmoves, hcs]; exact h.on_stack.append _
  · rw [h.float] at hf
    rw [h.general] at hlt
    obtain ⟨hcf, hcg, hcs⟩ := Allocator.classes_concat_general hf ⟨hm, hlt⟩
    have hmoves : (a.inGeneral x.1 d).moves =
        d.moves ++ [a.word x.1 0 (Allocator.place (0 + (a.generalClass done).length))] := by
      simp [Allocator.inGeneral, h.general]
    constructor
    case general => simpa [Allocator.inGeneral, hcg] using h.general
    case float => simpa [Allocator.inGeneral, hs, hcf] using h.float
    case stack => simpa [Allocator.inGeneral, hcs] using h.stack
    case in_general => rw [hmoves, hcg]; exact h.in_general.concat x
    case in_float => rw [hmoves, hcf]; exact h.in_float.append _
    case on_stack => rw [hmoves, hcs]; exact h.on_stack.append _
  · rw [h.float] at hf
    rw [h.general] at hg
    obtain ⟨hcf, hcg, hcs⟩ := Allocator.classes_concat_stack hf hg
    have hmoves : (a.onStack x.1 x.2 d).moves = d.moves ++
        [a.word x.1 0 (Allocator.place (a.stackStart + (a.stackClass done).length))] := by
      simp [Allocator.onStack, Allocator.stackMoves, Allocator.shifts_of_w64 hw, h.stack]
    constructor
    case general => simpa [Allocator.onStack, hcg] using h.general
    case float => simpa [Allocator.onStack, hcf] using h.float
    case stack => simpa [Allocator.onStack, Allocator.shifts_of_w64 hw, hcs] using h.stack
    case in_general => rw [hmoves, hcg]; exact h.in_general.append _
    case in_float => rw [hmoves, hcf]; exact h.in_float.append _
    case on_stack => rw [hmoves, hcs]; exact h.on_stack.concat x

/-- The draft of a compiled prototype is sorted into the three classes, besides being sound. -/
theorem of_compile (hw : a.wordSize = .w64) (hs : a.shadows = false) {p : Prototype}
    {inv : Invoker} (h : a.compile p = .ok inv) :
    ∃ d, d.Sound a p (Allocator.numbered p.args) ∧
      d.Classified a (Allocator.numbered p.args) ∧ inv = a.finish p d :=
  Draft.Sound.compile_induct (fun done d ↦ d.Classified a done) (.start a)
    (fun _ _ _ _ _ _ _ hd hx ↦ hd.assign hw hs hx) h

end Draft.Classified

/-! ### The image by class -/

namespace Allocator

/-- No more arguments are in the float class than there are registers. -/
theorem length_floatClass_le (a : Allocator) (args : List (Fin 16 × Scalar)) :
    (a.floatClass args).length ≤ a.floatCount := length_firstOf_le _ _ _

/-- No more arguments are in the general class than there are registers. -/
theorem length_generalClass_le (a : Allocator) (args : List (Fin 16 × Scalar)) :
    (a.generalClass args).length ≤ a.generalCount := length_firstOf_le _ _ _

/-- The words of a class of arguments, in order. -/
def classWords (words : List Word) (args : List (Fin 16 × Scalar)) : List Word :=
  args.map (argumentWord words)

/-- A class has one word for each argument. -/
theorem length_classWords (words : List Word) (args : List (Fin 16 × Scalar)) :
    (classWords words args).length = args.length := List.length_map _

private theorem getElem_assemble_fills {a : Allocator} {p : Prototype} {d : Draft}
    (hd : d.Sound a p (numbered p.args)) (hw : a.wordSize = .w64) {base k : Nat}
    {args : List (Fin 16 × Scalar)} (hfill : a.Fills d.moves base args)
    (hargs : ∀ x ∈ args, x ∈ numbered p.args) (hk : base + k < 24)
    (hfree : d.cursor.Takes a (base + k) → k < args.length) (words : List Word) :
    ((a.finish p d).assemble (.ofList words))[base + k] =
      (classWords words args)[k]?.getD 0 := by
  rw [classWords, List.getElem?_map]
  cases hx : args[k]? with
  | some x =>
    exact getElem_assemble_of_w64 hd hw (hargs x (List.mem_of_getElem? hx)) hk (hfill k x hx) words
  | none =>
    have hlen := List.getElem?_eq_none_iff.mp hx
    apply getElem_assemble_of_forall_ne hk
    intro m hm he
    have := hfree (he ▸ hd.taken m hm)
    omega

variable {a : Allocator} {p : Prototype} {inv : Invoker}

/-- In a compiled prototype the stack class fits the stack words. -/
theorem length_stackClass_le (h : a.compile p = .ok inv) (hw : a.wordSize = .w64)
    (hs : a.shadows = false) : a.stackStart + (a.stackClass (numbered p.args)).length ≤ 16 := by
  obtain ⟨d, hd, hc, -⟩ := Draft.Classified.of_compile hw hs h
  rw [← hc.stack]
  exact hd.stack_le

/-- The floating-point file holds the words of the float class, then zeros. -/
theorem assemble_float (h : a.compile p = .ok inv) (hw : a.wordSize = .w64)
    (hs : a.shadows = false) (words : List Word) (k : Fin 8) :
    (inv.assemble (.ofList words)).float k =
      (classWords words (a.floatClass (numbered p.args)))[k.val]?.getD 0 := by
  obtain ⟨d, hd, hc, rfl⟩ := Draft.Classified.of_compile hw hs h
  apply getElem_assemble_fills hd hw hc.in_float (fun x hx ↦ mem_of_mem_classes (.inl hx))
  intro ht
  have hle := a.places_le
  have hg := hd.general_le
  have hst := hd.stack_le
  rw [← hc.float]
  unfold Cursor.Takes at ht
  omega

/-- The integer registers hold the words of the general class, then zeros. -/
theorem assemble_general (h : a.compile p = .ok inv) (hw : a.wordSize = .w64)
    (hs : a.shadows = false) (words : List Word) (k : Fin 16) (hk : k.val < a.stackStart) :
    (inv.assemble (.ofList words)).general k =
      (classWords words (a.generalClass (numbered p.args)))[k.val]?.getD 0 := by
  obtain ⟨d, hd, hc, rfl⟩ := Draft.Classified.of_compile hw hs h
  have hr := getElem_assemble_fills hd hw (k := k.val) hc.in_general
    (fun x hx ↦ mem_of_mem_classes (.inr (.inl hx))) (by omega) (by
      intro ht
      have hle := a.places_le
      rw [← hc.general]
      unfold Cursor.Takes at ht
      omega) words
  simp only [Nat.zero_add] at hr
  exact hr

/-- The stack words hold the words of the stack class, then zeros. -/
theorem assemble_stack (h : a.compile p = .ok inv) (hw : a.wordSize = .w64)
    (hs : a.shadows = false) (words : List Word) (k : Fin 16) (hk : a.stackStart ≤ k.val) :
    (inv.assemble (.ofList words)).general k =
      (classWords words (a.stackClass (numbered p.args)))[k.val - a.stackStart]?.getD 0 := by
  obtain ⟨d, hd, hc, rfl⟩ := Draft.Classified.of_compile hw hs h
  have hsum : a.stackStart + (k.val - a.stackStart) = k.val := by omega
  have hr := getElem_assemble_fills hd hw (k := k.val - a.stackStart) hc.on_stack
    (fun x hx ↦ mem_of_mem_classes (.inr (.inr hx))) (by omega) (by
      intro ht
      have hle := a.places_le
      have hg := hd.general_le
      rw [← hc.stack]
      unfold Cursor.Takes at ht
      omega) words
  simp only [hsum] at hr
  exact hr

/-- The mask names the registers of floats outside the variadic part. -/
theorem fixedFloats_iff_of_classes (h : a.compile p = .ok inv) (hw : a.wordSize = .w64)
    (hs : a.shadows = false) {k : Nat} (hk : k < 8) : inv.fixedFloats.getLsbD k = true ↔
      ∃ x, (a.floatClass (numbered p.args))[k]? = some x ∧ p.isVariadicAt x.1.val = false := by
  obtain ⟨d, hd, hc, rfl⟩ := Draft.Classified.of_compile hw hs h
  change d.fixedFloats.getLsbD k = true ↔ _
  rw [hd.fixed k hk]
  constructor
  · rintro ⟨m, hm, hdest, hv⟩
    have hlt : k < (a.floatClass (numbered p.args)).length := by
      have ht := hdest ▸ hd.taken m hm
      have hle := a.places_le
      have hg := hd.general_le
      have hst := hd.stack_le
      rw [← hc.float]
      unfold Cursor.Takes at ht
      omega
    have hx := List.getElem?_eq_getElem hlt
    have hword := hc.in_float k _ hx
    have he : m = a.word (a.floatClass (numbered p.args))[k].1 0 (place (16 + k)) :=
      Move.eq_of_dest_eq hd.distinct hword hm (hdest.trans (val_place (by omega)).symm)
    exact ⟨_, hx, by rw [he] at hv; exact hv⟩
  · rintro ⟨x, hx, hv⟩
    exact ⟨_, hc.in_float k x hx, val_place (by omega), hv⟩

/-- Numbered arguments differ in their numbers. -/
theorem eq_of_number_eq {args : List Scalar} {x y : Fin 16 × Scalar} (hx : x ∈ numbered args)
    (hy : y ∈ numbered args) (he : x.1 = y.1) : x = y := by
  have ht := mem_numbered.mp hx
  rw [he, mem_numbered.mp hy] at ht
  exact Prod.ext he (Option.some.inj ht).symm

/-- No argument is in two places of its class or in two classes. -/
theorem nodup_classes (a : Allocator) (args : List Scalar) :
    (a.floatClass (numbered args) ++
      (a.generalClass (numbered args) ++ a.stackClass (numbered args))).Nodup := by
  rw [(a.classes_perm _).nodup_iff, List.nodup_iff_pairwise_ne, List.pairwise_iff_getElem]
  intro i j hi hj hij he
  have hnum (k : Nat) (hk : k < (numbered args).length) : (numbered args)[k].1.val = k :=
    ((getElem?_numbered args k _).mp (List.getElem?_eq_getElem hk)).1
  have hval := hnum i hi
  rw [he, hnum j hj] at hval
  omega

end Allocator

end ForeignCall
