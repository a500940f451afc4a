import ForeignCall.Proofs.Assignment.Classes
import ForeignCall.Proofs.Assignment.Positions
import ForeignCall.Proofs.Call

/-!
# Arguments that reach the callee

A call is faithful if the words a callee finds determine the canonical word of every declared
argument. A System V callee finds the whole image, so its calls are. A Microsoft x64 callee finds
one word for each of the first four positions, and which file it comes from is read off a mask
with the floats outside the variadic part. That is enough where registers go by position, since
the image then keeps a copy of each float in the general file. Under the other policies the two
files are filled apart from each other, and one of two arguments at the same position is hidden.
-/

namespace ForeignCall

/-- Whether the words a callee finds determine every declared argument: of two lists of argument
words that deliver the same, the canonical words agree. -/
def Invoker.Faithful (inv : Invoker) : Prop :=
  ∀ xs ys : List Word, xs.length ≤ 16 → ys.length ≤ 16 →
    inv.deliver? (inv.assemble (.ofList xs)) = inv.deliver? (inv.assemble (.ofList ys)) →
    ∀ (i : Nat) (t : Scalar), inv.args[i]? = some t →
      t.canonical (xs[i]?.getD 0) = t.canonical (ys[i]?.getD 0)

/-- Whether a Microsoft x64 call hides an argument although the prototype compiles: registers do
not go by position, and a variadic float is in a floating-point register, where the callee does
not look, or the first float and the first integer share a position. -/
def Allocator.Hides (a : Allocator) (p : Prototype) : Prop :=
  a.convention = .x64Windows ∧ a.policy ≠ .shadowGeneral ∧
    ((∃ x ∈ a.floatClass (Allocator.numbered p.args), p.isVariadicAt x.1.val = true) ∨
      (a.floatClass (Allocator.numbered p.args) ≠ [] ∧
        a.generalClass (Allocator.numbered p.args) ≠ []))

/-- Whether a call hides an argument can be computed. -/
instance (a : Allocator) (p : Prototype) : Decidable (a.Hides p) :=
  inferInstanceAs (Decidable (_ ∧ _ ∧ _))

/-- The word that is carried. -/
def Carried.word : Carried → Word
  | general word => word
  | float word => word

namespace Allocator

variable {a : Allocator} {p : Prototype} {inv : Invoker}

/-- A call is faithful if lists that deliver the same give the same word for every numbered
argument. -/
theorem faithful_of_forall_numbered (h : a.compile p = .ok inv)
    (hall : ∀ xs ys : List Word,
      inv.deliver? (inv.assemble (.ofList xs)) = inv.deliver? (inv.assemble (.ofList ys)) →
      ∀ x ∈ numbered p.args, argumentWord xs x = argumentWord ys x) : inv.Faithful := by
  intro xs ys _ _ hdeliver
  rw [args_of_compile h]
  exact (forall_numbered_iff (compile_eq_ok_iff.mp h).1 xs ys).mp (hall xs ys hdeliver)

/-! ### System V -/

private theorem image_ext {i j : Image} (hg : i.general = j.general) (hf : i.float = j.float) :
    i = j := by
  apply Vector.ext
  intro k hk
  by_cases hlow : k < 16
  · exact congrFun hg ⟨k, hlow⟩
  · have hword : i[16 + (k - 16)] = j[16 + (k - 16)] :=
      congrFun hf (⟨k - 16, by omega⟩ : Fin 8)
    simpa only [show 16 + (k - 16) = k by omega] using hword

/-- System V calls are faithful. -/
theorem faithful_of_unix (hc : a.convention = .x64Unix) (h : a.compile p = .ok inv) :
    inv.Faithful := by
  have hinv : inv.convention = .x64Unix := (convention_of_compile h).trans hc
  apply faithful_of_forall_numbered h
  intro xs ys hdeliver x hx
  rw [Invoker.deliver?_of_unix hinv, Invoker.deliver?_of_unix hinv, Option.some.injEq,
    Delivery.unix.injEq] at hdeliver
  apply argumentWord_eq_of_assemble_eq h _ hx
  apply image_ext
  · funext k
    simpa using congrArg (fun words : Vector Word 16 ↦ words[k.val]) hdeliver.1
  · funext k
    simpa using congrArg (fun words : Vector Word 8 ↦ words[k.val]) hdeliver.2

/-! ### Microsoft x64: what is shown -/

private theorem windows_places (hc : a.convention = .x64Windows) :
    a.generalCount ≤ 4 ∧ a.floatCount ≤ 4 ∧ a.stackStart = 4 := by
  have hg := a.generalCount_le
  have hf := a.floatCount_le
  rw [hc] at hg hf
  exact ⟨hg, hf, by rw [stackStart, hc]; rfl⟩

private theorem windowsPosition_float {mask : BitVec 8} {k : Fin 16} (hk : k.val < 4)
    (hbit : mask.getLsbD k.val = true) (image : Image) :
    Invoker.windowsPosition mask image k =
      .float (image.float ⟨k.val, Nat.lt_of_lt_of_le hk (Nat.le_add_right 4 4)⟩) := by
  rw [Invoker.windowsPosition, dif_pos hk, if_pos hbit]

private theorem windowsPosition_general {mask : BitVec 8} {k : Fin 16}
    (hbit : k.val < 4 → ¬mask.getLsbD k.val = true) (image : Image) :
    Invoker.windowsPosition mask image k = .general (image.general k) := by
  rw [Invoker.windowsPosition]
  split
  · next hk => rw [if_neg (hbit hk)]
  · rfl

/-- Whether some position of a Microsoft x64 call always carries the word of an argument. -/
def Shows (inv : Invoker) (x : Fin 16 × Scalar) : Prop :=
  ∃ k : Fin 16, ∀ words : List Word,
    (Invoker.windowsPosition inv.fixedFloats (inv.assemble (.ofList words)) k).word =
      argumentWord words x

/-- A Microsoft x64 call that shows every argument is faithful. -/
theorem faithful_of_shows (hc : a.convention = .x64Windows) (h : a.compile p = .ok inv)
    (hshow : ∀ x ∈ numbered p.args, Shows inv x) : inv.Faithful := by
  have hinv : inv.convention = .x64Windows := (convention_of_compile h).trans hc
  apply faithful_of_forall_numbered h
  intro xs ys hdeliver x hx
  rw [Invoker.deliver?_of_windows hinv, Invoker.deliver?_of_windows hinv, Option.some.injEq,
    Delivery.windows.injEq] at hdeliver
  obtain ⟨k, hk⟩ := hshow x hx
  have hword := congrArg (fun positions : Vector Carried 16 ↦ positions[k.val].word) hdeliver
  simp only [Vector.getElem_ofFn] at hword
  rwa [hk xs, hk ys] at hword

/-- Where registers go by position, the position of an argument shows it: a float that is looked
for in a floating-point register is there, and everything else is in the general file. -/
theorem shows_of_shadows (hc : a.convention = .x64Windows) (hs : a.shadows = true)
    (h : a.compile p = .ok inv) {x : Fin 16 × Scalar} (hx : x ∈ numbered p.args) :
    Shows inv x := by
  obtain ⟨hgeneral, -, hstart⟩ := windows_places hc
  refine ⟨⟨a.position x.1.val, position_lt hs h hx⟩, fun words ↦ ?_⟩
  by_cases hbit : a.position x.1.val < 4 ∧ inv.fixedFloats.getLsbD (a.position x.1.val) = true
  · rw [windowsPosition_float hbit.1 hbit.2]
    obtain ⟨y, hy, hyk, hlt, hf, -⟩ :=
      (fixedFloats_iff_of_shadows hs h (by omega)).mp hbit.2
    have hreg : x.1.val < a.generalCount := by
      unfold position at hlt
      split at hlt <;> omega
    have hpos : a.position x.1.val = x.1.val := if_pos hreg
    obtain rfl := eq_of_number_eq hy hx (Fin.ext (hyk.trans hpos))
    exact float_of_isFloat hs h hx hf hreg words hpos
  · rw [windowsPosition_general (not_and.mp hbit)]
    exact getElem_position hs h hx words rfl

private theorem getD_classWords {words : List Word} {args : List (Fin 16 × Scalar)} {k : Nat}
    {x : Fin 16 × Scalar} (hk : args[k]? = some x) :
    (classWords words args)[k]?.getD 0 = argumentWord words x := by
  rw [classWords, List.getElem?_map, hk]
  rfl

/-- Where registers do not go by position, an argument is shown unless the prototype has one that
is hidden. -/
theorem shows_of_not_hides (hc : a.convention = .x64Windows) (hp : a.policy ≠ .shadowGeneral)
    (h : a.compile p = .ok inv) (hn : ¬a.Hides p) {x : Fin 16 × Scalar}
    (hx : x ∈ numbered p.args) : Shows inv x := by
  have hw := w64_of_x64 (.inr hc)
  have hs := shadows_of_ne hp
  obtain ⟨hgeneral, hfloat, hstart⟩ := windows_places hc
  have hstack := length_stackClass_le h hw hs
  have hgl := a.length_generalClass_le (numbered p.args)
  have hfl := a.length_floatClass_le (numbered p.args)
  obtain ⟨hfixed, halone⟩ := not_or.mp fun hcase ↦ hn ⟨hc, hp, hcase⟩
  have hmem := (a.classes_perm _).mem_iff.mpr hx
  simp only [List.mem_append] at hmem
  rcases hmem with hmem | hmem | hmem
  · obtain ⟨k, hk⟩ := List.mem_iff_getElem?.mp hmem
    have hlt := (List.getElem?_eq_some_iff.mp hk).1
    have hbit : inv.fixedFloats.getLsbD k = true := by
      apply (fixedFloats_iff_of_classes h hw hs (by omega)).mpr
      exact ⟨x, hk, Bool.eq_false_iff.mpr fun hv ↦ hfixed ⟨x, hmem, hv⟩⟩
    refine ⟨⟨k, by omega⟩, fun words ↦ ?_⟩
    rw [windowsPosition_float (show k < 4 by omega) hbit]
    exact (assemble_float h hw hs words _).trans (getD_classWords hk)
  · obtain ⟨k, hk⟩ := List.mem_iff_getElem?.mp hmem
    have hlt := (List.getElem?_eq_some_iff.mp hk).1
    have hempty : a.floatClass (numbered p.args) = [] := by
      apply Decidable.not_not.mp
      exact fun hne ↦ halone ⟨hne, List.ne_nil_of_mem hmem⟩
    refine ⟨⟨k, by omega⟩, fun words ↦ ?_⟩
    rw [windowsPosition_general]
    · exact (assemble_general h hw hs words _ (by rw [hstart]; change k < 4; omega)).trans
        (getD_classWords hk)
    · intro _ hbit
      obtain ⟨y, hy, -⟩ :=
        (fixedFloats_iff_of_classes h hw hs (show k < 8 by omega)).mp hbit
      rw [hempty] at hy
      cases hy
  · obtain ⟨k, hk⟩ := List.mem_iff_getElem?.mp hmem
    have hlt := (List.getElem?_eq_some_iff.mp hk).1
    refine ⟨⟨4 + k, by omega⟩, fun words ↦ ?_⟩
    rw [windowsPosition_general (fun hlow ↦ absurd hlow (by change ¬4 + k < 4; omega))]
    refine (assemble_stack h hw hs words _ (by rw [hstart]; exact Nat.le_add_right 4 k)).trans ?_
    rw [hstart, show 4 + k - 4 = k by omega]
    exact getD_classWords hk

/-! ### Microsoft x64: what is hidden -/

/-- The argument words that are zero up to a one at an index. -/
def oneAt (k : Nat) : List Word := List.replicate k 0 ++ [1]

private theorem length_oneAt (k : Nat) : (oneAt k).length = k + 1 := by
  rw [oneAt, List.length_append, List.length_replicate, List.length_singleton]

private theorem getD_oneAt (k j : Nat) : (oneAt k)[j]?.getD 0 = if j = k then 1 else 0 := by
  rw [oneAt, List.getElem?_append, List.getElem?_replicate, List.length_replicate]
  by_cases hlt : j < k
  · rw [if_pos hlt, if_pos hlt, if_neg (by omega)]
    rfl
  · rw [if_neg hlt, List.getElem?_singleton]
    by_cases he : j = k
    · rw [if_pos (by omega), if_pos he]
      rfl
    · rw [if_neg (by omega), if_neg he]
      rfl

private theorem argumentWord_nil (x : Fin 16 × Scalar) : argumentWord [] x = 0 :=
  x.2.canonical_zero

private theorem argumentWord_oneAt {args : List Scalar} {x y : Fin 16 × Scalar}
    (hx : x ∈ numbered args) (hy : y ∈ numbered args) :
    argumentWord (oneAt x.1.val) y = if y = x then 1 else 0 := by
  rw [argumentWord, getD_oneAt]
  by_cases he : y = x
  · rw [if_pos he, if_pos (by rw [he])]
    exact y.2.canonical_one
  · rw [if_neg he, if_neg (fun hk ↦ he (eq_of_number_eq hy hx (Fin.ext hk)))]
    exact y.2.canonical_zero

private theorem getD_classWords_congr {xs ys : List Word} {args : List (Fin 16 × Scalar)} {k : Nat}
    (hsame : ∀ y, args[k]? = some y → argumentWord xs y = argumentWord ys y) :
    (classWords xs args)[k]?.getD 0 = (classWords ys args)[k]?.getD 0 := by
  rw [classWords, classWords, List.getElem?_map, List.getElem?_map]
  cases hk : args[k]? with
  | none => rfl
  | some y => exact hsame y hk

/-- Whether no position of a Microsoft x64 call looks at the place of an argument. -/
structure Unseen (a : Allocator) (p : Prototype) (inv : Invoker) (x : Fin 16 × Scalar) :
    Prop where
  in_float : ∀ k < 4, inv.fixedFloats.getLsbD k = true →
    (a.floatClass (numbered p.args))[k]? ≠ some x
  in_general : ∀ k < 4, ¬inv.fixedFloats.getLsbD k = true →
    (a.generalClass (numbered p.args))[k]? ≠ some x
  on_stack : x ∉ a.stackClass (numbered p.args)

/-- The positions do not depend on the word of an argument that is not seen. -/
theorem windowsPosition_congr (hc : a.convention = .x64Windows) (hp : a.policy ≠ .shadowGeneral)
    (h : a.compile p = .ok inv) {x : Fin 16 × Scalar} (hx : a.Unseen p inv x) {xs ys : List Word}
    (hsame : ∀ y ∈ numbered p.args, y ≠ x → argumentWord xs y = argumentWord ys y) :
    Invoker.windowsPosition inv.fixedFloats (inv.assemble (.ofList xs)) =
      Invoker.windowsPosition inv.fixedFloats (inv.assemble (.ofList ys)) := by
  have hw := w64_of_x64 (.inr hc)
  have hs := shadows_of_ne hp
  obtain ⟨-, -, hstart⟩ := windows_places hc
  funext k
  by_cases hlow : k.val < 4
  · by_cases hbit : inv.fixedFloats.getLsbD k.val = true
    · rw [windowsPosition_float hlow hbit, windowsPosition_float hlow hbit,
        assemble_float h hw hs, assemble_float h hw hs]
      apply congrArg Carried.float
      apply getD_classWords_congr
      intro y hy
      apply hsame y (mem_of_mem_classes (.inl (List.mem_of_getElem? hy)))
      exact fun he ↦ hx.in_float k.val hlow hbit (he ▸ hy)
    · rw [windowsPosition_general (fun _ ↦ hbit), windowsPosition_general (fun _ ↦ hbit),
        assemble_general h hw hs _ _ (by omega), assemble_general h hw hs _ _ (by omega)]
      apply congrArg Carried.general
      apply getD_classWords_congr
      intro y hy
      apply hsame y (mem_of_mem_classes (.inr (.inl (List.mem_of_getElem? hy))))
      exact fun he ↦ hx.in_general k.val hlow hbit (he ▸ hy)
  · rw [windowsPosition_general (fun hlt ↦ absurd hlt hlow),
      windowsPosition_general (fun hlt ↦ absurd hlt hlow),
      assemble_stack h hw hs _ _ (by omega), assemble_stack h hw hs _ _ (by omega)]
    apply congrArg Carried.general
    apply getD_classWords_congr
    intro y hy
    apply hsame y (mem_of_mem_classes (.inr (.inr (List.mem_of_getElem? hy))))
    exact fun he ↦ hx.on_stack (he ▸ List.mem_of_getElem? hy)

/-- A Microsoft x64 call with an argument that is not seen is not faithful. -/
theorem not_faithful_of_unseen (hc : a.convention = .x64Windows) (hp : a.policy ≠ .shadowGeneral)
    (h : a.compile p = .ok inv) {x : Fin 16 × Scalar} (hx : x ∈ numbered p.args)
    (hunseen : a.Unseen p inv x) : ¬inv.Faithful := by
  have hinv : inv.convention = .x64Windows := (convention_of_compile h).trans hc
  -- The words differ in the argument `x` alone, so no other argument tells them apart.
  have hsame (y : Fin 16 × Scalar) (hy : y ∈ numbered p.args) (hne : y ≠ x) :
      argumentWord [] y = argumentWord (oneAt x.1.val) y := by
    rw [argumentWord_nil, argumentWord_oneAt hx hy, if_neg hne]
  have hpositions := windowsPosition_congr hc hp h hunseen hsame
  have hdeliver : inv.deliver? (inv.assemble (.ofList [])) =
      inv.deliver? (inv.assemble (.ofList (oneAt x.1.val))) := by
    rw [Invoker.deliver?_of_windows hinv, Invoker.deliver?_of_windows hinv, hpositions]
  intro hf
  have ht : inv.args[x.1.val]? = some x.2 := by rw [args_of_compile h]; exact mem_numbered.mp hx
  have hl : (oneAt x.1.val).length ≤ 16 := by rw [length_oneAt]; omega
  have hword : argumentWord [] x = argumentWord (oneAt x.1.val) x :=
    hf _ _ (Nat.zero_le _) hl hdeliver x.1.val x.2 ht
  rw [argumentWord_nil, argumentWord_oneAt hx hx, if_pos rfl] at hword
  exact absurd hword (by decide)

private theorem classes_disjoint (a : Allocator) (args : List Scalar) {x : Fin 16 × Scalar} :
    (x ∈ a.floatClass (numbered args) →
      x ∉ a.generalClass (numbered args) ∧ x ∉ a.stackClass (numbered args)) ∧
    (x ∈ a.generalClass (numbered args) → x ∉ a.stackClass (numbered args)) := by
  obtain ⟨-, hrest, hfloat⟩ := List.nodup_append.mp (a.nodup_classes args)
  obtain ⟨-, -, hgeneral⟩ := List.nodup_append.mp hrest
  refine ⟨fun hx ↦ ⟨?_, ?_⟩, fun hx hy ↦ hgeneral x hx x hy rfl⟩
  · exact fun hy ↦ hfloat x hx x (List.mem_append_left _ hy) rfl
  · exact fun hy ↦ hfloat x hx x (List.mem_append_right _ hy) rfl

/-- A call is not faithful if its prototype has an argument that is hidden. -/
theorem not_faithful_of_hides (h : a.compile p = .ok inv) (hh : a.Hides p) : ¬inv.Faithful := by
  obtain ⟨hc, hp, hcase⟩ := hh
  have hw := w64_of_x64 (.inr hc)
  have hs := shadows_of_ne hp
  by_cases hvariadic : ∃ x ∈ a.floatClass (numbered p.args), p.isVariadicAt x.1.val = true
  · obtain ⟨x, hx, hv⟩ := hvariadic
    obtain ⟨hg, hst⟩ := (classes_disjoint a p.args).1 hx
    apply not_faithful_of_unseen hc hp h (mem_of_mem_classes (.inl hx))
    constructor
    case in_float =>
      intro k hk hbit he
      obtain ⟨y, hy, hfixed⟩ := (fixedFloats_iff_of_classes h hw hs (by omega)).mp hbit
      rw [he, Option.some.injEq] at hy
      rw [hy, hfixed] at hv
      cases hv
    case in_general => exact fun k _ _ he ↦ hg (List.mem_of_getElem? he)
    case on_stack => exact hst
  · obtain ⟨hfne, hgne⟩ := hcase.resolve_left hvariadic
    have hfirst := List.getElem?_eq_getElem (List.length_pos_iff.mpr hfne)
    have hbit : inv.fixedFloats.getLsbD 0 = true := by
      apply (fixedFloats_iff_of_classes h hw hs (by omega)).mpr
      refine ⟨_, hfirst, Bool.eq_false_iff.mpr fun hv ↦ ?_⟩
      exact hvariadic ⟨_, List.mem_of_getElem? hfirst, hv⟩
    have hx := List.getElem?_eq_getElem (List.length_pos_iff.mpr hgne)
    have hmem := List.mem_of_getElem? hx
    apply not_faithful_of_unseen hc hp h (mem_of_mem_classes (.inr (.inl hmem)))
    constructor
    case in_float =>
      intro k _ _ he
      exact ((classes_disjoint a p.args).1 (List.mem_of_getElem? he)).1 hmem
    case in_general =>
      intro k _ hunset he
      have hnodup := (List.nodup_append.mp (List.nodup_append.mp (a.nodup_classes p.args)).2.1).1
      have hzero : k = 0 := by
        have hlt := (List.getElem?_eq_some_iff.mp he).1
        exact (List.getElem?_inj hlt hnodup).mp (he.trans hx.symm)
      exact hunset (hzero ▸ hbit)
    case on_stack => exact (classes_disjoint a p.args).2 hmem

/-! ### Which calls are faithful -/

private theorem faithful_of_not_hides (hc : a.convention = .x64Unix ∨ a.convention = .x64Windows)
    (h : a.compile p = .ok inv) (hn : ¬a.Hides p) : inv.Faithful := by
  rcases hc with hc | hc
  · exact faithful_of_unix hc h
  · by_cases hp : a.policy = .shadowGeneral
    · exact faithful_of_shows hc h fun x hx ↦ shows_of_shadows hc (shadows_iff.mpr hp) h hx
    · exact faithful_of_shows hc h fun x hx ↦ shows_of_not_hides hc hp h hn hx

/-- A call under an x86-64 convention is faithful exactly if its allocator hides no argument of
the prototype. -/
theorem faithful_iff_not_hides (hc : a.convention = .x64Unix ∨ a.convention = .x64Windows)
    (h : a.compile p = .ok inv) : inv.Faithful ↔ ¬a.Hides p :=
  ⟨fun hf hh ↦ not_faithful_of_hides h hh hf, faithful_of_not_hides hc h⟩

/-- With both kinds of registers under Microsoft x64, but not by position, an integer before a
float is lost, and integers alone are not. -/
theorem faithful_windows_apart :
    let a : Allocator := ⟨.x64Windows, .little, 4, 4, .registers, by decide, by decide, by decide⟩
    (∃ inv, a.compile (.fixed .i32 [.i32, .f64]) = .ok inv ∧ ¬inv.Faithful) ∧
      ∃ inv, a.compile (.fixed .i32 [.i32, .u8, .i64]) = .ok inv ∧ inv.Faithful := by
  intro a
  refine ⟨⟨_, rfl, ?_⟩, ⟨_, rfl, ?_⟩⟩
  · rw [faithful_iff_not_hides (a := a) (p := .fixed .i32 [.i32, .f64]) (.inr rfl) rfl]
    decide
  · rw [faithful_iff_not_hides (a := a) (p := .fixed .i32 [.i32, .u8, .i64]) (.inr rfl) rfl]
    decide

/-- Not every allocator leaves calls faithful: under Microsoft x64 with registers that do not go
by position, one and zero for an integer before a float are delivered alike. -/
theorem exists_not_faithful :
    ¬∀ (a : Allocator) (p : Prototype) (inv : Invoker),
      a.convention = .x64Unix ∨ a.convention = .x64Windows → a.compile p = .ok inv →
        inv.Faithful := by
  intro hall
  have hf := hall ⟨.x64Windows, .little, 4, 4, .registers, by decide, by decide, by decide⟩
    (.fixed .i32 [.i32, .f64]) _ (.inr rfl) rfl
  have hword := hf [1, 2] [0, 2] (by decide) (by decide) (by decide) 0 .i32 rfl
  exact absurd hword (by decide)

/-- A function type with one argument, a variadic float. -/
def variadicFloat : Prototype := ⟨.i32, [.f64], some 0, by simp⟩

private theorem hides_variadicFloat (hc : a.convention = .x64Windows)
    (hp : a.policy ≠ .shadowGeneral) (hf : 0 < a.floatCount) : a.Hides variadicFloat := by
  refine ⟨hc, hp, .inl ⟨(0, .f64), ?_, rfl⟩⟩
  have hone : (numbered variadicFloat.args).filter (·.2.isFloat) = [(0, .f64)] := by decide
  rw [floatClass, firstOf, hone, List.take_of_length_le (by rw [List.length_singleton]; omega)]
  exact List.mem_singleton.mpr rfl

private theorem exists_compile_variadicFloat (hw : a.wordSize = .w64) :
    ∃ inv, a.compile variadicFloat = .ok inv := by
  have hroom : a.stackStart + Draft.start.cursor.stack + (a.shifts .f64).length ≤ 16 := by
    rw [shifts_of_w64 hw]
    change a.stackStart + 0 + 1 ≤ 16
    have := a.stackStart_le
    omega
  obtain ⟨d, hd⟩ := exists_assign hroom false 0
  have hall : a.assignAll variadicFloat (numbered variadicFloat.args) .start = .ok d := by
    have hfixed : (!variadicFloat.isVariadicAt 0) = false := by decide
    change a.assignAll variadicFloat [(0, .f64)] .start = .ok d
    simp only [assignAll, Fin.val_zero, hfixed, hd]
  exact ⟨_, compile_eq_ok_iff.mpr ⟨by decide, d, hall, rfl⟩⟩

/-- The allocators under which every call is faithful: for Microsoft x64, those with registers by
position and those without floating-point registers. -/
theorem forall_faithful_iff (hc : a.convention = .x64Unix ∨ a.convention = .x64Windows) :
    (∀ (p : Prototype) (inv : Invoker), a.compile p = .ok inv → inv.Faithful) ↔
      (a.convention = .x64Windows → a.policy = .shadowGeneral ∨ a.floatCount = 0) := by
  constructor
  · intro hall hw
    by_cases hp : a.policy = .shadowGeneral
    · exact .inl hp
    · refine .inr (Nat.eq_zero_of_not_pos fun hf ↦ ?_)
      obtain ⟨inv, h⟩ := exists_compile_variadicFloat (w64_of_float hf)
      exact not_faithful_of_hides h (hides_variadicFloat hw hp hf) (hall _ _ h)
  · intro hsafe p inv h
    apply faithful_of_not_hides hc h
    rintro ⟨hw, hp, hcase⟩
    have hnone := (hsafe hw).resolve_left hp
    have hempty : a.floatClass (numbered p.args) = [] := by
      rw [floatClass, firstOf, hnone, List.take_zero]
    rcases hcase with ⟨x, hx, -⟩ | ⟨hne, -⟩
    · rw [hempty] at hx
      cases hx
    · exact hne hempty

end Allocator

end ForeignCall
