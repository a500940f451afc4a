import ForeignCall.Proofs.Assignment.Sound

/-!
# Stack words in demand

How many stack words a list of arguments needs depends on how many integers and floats are in it
and on nothing else, although places are handed out one argument after the other. With this count
the outcome of compiling a prototype is known in advance: it fails at the first argument with which
the arguments so far need more stack words than there are, and otherwise takes exactly the words
they need.
-/

namespace ForeignCall

namespace Allocator

/-- How many of the arguments are integers. -/
def integers (args : List Scalar) : Nat := args.countP (!·.isFloat)

/-- How many of the arguments are floats. -/
def floats (args : List Scalar) : Nat := args.countP Scalar.isFloat

/-- The stack words that a list of arguments needs. With 32-bit words all arguments are on the
stack, eight-byte ones in two words and others in one. Otherwise each argument is one word, and
what finds no register is on the stack: integers and floats apart, or integers together with the
floats beyond the floating-point registers, or all arguments where registers go by position. -/
def demand (a : Allocator) (args : List Scalar) : Nat :=
  match a.wordSize, a.policy with
  | .w32, _ => 2 * args.countP (·.bytes = 8) + args.countP (·.bytes ≠ 8)
  | .w64, .registers => (integers args - a.generalCount) + (floats args - a.floatCount)
  | .w64, .registersThenGeneral =>
    (integers args + (floats args - a.floatCount)) - a.generalCount
  | .w64, .shadowGeneral => (integers args + floats args) - a.generalCount

/-- Whether an index is the first at which the arguments up to it need more stack words than the
convention has. -/
def Exceeds (a : Allocator) (args : List Scalar) (i : Nat) : Prop :=
  (i < args.length ∧ 16 - a.convention.generalRegisters < a.demand (args.take (i + 1))) ∧
    ∀ j < i, a.demand (args.take (j + 1)) ≤ 16 - a.convention.generalRegisters

/-! ### One more argument -/

/-- How many floating-point registers a list of arguments could use up. -/
def floatsWanted (a : Allocator) (args : List Scalar) : Nat :=
  if a.shadows then integers args + floats args else floats args

/-- How many integer registers a list of arguments could use up. -/
def generalsWanted (a : Allocator) (args : List Scalar) : Nat :=
  match a.policy with
  | .registers => integers args
  | .registersThenGeneral => integers args + (floats args - a.floatCount)
  | .shadowGeneral => integers args + floats args

/-- One more argument is one more integer unless it is a float. -/
theorem integers_concat (args : List Scalar) (t : Scalar) :
    integers (args ++ [t]) = integers args + if t.isFloat then 0 else 1 := by
  cases h : t.isFloat <;> simp [integers, h]

/-- One more argument is one more float if it is one. -/
theorem floats_concat (args : List Scalar) (t : Scalar) :
    floats (args ++ [t]) = floats args + if t.isFloat then 1 else 0 := by
  cases h : t.isFloat <;> simp [floats, h]

/-- Integers may take integer registers, and floats under one policy. -/
theorem mayTakeGeneral_iff {a : Allocator} {t : Scalar} :
    a.mayTakeGeneral t = true ↔ t.isFloat = false ∨ a.policy = .registersThenGeneral := by
  simp [mayTakeGeneral]

/-- A float wants a floating-point register, and every argument does where registers go by
position. -/
theorem floatsWanted_concat (a : Allocator) (args : List Scalar) (t : Scalar) :
    a.floatsWanted (args ++ [t]) =
      a.floatsWanted args + if a.shadows = true ∨ t.isFloat = true then 1 else 0 := by
  simp only [floatsWanted, integers_concat, floats_concat]
  cases t.isFloat <;> grind

/-- An argument that may take an integer register wants one if it has no floating-point register,
and every argument does where registers go by position. -/
theorem generalsWanted_concat (a : Allocator) (args : List Scalar) (t : Scalar) :
    a.generalsWanted (args ++ [t]) = a.generalsWanted args +
      if a.shadows = true ∨ (a.mayTakeGeneral t = true ∧
        ¬(t.isFloat = true ∧ a.floatsWanted args < a.floatCount)) then 1 else 0 := by
  simp only [generalsWanted, floatsWanted, integers_concat, floats_concat, shadows_iff,
    mayTakeGeneral_iff]
  cases hp : a.policy with
  | registers => cases t.isFloat <;> grind
  | registersThenGeneral => cases t.isFloat <;> grind
  | shadowGeneral => cases t.isFloat <;> grind

/-- Where registers go by position, both kinds are wanted in step. -/
theorem generalsWanted_of_shadows {a : Allocator} (h : a.shadows = true) (args : List Scalar) :
    a.generalsWanted args = a.floatsWanted args := by
  simp only [generalsWanted, shadows_iff.mp h, floatsWanted, h, ite_true]

/-- One more argument needs further stack words only if it finds no register. -/
theorem demand_concat (a : Allocator) (args : List Scalar) (t : Scalar) :
    a.demand (args ++ [t]) = a.demand args +
      if (t.isFloat = true ∧ a.floatsWanted args < a.floatCount) ∨
        (a.mayTakeGeneral t = true ∧ a.generalsWanted args < a.generalCount) then 0
      else (a.shifts t).length := by
  cases hw : a.wordSize with
  | w32 =>
    have hnone : ¬((t.isFloat = true ∧ a.floatsWanted args < a.floatCount) ∨
        (a.mayTakeGeneral t = true ∧ a.generalsWanted args < a.generalCount)) := by
      simp [generalCount_eq_zero hw, floatCount_eq_zero hw]
    rw [if_neg hnone, length_shifts]
    simp only [splits_iff, demand, hw, List.countP_append, List.countP_singleton]
    by_cases ht : t.bytes = 8 <;> simp [ht] <;> omega
  | w64 =>
    simp only [shifts_of_w64 hw, List.length_singleton, demand, hw, floatsWanted, generalsWanted,
      integers_concat, floats_concat, shadows_iff, mayTakeGeneral_iff]
    cases hp : a.policy with
    | registers => cases t.isFloat <;> grind
    | registersThenGeneral => cases t.isFloat <;> grind
    | shadowGeneral =>
      have hcount := (a.paired hp).1
      cases t.isFloat <;> grind

/-- More arguments need no fewer stack words. -/
theorem demand_le_append (a : Allocator) (args rest : List Scalar) :
    a.demand args ≤ a.demand (args ++ rest) := by
  induction rest generalizing args with
  | nil => simp
  | cons t rest ih =>
    have hone := a.demand_concat args t
    have hrest := ih (args ++ [t])
    rw [List.append_assoc, List.singleton_append] at hrest
    omega

/-- Fewer arguments need no more stack words. -/
theorem demand_take_le (a : Allocator) (args : List Scalar) {j k : Nat} (h : j ≤ k) :
    a.demand (args.take j) ≤ a.demand (args.take k) := by
  have hle := a.demand_le_append ((args.take k).take j) ((args.take k).drop j)
  rwa [List.take_append_drop, List.take_take, Nat.min_eq_left h] at hle

/-- Without arguments no stack word is needed. -/
theorem demand_nil (a : Allocator) : a.demand [] = 0 := by
  cases hw : a.wordSize with
  | w32 => simp only [demand, hw, List.countP_nil]
  | w64 => cases hp : a.policy <;> simp [demand, hw, hp, integers, floats]

end Allocator

/-- The invariant of a draft whose counts are those of the arguments so far. -/
structure Draft.Counted (a : Allocator) (args : List Scalar) (d : Draft) : Prop where
  general : d.cursor.general = min (a.generalsWanted args) a.generalCount
  float : d.cursor.float = min (a.floatsWanted args) a.floatCount
  stack : d.cursor.stack = a.demand args

namespace Draft.Counted

variable {a : Allocator} {args : List Scalar} {d e : Draft} {t : Scalar}

/-- No argument is counted at the start. -/
theorem start (a : Allocator) : Draft.Counted a [] .start where
  general := by
    cases hp : a.policy <;>
      simp [Draft.start, Cursor.start, Allocator.generalsWanted, hp, Allocator.integers,
        Allocator.floats]
  float := by
    simp [Draft.start, Cursor.start, Allocator.floatsWanted, Allocator.integers, Allocator.floats]
  stack := a.demand_nil.symm

private theorem float_lt_iff (h : d.Counted a args) :
    d.cursor.float < a.floatCount ↔ a.floatsWanted args < a.floatCount := by
  have := h.float
  omega

private theorem general_lt_iff (h : d.Counted a args) :
    d.cursor.general < a.generalCount ↔ a.generalsWanted args < a.generalCount := by
  have := h.general
  omega

/-- Compiling one more argument counts it. -/
theorem assign (h : d.Counted a args) {isFixed : Bool} {source : Fin 16}
    (hx : a.assign isFixed source t d = some e) : e.Counted a (args ++ [t]) := by
  have hgeneral := h.general
  have hfloat := h.float
  have hgw := a.generalsWanted_concat args t
  have hfw := a.floatsWanted_concat args t
  -- Where registers go by position, both files are used up at the same argument.
  have hpos : a.shadows = true → a.generalsWanted args = a.floatsWanted args ∧
      a.generalCount = a.floatCount := fun hsh ↦
    ⟨Allocator.generalsWanted_of_shadows hsh args, Allocator.count_eq_of_shadows hsh⟩
  rcases Allocator.assign_cases hx with ⟨hf, hlt, rfl⟩ | ⟨hf, hm, hlt, rfl⟩ | ⟨hf, hg, -, rfl⟩
  · rw [h.float_lt_iff] at hlt
    constructor
    case general =>
      simp only [Allocator.inFloat]
      grind
    case float =>
      simp only [Allocator.inFloat]
      grind
    case stack =>
      rw [a.demand_concat, if_pos (.inl ⟨hf, hlt⟩)]
      exact h.stack
  · rw [h.float_lt_iff] at hf
    rw [h.general_lt_iff] at hlt
    constructor
    case general =>
      simp only [Allocator.inGeneral]
      grind
    case float =>
      simp only [Allocator.inGeneral]
      grind
    case stack =>
      rw [a.demand_concat, if_pos (.inr ⟨hm, hlt⟩)]
      exact h.stack
  · rw [h.float_lt_iff] at hf
    rw [h.general_lt_iff] at hg
    have hint : t.isFloat = false → a.mayTakeGeneral t = true :=
      fun ht ↦ Allocator.mayTakeGeneral_iff.mpr (.inl ht)
    constructor
    case general =>
      simp only [Allocator.onStack]
      grind
    case float =>
      simp only [Allocator.onStack]
      grind
    case stack =>
      rw [a.demand_concat, if_neg (not_or.mpr ⟨hf, hg⟩), ← h.stack]
      rfl

/-- After numbered arguments the counts are theirs, and the draft is sound. -/
theorem of_assignAll {p : Prototype} {done : List (Fin 16 × Scalar)}
    (h : a.assignAll p done .start = .ok d) :
    d.Sound a p done ∧ d.Counted a (done.map Prod.snd) :=
  @Allocator.assignAll_induct a p done
    (fun done d ↦ d.Sound a p done ∧ d.Counted a (done.map Prod.snd))
    (fun _ _ _ _ _ _ hd hx ↦ ⟨hd.1.assign hx, by
      rw [List.map_append]
      exact hd.2.assign hx⟩)
    [] done .start d (List.nil_append _).symm ⟨.start, .start a⟩ h

end Draft.Counted

namespace Allocator

variable {a : Allocator} {p : Prototype} {inv : Invoker}

/-! ### The outcome for a prototype -/

/-- A compiled prototype takes the stack words it needs, and they are there. -/
theorem stackWords_of_compile (h : a.compile p = .ok inv) :
    inv.stackWords = a.demand p.args ∧
      a.demand p.args ≤ 16 - a.convention.generalRegisters := by
  obtain ⟨hl, d, hd, rfl⟩ := compile_eq_ok_iff.mp h
  obtain ⟨hsound, hcount⟩ := Draft.Counted.of_assignAll hd
  have hstack := hcount.stack
  have hle := hsound.stack_le
  rw [map_snd_numbered hl] at hstack
  rw [stackStart] at hle
  exact ⟨hstack, by omega⟩

/-- At most one index is the first to exceed the stack words. -/
theorem Exceeds.unique {args : List Scalar} {i j : Nat} (hi : a.Exceeds args i)
    (hj : a.Exceeds args j) : i = j := by
  rcases Nat.lt_trichotomy i j with h | h | h
  · exact absurd hi.1.2 (Nat.not_lt.mpr (hj.2 i h))
  · exact h
  · exact absurd hj.1.2 (Nat.not_lt.mpr (hi.2 j h))

/-- All arguments need at least as many stack words as those up to an index that exceeds them. -/
theorem Exceeds.lt_demand {args : List Scalar} {i : Nat} (h : a.Exceeds args i) :
    16 - a.convention.generalRegisters < a.demand args := by
  have hle := a.demand_take_le args (Nat.succ_le_of_lt h.1.1)
  rw [List.take_length] at hle
  exact Nat.lt_of_lt_of_le h.1.2 hle

/-- The argument that finds no place is the first to exceed the stack words. -/
theorem exceeds_of_assign_eq_none {done rest : List (Fin 16 × Scalar)} {x : Fin 16 × Scalar}
    {d : Draft} (hl : p.args.length ≤ 16) (hsplit : numbered p.args = done ++ x :: rest)
    (hd : a.assignAll p done .start = .ok d) {isFixed : Bool}
    (hx : a.assign isFixed x.1 x.2 d = none) : a.Exceeds p.args x.1.val := by
  obtain ⟨hsound, hcount⟩ := Draft.Counted.of_assignAll hd
  obtain ⟨hf, hg, hfull⟩ := assign_eq_none_iff.mp hx
  have hargs : p.args = done.map Prod.snd ++ x.2 :: rest.map Prod.snd := by
    rw [← map_snd_numbered hl, hsplit, List.map_append, List.map_cons]
  have hbefore : p.args.take done.length = done.map Prod.snd := by
    rw [hargs]
    exact List.take_left' (List.length_map _)
  have hupto : p.args.take (done.length + 1) = done.map Prod.snd ++ [x.2] := by
    rw [hargs, List.append_cons]
    exact List.take_left' (by simp)
  rw [number_eq_length hsplit]
  constructor
  · have hlt : done.length < p.args.length := by
      rw [hargs, List.length_append, List.length_map, List.length_cons]
      omega
    rw [hcount.float_lt_iff] at hf
    rw [hcount.general_lt_iff] at hg
    rw [hcount.stack, stackStart] at hfull
    rw [hupto, a.demand_concat, if_neg (not_or.mpr ⟨hf, hg⟩)]
    have hregisters := a.convention.generalRegisters_le
    exact ⟨hlt, by omega⟩
  · intro j hj
    have hle := a.demand_take_le p.args (show j + 1 ≤ done.length from hj)
    have hroom := hsound.stack_le
    rw [hcount.stack, stackStart] at hroom
    rw [hbefore] at hle
    omega

private theorem exceeds_of_compile_eq_error {error : AllocationError}
    (h : a.compile p = .error error) :
    (16 < p.args.length ∧ error = .tooManyArguments p.text p.args.length) ∨
    (p.args.length ≤ 16 ∧
      ∃ i, a.Exceeds p.args i ∧ error = .capacityExceeded p.text a.convention i) := by
  rcases compile_eq_error_iff.mp h with hmany | ⟨hl, hall⟩
  · exact .inl hmany
  · obtain ⟨done, x, rest, d, hsplit, hd, hx, rfl⟩ := exists_of_assignAll_eq_error hall
    exact .inr ⟨hl, _, exceeds_of_assign_eq_none hl hsplit hd hx, rfl⟩

/-- A prototype does not compile exactly if it has more than sixteen arguments or one of them is
the first to exceed the stack words, and the error says which. -/
theorem compile_eq_error_iff_exceeds {error : AllocationError} : a.compile p = .error error ↔
    (16 < p.args.length ∧ error = .tooManyArguments p.text p.args.length) ∨
    (p.args.length ≤ 16 ∧
      ∃ i, a.Exceeds p.args i ∧ error = .capacityExceeded p.text a.convention i) := by
  refine ⟨exceeds_of_compile_eq_error, ?_⟩
  rintro (hmany | ⟨hl, i, hi, rfl⟩)
  · exact compile_eq_error_iff.mpr (.inl hmany)
  · cases h : a.compile p with
    | ok inv => exact absurd (stackWords_of_compile h).2 (Nat.not_le.mpr hi.lt_demand)
    | error error =>
      rcases exceeds_of_compile_eq_error h with ⟨hmany, -⟩ | ⟨-, j, hj, rfl⟩
      · omega
      · rw [hi.unique hj]

/-- A prototype compiles exactly if it has at most sixteen arguments and the stack words they need
are there. -/
theorem exists_compile_iff : (∃ inv, a.compile p = .ok inv) ↔
    p.args.length ≤ 16 ∧ a.demand p.args ≤ 16 - a.convention.generalRegisters := by
  constructor
  · rintro ⟨inv, h⟩
    exact ⟨(compile_eq_ok_iff.mp h).1, (stackWords_of_compile h).2⟩
  · rintro ⟨hl, hle⟩
    cases h : a.compile p with
    | ok inv => exact ⟨inv, rfl⟩
    | error error =>
      rcases compile_eq_error_iff_exceeds.mp h with ⟨hmany, -⟩ | ⟨-, i, hi, -⟩
      · omega
      · exact absurd hle (Nat.not_le.mpr hi.lt_demand)

/-! ### The presets -/

/-- Every argument is an integer or a float. -/
theorem integers_add_floats (args : List Scalar) : integers args + floats args = args.length := by
  induction args with
  | nil => rfl
  | cons t rest ih =>
    simp only [integers, floats, List.countP_cons, List.length_cons] at ih ⊢
    cases t.isFloat <;> simp <;> omega

/-- With 32-bit words every argument needs a stack word. -/
theorem length_le_demand (hw : a.wordSize = .w32) (args : List Scalar) :
    args.length ≤ a.demand args := by
  have hlength : args.length = args.countP (·.bytes = 8) + args.countP (·.bytes ≠ 8) := by
    simpa using List.length_eq_countP_add_countP (l := args) fun t ↦ decide (t.bytes = 8)
  simp only [demand, hw]
  omega

private theorem exists_compile_x64Unix :
    (∃ inv, x64Unix.compile p = .ok inv) ↔ p.args.length ≤ 16 := by
  have hcount := integers_add_floats p.args
  rw [exists_compile_iff]
  change _ ∧ integers p.args - 6 + (floats p.args - 8) ≤ 16 - 6 ↔ _
  omega

private theorem exists_compile_x64Windows :
    (∃ inv, x64Windows.compile p = .ok inv) ↔ p.args.length ≤ 16 := by
  have hcount := integers_add_floats p.args
  rw [exists_compile_iff]
  change _ ∧ integers p.args + floats p.args - 4 ≤ 16 - 4 ↔ _
  omega

private theorem exists_compile_of_w32 (hw : a.wordSize = .w32) :
    (∃ inv, a.compile p = .ok inv) ↔ a.demand p.args ≤ 16 := by
  have hl := length_le_demand hw p.args
  have hregisters : a.convention.generalRegisters = 0 := stackStart_eq_zero hw
  rw [exists_compile_iff, hregisters]
  omega

/-- The outcome of compiling a prototype, from the arguments alone: which of two errors, and at
which argument, or how many stack words. The x86-64 presets compile all prototypes that a call can
carry, those for 32-bit words the prototypes that need no more than sixteen. -/
theorem compile_outcome (p : Prototype) :
    (∀ a : Allocator,
      (∀ error, a.compile p = .error error ↔
        (16 < p.args.length ∧ error = .tooManyArguments p.text p.args.length) ∨
        (p.args.length ≤ 16 ∧
          ∃ i, a.Exceeds p.args i ∧ error = .capacityExceeded p.text a.convention i)) ∧
      ((∃ inv, a.compile p = .ok inv ∧ inv.stackWords = a.demand p.args) ↔
        p.args.length ≤ 16 ∧ a.demand p.args ≤ 16 - a.convention.generalRegisters)) ∧
    ((∃ inv, x64Unix.compile p = .ok inv) ↔ p.args.length ≤ 16) ∧
    ((∃ inv, x64Windows.compile p = .ok inv) ↔ p.args.length ≤ 16) ∧
    ((∃ inv, x86Cdecl.compile p = .ok inv) ↔ x86Cdecl.demand p.args ≤ 16) ∧
    ((∃ inv, x86Stdcall.compile p = .ok inv) ↔ x86Stdcall.demand p.args ≤ 16) := by
  refine ⟨fun a ↦ ⟨fun error ↦ compile_eq_error_iff_exceeds, ?_⟩, exists_compile_x64Unix,
    exists_compile_x64Windows, exists_compile_of_w32 rfl, exists_compile_of_w32 rfl⟩
  rw [← exists_compile_iff]
  constructor
  · rintro ⟨inv, h, -⟩
    exact ⟨inv, h⟩
  · rintro ⟨inv, h⟩
    exact ⟨inv, h, (stackWords_of_compile h).1⟩

end Allocator

end ForeignCall
