import ForeignCall.Assignment

/-!
# What one argument takes

Compiling one argument has four outcomes: a floating-point register, an integer register, stack
words, or no place. They are written out here as one equation for all allocators, with a name for
each draft that comes out, and what a single argument preserves is carried over to whole
prototypes.
-/

namespace ForeignCall.Allocator

/-! ### Word size -/

/-- A convention with 32-bit words has no integer registers for arguments. -/
theorem generalCount_eq_zero {a : Allocator} (h : a.wordSize = .w32) : a.generalCount = 0 := by
  have hg := a.generalCount_le
  unfold wordSize at h
  cases hc : a.convention <;> simp_all [Convention.wordSize, Convention.generalRegisters]

/-- A convention with 32-bit words has no floating-point registers for arguments. -/
theorem floatCount_eq_zero {a : Allocator} (h : a.wordSize = .w32) : a.floatCount = 0 := by
  have hf := a.floatCount_le
  unfold wordSize at h
  cases hc : a.convention <;> simp_all [Convention.wordSize, Convention.floatRegisters]

/-- With 32-bit words the stack starts at the first place. -/
theorem stackStart_eq_zero {a : Allocator} (h : a.wordSize = .w32) : a.stackStart = 0 := by
  unfold wordSize at h
  cases hc : a.convention <;>
    simp_all [Convention.wordSize, Convention.generalRegisters, stackStart]

/-- Where there is an integer register for arguments, words have 64 bits. -/
theorem w64_of_general {a : Allocator} {k : Nat} (h : k < a.generalCount) :
    a.wordSize = .w64 := by
  cases hw : a.wordSize with
  | w64 => rfl
  | w32 =>
    have := generalCount_eq_zero hw
    omega

/-- Where there is a floating-point register for arguments, words have 64 bits. -/
theorem w64_of_float {a : Allocator} {k : Nat} (h : k < a.floatCount) : a.wordSize = .w64 := by
  cases hw : a.wordSize with
  | w64 => rfl
  | w32 =>
    have := floatCount_eq_zero hw
    omega

/-- With 64-bit words every value is one word. -/
theorem shifts_of_w64 {a : Allocator} (h : a.wordSize = .w64) (t : Scalar) : a.shifts t = [0] := by
  simp [shifts, splits, h]

/-- The x86-64 conventions have 64-bit words. -/
theorem w64_of_x64 {a : Allocator} (h : a.convention = .x64Unix ∨ a.convention = .x64Windows) :
    a.wordSize = .w64 := by
  unfold wordSize
  rcases h with h | h
  · rw [h]; rfl
  · rw [h]; rfl

/-- The 32-bit conventions have 32-bit words. -/
theorem w32_of_x86 {a : Allocator} (h : a.convention = .x86Cdecl ∨ a.convention = .x86Stdcall) :
    a.wordSize = .w32 := by
  unfold wordSize
  rcases h with h | h
  · rw [h]; rfl
  · rw [h]; rfl

/-- Under any other policy registers do not go by position. -/
theorem shadows_of_ne {a : Allocator} (h : a.policy ≠ .shadowGeneral) : a.shadows = false :=
  Bool.eq_false_iff.mpr (mt shadows_iff.mp h)

/-- Registers by position exist with 64-bit words only. -/
theorem w64_of_shadows {a : Allocator} (h : a.shadows = true) : a.wordSize = .w64 := by
  exact (a.paired (shadows_iff.mp h)).2

/-- Arguments take no more registers than there are places before the stack words, and the stack
words start within the general file. -/
theorem places_le (a : Allocator) :
    a.generalCount ≤ a.stackStart ∧ a.stackStart ≤ 6 ∧ a.floatCount ≤ 8 :=
  ⟨a.generalCount_le, a.stackStart_le,
    Nat.le_trans a.floatCount_le a.convention.floatRegisters_le⟩

/-! ### Moves and drafts -/

/-- The place of the image with a given number. -/
def place (k : Nat) : Fin 24 := Fin.ofNat 24 k

/-- The number of a place. -/
theorem val_place {k : Nat} (h : k < 24) : (place k).val = k := Nat.mod_eq_of_lt h

/-- The move of one native word of a slot. -/
def word (a : Allocator) (source : Fin 16) (shift : Fin 64) (dest : Fin 24) : Move :=
  ⟨source, shift, a.wordSize.mask, 0, dest⟩

/-- With 64-bit words the native word is the whole slot. -/
theorem word_of_w64 {a : Allocator} (h : a.wordSize = .w64) (source : Fin 16) (dest : Fin 24) :
    a.word source 0 dest = .whole source dest := by
  simp only [word, h, WordSize.mask, Move.whole]

/-- The moves of words onto consecutive stack words, the first of them numbered `k`. -/
def stackMoves (a : Allocator) (source : Fin 16) (shifts : List (Fin 64)) (k : Nat) :
    List Move :=
  shifts.mapIdx fun j shift ↦ a.word source shift (place (a.stackStart + k + j))

private theorem stackMoves_cons (a : Allocator) (source : Fin 16) (shift : Fin 64)
    (rest : List (Fin 64)) (k : Nat) :
    a.stackMoves source (shift :: rest) k =
      a.word source shift (place (a.stackStart + k)) :: a.stackMoves source rest (k + 1) := by
  simp only [stackMoves, List.mapIdx_cons, Nat.add_zero, List.cons.injEq, true_and]
  apply List.mapIdx_eq_mapIdx_iff.mpr
  intro j hj
  rw [show a.stackStart + k + (j + 1) = a.stackStart + (k + 1) + j by omega]

/-- Words on the stack have places of their own. -/
theorem nodup_dest_stackMoves (a : Allocator) (source : Fin 16) {shifts : List (Fin 64)} {k : Nat}
    (h : a.stackStart + k + shifts.length ≤ 16) :
    ((a.stackMoves source shifts k).map Move.dest).Nodup := by
  rw [List.nodup_iff_pairwise_ne, List.pairwise_iff_getElem]
  intro i j hi hj hij
  simp only [stackMoves, List.length_map, List.length_mapIdx] at hi hj
  simp only [stackMoves, List.getElem_map, List.getElem_mapIdx, word]
  intro he
  rw [Fin.ext_iff, val_place (by omega), val_place (by omega)] at he
  omega

/-- The moves of a value into a floating-point register, and into the integer register of the same
position where registers go by position. -/
def floatMoves (a : Allocator) (source : Fin 16) (k : Nat) : List Move :=
  a.word source 0 (place (16 + k)) ::
    if a.shadows then [a.word source 0 (place k)] else []

/-- The moves of a value into a floating-point register, one by one. -/
theorem mem_floatMoves {a : Allocator} {source : Fin 16} {k : Nat} {m : Move} :
    m ∈ a.floatMoves source k ↔ m = a.word source 0 (place (16 + k)) ∨
      (a.shadows = true ∧ m = a.word source 0 (place k)) := by
  unfold floatMoves
  cases a.shadows <;> simp

/-- The draft after a value went into a floating-point register. -/
def inFloat (a : Allocator) (isFixed : Bool) (source : Fin 16) (d : Draft) : Draft where
  cursor :=
    ⟨if a.shadows then d.cursor.general + 1 else d.cursor.general, d.cursor.float + 1,
      d.cursor.stack⟩
  moves := d.moves ++ a.floatMoves source d.cursor.float
  fixedFloats :=
    if isFixed then d.fixedFloats ||| 1#8 <<< d.cursor.float else d.fixedFloats

/-- The draft after a value went into an integer register. -/
def inGeneral (a : Allocator) (source : Fin 16) (d : Draft) : Draft where
  cursor :=
    ⟨d.cursor.general + 1, if a.shadows then d.cursor.float + 1 else d.cursor.float,
      d.cursor.stack⟩
  moves := d.moves ++ [a.word source 0 (place d.cursor.general)]
  fixedFloats := d.fixedFloats

/-- The draft after a value went onto the stack. -/
def onStack (a : Allocator) (source : Fin 16) (t : Scalar) (d : Draft) : Draft where
  cursor := ⟨d.cursor.general, d.cursor.float, d.cursor.stack + (a.shifts t).length⟩
  moves := d.moves ++ a.stackMoves source (a.shifts t) d.cursor.stack
  fixedFloats := d.fixedFloats

/-- Whether a value without a floating-point register may take an integer register. -/
def mayTakeGeneral (a : Allocator) (t : Scalar) : Bool :=
  !t.isFloat || a.policy = .registersThenGeneral

/-! ### The outcomes for one argument -/

private theorem takeWord_general {a : Allocator} (registers : Bool) {c : Cursor}
    (h : registers = true ∧ c.general < a.generalCount) :
    a.takeWord registers c = some (place c.general,
      ⟨c.general + 1, if a.shadows then c.float + 1 else c.float, c.stack⟩) := by
  have hg := a.generalCount_le
  have hr := a.convention.generalRegisters_le
  have hp : place c.general = ⟨c.general, by omega⟩ := Fin.ext (val_place (by omega))
  rw [takeWord, dif_pos h, hp]

private theorem takeWord_stack {a : Allocator} {registers : Bool} {c : Cursor}
    (h : ¬(registers = true ∧ c.general < a.generalCount)) :
    a.takeWord registers c =
      if a.stackStart + c.stack < 16 then
        some (place (a.stackStart + c.stack), ⟨c.general, c.float, c.stack + 1⟩)
      else none := by
  rw [takeWord, dif_neg h]
  split
  · next hs =>
    have hp : place (a.stackStart + c.stack) = ⟨a.stackStart + c.stack, by omega⟩ :=
      Fin.ext (val_place (by omega))
    rw [hp]
  · rfl

-- A value is never split between a register and the stack, so the words after the first follow
-- it there.
private theorem takeWords_stack {a : Allocator} (registers : Bool) {c : Cursor}
    (h : ¬(registers = true ∧ c.general < a.generalCount)) (source : Fin 16)
    (shift : Fin 64) (rest : List (Fin 64)) :
    a.takeWords registers source (shift :: rest) c =
      if a.stackStart + c.stack + (shift :: rest).length ≤ 16 then
        some (a.stackMoves source (shift :: rest) c.stack,
          ⟨c.general, c.float, c.stack + (shift :: rest).length⟩)
      else none := by
  induction rest generalizing shift c with
  | nil =>
    rw [takeWords, takeWord_stack h]
    by_cases hs : a.stackStart + c.stack < 16
    · simp only [hs, ite_true, takeWords, stackMoves_cons, List.length_cons, List.length_nil,
        Nat.zero_add, show a.stackStart + c.stack + 1 ≤ 16 by omega, word]
      rfl
    · simp only [hs, ite_false, List.length_cons, List.length_nil, Nat.zero_add,
        show ¬a.stackStart + c.stack + 1 ≤ 16 by omega]
  | cons next rest ih =>
    rw [takeWords, takeWord_stack h]
    by_cases hs : a.stackStart + c.stack < 16
    · simp only [hs, ite_true]
      rw [ih (c := ⟨c.general, c.float, c.stack + 1⟩) h]
      by_cases hl : a.stackStart + (c.stack + 1) + (next :: rest).length ≤ 16
      · have hl' : a.stackStart + c.stack + (shift :: next :: rest).length ≤ 16 := by
          simp only [List.length_cons] at hl ⊢
          omega
        have hn : c.stack + 1 + (next :: rest).length =
            c.stack + (shift :: next :: rest).length := by
          simp only [List.length_cons]
          omega
        simp only [hl, hl', ite_true, hn, stackMoves_cons, word]
      · have hl' : ¬a.stackStart + c.stack + (shift :: next :: rest).length ≤ 16 := by
          simp only [List.length_cons] at hl ⊢
          omega
        simp only [hl, hl', ite_false]
    · have hl : ¬a.stackStart + c.stack + (shift :: next :: rest).length ≤ 16 := by
        simp only [List.length_cons]
        omega
      simp only [hs, hl, ite_false]

/-- A value is one word or two. -/
theorem exists_shifts (a : Allocator) (t : Scalar) :
    ∃ shift rest, a.shifts t = shift :: rest := by
  unfold shifts
  split
  · cases a.order
    · exact ⟨0, [32], rfl⟩
    · exact ⟨32, [0], rfl⟩
  · exact ⟨0, [], rfl⟩

/-- The values that are split are those of eight bytes, with 32-bit words. -/
theorem splits_iff {a : Allocator} {t : Scalar} :
    a.splits t = true ↔ a.wordSize = .w32 ∧ t.bytes = 8 := by
  cases t <;> simp [splits, Scalar.bytes]

/-- A value has a word for each half if it is split. -/
theorem length_shifts (a : Allocator) (t : Scalar) :
    (a.shifts t).length = if a.splits t then 2 else 1 := by
  unfold shifts
  split
  · cases a.order <;> rfl
  · rfl

/-- Words are cut at the halves of a container. -/
theorem shift_eq {a : Allocator} {t : Scalar} {s : Fin 64} (h : s ∈ a.shifts t) :
    s = 0 ∨ s = 32 := by
  unfold shifts at h
  split at h
  · cases ho : a.order <;> simp only [ho, List.mem_cons, List.not_mem_nil, or_false] at h
    · exact h
    · exact h.symm
  · exact .inl (List.mem_singleton.mp h)

/-- The outcome for one argument: a floating-point register for a float if one is left, else an
integer register if it may have one and one is left, else stack words if they are enough. -/
theorem assign_eq (a : Allocator) (isFixed : Bool) (source : Fin 16) (t : Scalar) (d : Draft) :
    a.assign isFixed source t d =
      if t.isFloat = true ∧ d.cursor.float < a.floatCount then some (a.inFloat isFixed source d)
      else if a.mayTakeGeneral t = true ∧ d.cursor.general < a.generalCount then
        some (a.inGeneral source d)
      else if a.stackStart + d.cursor.stack + (a.shifts t).length ≤ 16 then
        some (a.onStack source t d)
      else none := by
  unfold assign
  by_cases hf : t.isFloat = true ∧ d.cursor.float < a.floatCount
  · have hc := a.floatCount_le
    have hr := a.convention.floatRegisters_le
    have hw : a.wordSize = .w64 := w64_of_float hf.2
    have h16 : place (16 + d.cursor.float) = ⟨16 + d.cursor.float, by omega⟩ :=
      Fin.ext (val_place (by omega))
    have h0 : place d.cursor.float = ⟨d.cursor.float, by omega⟩ := Fin.ext (val_place (by omega))
    simp only [hf, and_self, dite_true, ite_true, inFloat, floatMoves, word_of_w64 hw, h16, h0]
  · simp only [hf, dite_false, ite_false]
    by_cases hg : a.mayTakeGeneral t = true ∧ d.cursor.general < a.generalCount
    · have hw : a.wordSize = .w64 := w64_of_general hg.2
      rw [if_pos hg, shifts_of_w64 hw]
      simp only [takeWords, takeWord_general (!t.isFloat || _) hg, inGeneral, word]
    · obtain ⟨shift, rest, hs⟩ := a.exists_shifts t
      rw [if_neg hg, hs, takeWords_stack (!t.isFloat || _) hg]
      by_cases hl : a.stackStart + d.cursor.stack + (shift :: rest).length ≤ 16
      · simp only [hl, ite_true, onStack, hs]
      · simp only [hl, ite_false]

/-- The three ways in which one argument finds its place. -/
theorem assign_cases {a : Allocator} {isFixed : Bool} {source : Fin 16} {t : Scalar}
    {d e : Draft} (h : a.assign isFixed source t d = some e) :
    (t.isFloat = true ∧ d.cursor.float < a.floatCount ∧ e = a.inFloat isFixed source d) ∨
    (¬(t.isFloat = true ∧ d.cursor.float < a.floatCount) ∧ a.mayTakeGeneral t = true ∧
      d.cursor.general < a.generalCount ∧ e = a.inGeneral source d) ∨
    (¬(t.isFloat = true ∧ d.cursor.float < a.floatCount) ∧
      ¬(a.mayTakeGeneral t = true ∧ d.cursor.general < a.generalCount) ∧
      a.stackStart + d.cursor.stack + (a.shifts t).length ≤ 16 ∧
      e = a.onStack source t d) := by
  rw [assign_eq] at h
  split at h
  · next hf => exact .inl ⟨hf.1, hf.2, (Option.some.inj h).symm⟩
  · next hf =>
    split at h
    · next hg => exact .inr (.inl ⟨hf, hg.1, hg.2, (Option.some.inj h).symm⟩)
    · next hg =>
      split at h
      · next hs => exact .inr (.inr ⟨hf, hg, hs, (Option.some.inj h).symm⟩)
      · cases h

/-- An argument finds no place if it finds no register and its words do not fit the stack. -/
theorem assign_eq_none_iff {a : Allocator} {isFixed : Bool} {source : Fin 16} {t : Scalar}
    {d : Draft} : a.assign isFixed source t d = none ↔
      ¬(t.isFloat = true ∧ d.cursor.float < a.floatCount) ∧
      ¬(a.mayTakeGeneral t = true ∧ d.cursor.general < a.generalCount) ∧
      16 < a.stackStart + d.cursor.stack + (a.shifts t).length := by
  rw [assign_eq]
  split
  · next hf => exact ⟨nofun, fun h ↦ absurd hf h.1⟩
  · next hf =>
    split
    · next hg => exact ⟨nofun, fun h ↦ absurd hg h.2.1⟩
    · next hg =>
      split
      · next hle => exact ⟨nofun, fun h ↦ absurd hle (Nat.not_le.mpr h.2.2)⟩
      · next hle => exact ⟨fun _ ↦ ⟨hf, hg, Nat.not_le.mp hle⟩, fun _ ↦ rfl⟩

/-- An argument finds a place at the latest on the stack. -/
theorem exists_assign {a : Allocator} {t : Scalar} {d : Draft}
    (h : a.stackStart + d.cursor.stack + (a.shifts t).length ≤ 16) (isFixed : Bool)
    (source : Fin 16) : ∃ e, a.assign isFixed source t d = some e := by
  rw [assign_eq, if_pos h]
  split
  · exact ⟨_, rfl⟩
  · split
    · exact ⟨_, rfl⟩
    · exact ⟨_, rfl⟩

/-! ### From one argument to a prototype -/

/-- The invoker of a finished draft. -/
def finish (a : Allocator) (p : Prototype) (d : Draft) : Invoker where
  convention := a.convention
  ret := p.ret
  args := p.args
  moves := d.moves
  stackWords := d.cursor.stack
  fixedFloats := d.fixedFloats

/-- A prototype compiles exactly if it has at most sixteen arguments and each finds a place. -/
theorem compile_eq_ok_iff {a : Allocator} {p : Prototype} {inv : Invoker} :
    a.compile p = .ok inv ↔ p.args.length ≤ 16 ∧
      ∃ d, a.assignAll p (numbered p.args) .start = .ok d ∧ inv = a.finish p d := by
  unfold compile
  by_cases hl : 16 < p.args.length
  · simp only [hl, ite_true, reduceCtorEq, false_iff]
    rintro ⟨h, -⟩
    omega
  · have hl' : p.args.length ≤ 16 := by omega
    simp only [hl, ite_false, hl', true_and]
    cases h : a.assignAll p (numbered p.args) .start with
    | error e => simp
    | ok d => simp [finish, eq_comm]

/-- A prototype does not compile if it has more than sixteen arguments or one of them finds no
place. -/
theorem compile_eq_error_iff {a : Allocator} {p : Prototype} {error : AllocationError} :
    a.compile p = .error error ↔
      (16 < p.args.length ∧ error = .tooManyArguments p.text p.args.length) ∨
      (p.args.length ≤ 16 ∧ a.assignAll p (numbered p.args) .start = .error error) := by
  unfold compile
  by_cases hl : 16 < p.args.length
  · have hl' : ¬p.args.length ≤ 16 := by omega
    simp only [hl, ite_true, Except.error.injEq, true_and, hl', false_and, or_false, eq_comm]
  · have hl' : p.args.length ≤ 16 := by omega
    simp only [hl, ite_false, hl', true_and, false_and, false_or]
    cases h : a.assignAll p (numbered p.args) .start with
    | error e => simp
    | ok d => simp

/-- A numbered argument is the one at its number. -/
theorem getElem?_numbered (args : List Scalar) (k : Nat) (x : Fin 16 × Scalar) :
    (numbered args)[k]? = some x ↔ x.1.val = k ∧ args[k]? = some x.2 := by
  rw [numbered, List.getElem?_zip_eq_some]
  constructor
  · rintro ⟨hi, ht⟩
    obtain ⟨hk, he⟩ := List.getElem?_eq_some_iff.mp hi
    rw [List.getElem_finRange] at he
    exact ⟨by rw [← he]; rfl, ht⟩
  · rintro ⟨hi, ht⟩
    have hk : k < 16 := by rw [← hi]; exact x.1.isLt
    refine ⟨?_, ht⟩
    rw [List.getElem?_eq_getElem (by simpa using hk), List.getElem_finRange]
    exact congrArg some (Fin.ext hi.symm)

/-- A numbered argument is declared under its number. -/
theorem mem_numbered {args : List Scalar} {x : Fin 16 × Scalar} :
    x ∈ numbered args ↔ args[x.1.val]? = some x.2 := by
  constructor
  · intro h
    obtain ⟨k, hk⟩ := List.mem_iff_getElem?.mp h
    obtain ⟨rfl, ht⟩ := (getElem?_numbered args k x).mp hk
    exact ht
  · intro h
    exact List.mem_of_getElem? ((getElem?_numbered args x.1.val x).mpr ⟨rfl, h⟩)

/-- Of at most sixteen arguments each one is numbered. -/
theorem mem_numbered_of_getElem? {args : List Scalar} (hl : args.length ≤ 16) {i : Nat}
    {t : Scalar} (ht : args[i]? = some t) : ∃ hi : i < 16, (⟨i, hi⟩, t) ∈ numbered args := by
  have hlt := (List.getElem?_eq_some_iff.mp ht).1
  exact ⟨by omega, mem_numbered.mpr ht⟩

/-- As many arguments are numbered as there are. -/
theorem length_numbered {args : List Scalar} (hl : args.length ≤ 16) :
    (numbered args).length = args.length := by
  simp [numbered, hl]

/-- Without their numbers the numbered arguments are the arguments. -/
theorem map_snd_numbered {args : List Scalar} (hl : args.length ≤ 16) :
    (numbered args).map Prod.snd = args := by
  rw [numbered, List.map_snd_zip]
  rwa [List.length_finRange]

/-- The number of an argument is that of the arguments before it. -/
theorem number_eq_length {args : List Scalar} {done rest : List (Fin 16 × Scalar)}
    {x : Fin 16 × Scalar}
    (h : numbered args = done ++ x :: rest) : x.1.val = done.length := by
  have hx : (numbered args)[done.length]? = some x := by simp [h]
  exact ((getElem?_numbered args _ x).mp hx).1

/-- The arguments before one are those with a smaller number. -/
theorem number_lt_length {args : List Scalar} {done rest : List (Fin 16 × Scalar)}
    (h : numbered args = done ++ rest) {y : Fin 16 × Scalar} (hy : y ∈ done) :
    y.1.val < done.length := by
  obtain ⟨k, hk⟩ := List.mem_iff_getElem?.mp hy
  have hlt : k < done.length := (List.getElem?_eq_some_iff.mp hk).1
  have hall : (numbered args)[k]? = some y := by rw [h, List.getElem?_append_left hlt, hk]
  rw [((getElem?_numbered args k y).mp hall).1]
  exact hlt

/-- What every argument preserves holds after all of them. -/
theorem assignAll_induct {a : Allocator} {p : Prototype} {all : List (Fin 16 × Scalar)}
    {Inv : List (Fin 16 × Scalar) → Draft → Prop}
    (step : ∀ done x rest d e, all = done ++ x :: rest → Inv done d →
      a.assign (!p.isVariadicAt x.1.val) x.1 x.2 d = some e → Inv (done ++ [x]) e)
    {done todo : List (Fin 16 × Scalar)} {d e : Draft} (split : all = done ++ todo)
    (start : Inv done d) (h : a.assignAll p todo d = .ok e) : Inv all e := by
  induction todo generalizing done d with
  | nil =>
    cases h
    rw [split, List.append_nil]
    exact start
  | cons x rest ih =>
    obtain ⟨i, t⟩ := x
    rw [assignAll] at h
    split at h
    · cases h
    · next d' hd =>
      have hsplit : all = (done ++ [(i, t)]) ++ rest := by rw [split, List.append_assoc]; rfl
      exact ih hsplit (step done (i, t) rest d d' split start hd) h

/-- Compiling numbered arguments fails at the first that finds no place. -/
theorem exists_of_assignAll_eq_error {a : Allocator} {p : Prototype}
    {todo : List (Fin 16 × Scalar)} {d : Draft} {error : AllocationError}
    (h : a.assignAll p todo d = .error error) :
    ∃ done x rest e, todo = done ++ x :: rest ∧ a.assignAll p done d = .ok e ∧
      a.assign (!p.isVariadicAt x.1.val) x.1 x.2 e = none ∧
      error = .capacityExceeded p.text a.convention x.1.val := by
  induction todo generalizing d with
  | nil => cases h
  | cons x rest ih =>
    rw [assignAll] at h
    split at h
    · next hx =>
      cases h
      exact ⟨[], x, rest, d, rfl, rfl, hx, rfl⟩
    · next d' hx =>
      obtain ⟨done, y, rest', e, rfl, hdone, hy, rfl⟩ := ih h
      refine ⟨x :: done, y, rest', e, rfl, ?_, hy, rfl⟩
      rw [assignAll, hx]
      exact hdone

/-- If every argument finds a place, all of them do. -/
theorem assignAll_progress {a : Allocator} {p : Prototype} {all : List (Fin 16 × Scalar)}
    (Inv : List (Fin 16 × Scalar) → Draft → Prop)
    (step : ∀ done x rest d, all = done ++ x :: rest → Inv done d →
      ∃ e, a.assign (!p.isVariadicAt x.1.val) x.1 x.2 d = some e ∧ Inv (done ++ [x]) e)
    {done todo : List (Fin 16 × Scalar)} {d : Draft} (split : all = done ++ todo)
    (start : Inv done d) : ∃ e, a.assignAll p todo d = .ok e := by
  induction todo generalizing done d with
  | nil => exact ⟨d, rfl⟩
  | cons x rest ih =>
    obtain ⟨i, t⟩ := x
    obtain ⟨e, he, hinv⟩ := step done (i, t) rest d split start
    have hsplit : all = (done ++ [(i, t)]) ++ rest := by rw [split, List.append_assoc]; rfl
    rw [assignAll, he]
    exact ih hsplit hinv

/-- What holds of the empty draft and is preserved by every argument holds of a compiled
prototype. -/
theorem compile_induct {a : Allocator} {p : Prototype}
    (Inv : List (Fin 16 × Scalar) → Draft → Prop) (start : Inv [] .start)
    (step : ∀ done x rest d e, numbered p.args = done ++ x :: rest → Inv done d →
      a.assign (!p.isVariadicAt x.1.val) x.1 x.2 d = some e → Inv (done ++ [x]) e)
    {inv : Invoker} (h : a.compile p = .ok inv) :
    ∃ d, Inv (numbered p.args) d ∧ inv = a.finish p d := by
  obtain ⟨-, d, hd, hi⟩ := compile_eq_ok_iff.mp h
  exact ⟨d, assignAll_induct step (List.nil_append _).symm start hd, hi⟩

end ForeignCall.Allocator
