import ForeignCall.Allocator
import ForeignCall.Failure
import ForeignCall.Invoker

/-!
# Handing out places

Compiling a prototype goes through its arguments in declaration order and hands out integer
registers, floating-point registers and stack words as a C compiler would, recording each decision
as moves. What has been handed out so far is a `Cursor`; the outcome depends on nothing else, so
equal prototypes compile to equal invokers.
-/

namespace ForeignCall

/-- How many places of each kind are taken. -/
structure Cursor where
  general : Nat
  float : Nat
  stack : Nat
  deriving DecidableEq, Repr

/-- Nothing is taken. -/
def Cursor.start : Cursor := ⟨0, 0, 0⟩

/-- The arguments compiled so far: what they took, their moves, and the floating-point registers
of those outside the variadic part. -/
structure Draft where
  cursor : Cursor
  moves : List Move
  fixedFloats : BitVec 8
  deriving DecidableEq, Repr

/-- No argument is compiled. -/
def Draft.start : Draft := ⟨.start, [], 0⟩

namespace Allocator

/-- The shifts that cut a value into the words it is passed in, in the order of their places. The
high half of a split value comes second, or first with the big byte order. -/
def shifts (a : Allocator) (t : Scalar) : List (Fin 64) :=
  if a.splits t then
    match a.order with
    | .little => [0, 32]
    | .big => [32, 0]
  else [0]

/-- Takes the place of one word: an integer register if the value may have one and one is left,
else a stack word. Where registers go by position, an integer register uses up the floating-point
register beside it. -/
def takeWord (a : Allocator) (registers : Bool) (c : Cursor) : Option (Fin 24 × Cursor) :=
  if general : registers = true ∧ c.general < a.generalCount then
    some (⟨c.general, by
        have := a.generalCount_le
        have := a.convention.generalRegisters_le
        omega⟩,
      ⟨c.general + 1, if a.shadows then c.float + 1 else c.float, c.stack⟩)
  else if stack : a.stackStart + c.stack < 16 then
    some (⟨a.stackStart + c.stack, by omega⟩, ⟨c.general, c.float, c.stack + 1⟩)
  else none

/-- Takes a place for each word of a value. -/
def takeWords (a : Allocator) (registers : Bool) (source : Fin 16) :
    List (Fin 64) → Cursor → Option (List Move × Cursor)
  | [], c => some ([], c)
  | shift :: rest, c =>
    match a.takeWord registers c with
    | none => none
    | some (dest, c) =>
      match a.takeWords registers source rest c with
      | none => none
      | some (moves, c) => some (⟨source, shift, a.wordSize.mask, 0, dest⟩ :: moves, c)

/-- Compiles one argument. A float takes the next floating-point register while there is one, and
with it the integer register of the same position where registers go by position, which is then the
next one (`Cursor.Within.lockstep`); every other value takes words, and a float may take integer
registers only if the policy says so. -/
def assign (a : Allocator) (isFixed : Bool) (source : Fin 16) (t : Scalar) (d : Draft) :
    Option Draft :=
  let c := d.cursor
  if free : t.isFloat = true ∧ c.float < a.floatCount then
    have float : c.float < 8 := by
      have := a.floatCount_le
      have := a.convention.floatRegisters_le
      omega
    some {
      cursor := ⟨if a.shadows then c.general + 1 else c.general, c.float + 1, c.stack⟩
      moves := d.moves ++ .whole source ⟨16 + c.float, by omega⟩ ::
        (if a.shadows then [.whole source ⟨c.float, by omega⟩] else [])
      fixedFloats := if isFixed then d.fixedFloats ||| 1#8 <<< c.float else d.fixedFloats }
  else
    let registers := !t.isFloat || a.policy = .registersThenGeneral
    match a.takeWords registers source (a.shifts t) c with
    | none => none
    | some (moves, c) => some { d with cursor := c, moves := d.moves ++ moves }

/-- Compiles numbered arguments one after the other, up to the first that finds no place. -/
def assignAll (a : Allocator) (p : Prototype) :
    List (Fin 16 × Scalar) → Draft → Except AllocationError Draft
  | [], d => .ok d
  | (i, t) :: rest, d =>
    match a.assign (!p.isVariadicAt i.val) i t d with
    | none => .error (.capacityExceeded p.text a.convention i.val)
    | some d => a.assignAll p rest d

/-- The arguments of a prototype with the slots they come from. -/
def numbered (args : List Scalar) : List (Fin 16 × Scalar) := (List.finRange 16).zip args

/-- Compiles a prototype. -/
def compile (a : Allocator) (p : Prototype) : Except AllocationError Invoker :=
  if 16 < p.args.length then .error (.tooManyArguments p.text p.args.length)
  else
    match a.assignAll p (numbered p.args) .start with
    | .error e => .error e
    | .ok d => .ok {
        convention := a.convention
        ret := p.ret
        args := p.args
        moves := d.moves
        stackWords := d.cursor.stack
        fixedFloats := d.fixedFloats }

/-- Reads a signature with the pointer width of the allocator and compiles it. -/
def ofSignature (a : Allocator) (signature : String) : Except Failure Invoker :=
  match Signature.parse a.wordSize signature with
  | .error e => .error (.signature e)
  | .ok p =>
    match a.compile p with
    | .error e => .error (.allocation e)
    | .ok inv => .ok inv

/-- Compiling a list of arguments is compiling its first part and going on from there. -/
theorem assignAll_append (a : Allocator) (p : Prototype) (xs ys : List (Fin 16 × Scalar))
    (d : Draft) : a.assignAll p (xs ++ ys) d = a.assignAll p xs d >>= a.assignAll p ys := by
  induction xs generalizing d with
  | nil => rfl
  | cons x xs ih =>
    obtain ⟨i, t⟩ := x
    simp only [List.cons_append, assignAll]
    split
    · rfl
    · exact ih _

end Allocator

/-! ### Cursors -/

/-- A cursor that points to no place behind the last one. Where registers go by position it stands at
the same position in both kinds, so that the copy of a float goes to the next integer register. -/
structure Cursor.Within (a : Allocator) (c : Cursor) : Prop where
  general_le : c.general ≤ a.generalCount
  float_le : c.float ≤ a.floatCount
  stack_le : a.stackStart + c.stack ≤ 16
  lockstep : a.shadows = true → c.general = c.float

namespace Cursor.Within

variable {a : Allocator} {c c' : Cursor} {d d' : Draft}

/-- Where nothing is taken, all places are ahead. -/
theorem start (a : Allocator) : Cursor.start.Within a where
  general_le := Nat.zero_le _
  float_le := Nat.zero_le _
  stack_le := Nat.le_trans a.stackStart_le (by decide)
  lockstep _ := rfl

/-- A place is left exactly if the last one is not reached. -/
theorem lt_iff_ne (h : c.Within a) :
    (c.general < a.generalCount ↔ c.general ≠ a.generalCount) ∧
    (c.float < a.floatCount ↔ c.float ≠ a.floatCount) ∧
    (a.stackStart + c.stack < 16 ↔ a.stackStart + c.stack ≠ 16) := by
  have hgeneral := h.general_le
  have hfloat := h.float_le
  have hstack := h.stack_le
  omega

/-- A cursor does not leave the places when it takes one for a word. -/
theorem takeWord (h : c.Within a) {registers : Bool} {dest : Fin 24}
    (ht : a.takeWord registers c = some (dest, c')) : c'.Within a := by
  unfold Allocator.takeWord at ht
  split at ht
  · next hgeneral =>
    cases ht
    have hfloat := h.float_le
    refine ⟨hgeneral.2, ?_, h.stack_le, fun hs ↦ ?_⟩
    · show (if a.shadows = true then c.float + 1 else c.float) ≤ a.floatCount
      split
      · next hs =>
        have hlock := h.lockstep hs
        have hcount := Allocator.count_eq_of_shadows hs
        omega
      · exact hfloat
    · have hlock := h.lockstep hs
      simp only [hs, if_true, hlock]
  · split at ht
    · next hstack =>
      cases ht
      exact ⟨h.general_le, h.float_le, hstack, h.lockstep⟩
    · cases ht

/-- A cursor does not leave the places when it takes some for several words. -/
theorem takeWords (h : c.Within a) {registers : Bool} {source : Fin 16} {shifts : List (Fin 64)}
    {moves : List Move} (ht : a.takeWords registers source shifts c = some (moves, c')) :
    c'.Within a := by
  induction shifts generalizing c moves with
  | nil =>
    cases ht
    exact h
  | cons shift rest ih =>
    unfold Allocator.takeWords at ht
    split at ht
    · cases ht
    · next hword =>
      split at ht
      · cases ht
      · next hrest =>
        cases ht
        exact ih (h.takeWord hword) hrest

/-- A cursor does not leave the places when an argument is compiled. -/
theorem assign (h : d.cursor.Within a) {isFixed : Bool} {source : Fin 16} {t : Scalar}
    (ha : a.assign isFixed source t d = some d') : d'.cursor.Within a := by
  unfold Allocator.assign at ha
  dsimp only at ha
  split at ha
  · next hfloat =>
    cases ha
    have hgeneral := h.general_le
    refine ⟨?_, hfloat.2, h.stack_le, fun hs ↦ ?_⟩
    · show (if a.shadows = true then d.cursor.general + 1 else d.cursor.general) ≤ a.generalCount
      split
      · next hs =>
        have hlock := h.lockstep hs
        have hcount := Allocator.count_eq_of_shadows hs
        omega
      · exact hgeneral
    · have hlock := h.lockstep hs
      simp only [hs, if_true, hlock]
  · split at ha
    · cases ha
    · next hwords =>
      cases ha
      exact h.takeWords hwords

/-- No cursor that is reached while a prototype is compiled leaves the places. -/
theorem assignAll (h : d.cursor.Within a) {p : Prototype} {xs : List (Fin 16 × Scalar)}
    (ha : a.assignAll p xs d = .ok d') : d'.cursor.Within a := by
  induction xs generalizing d with
  | nil =>
    cases ha
    exact h
  | cons x xs ih =>
    unfold Allocator.assignAll at ha
    split at ha
    · cases ha
    · next hx => exact ih (h.assign hx) ha

end Cursor.Within

end ForeignCall
