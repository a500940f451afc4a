import ForeignCall.Scalar
import ForeignCall.Signature.Error

/-!
# Prototypes

A C function type whose variadic part is spelled out: a call `printf("%d %f", i, d)` has the
argument list pointer, integer, double with index 1 as the first variadic one. The index never
exceeds the number of arguments; this is a field of the type.
-/

namespace ForeignCall

/-- A C function type. -/
structure Prototype where
  /-- Result type. -/
  ret : Scalar
  /-- Argument types in declaration order. -/
  args : List Scalar
  /-- Index of the first variadic argument of a variadic function. -/
  variadic : Option Nat
  /-- The variadic part starts within the list or at its end. -/
  variadic_le : ∀ v ∈ variadic, v ≤ args.length
  deriving DecidableEq

namespace Prototype

/-- A function type that is not variadic. -/
def fixed (ret : Scalar) (args : List Scalar) : Prototype :=
  ⟨ret, args, none, by simp⟩

/-- A function type from its parts; an index beyond the end of the list is refused. -/
def make (ret : Scalar) (args : List Scalar) (variadic : Option Nat) :
    Except SignatureError Prototype :=
  match variadic with
  | none => .ok (fixed ret args)
  | some v =>
    if h : v ≤ args.length then .ok ⟨ret, args, some v, by simpa using h⟩
    else .error (.markerOutOfRange v args.length)

/-- Whether the argument at an index belongs to the variadic part. Indexes beyond the end do if
the function is variadic. -/
def isVariadicAt (p : Prototype) (i : Nat) : Bool :=
  match p.variadic with
  | none => false
  | some v => v ≤ i

/-- The letters of an argument list with the variadic marker at its index. -/
def marked (letters : List Char) : Option Nat → List Char
  | none => letters
  | some v => letters.take v ++ '|' :: letters.drop v

/-- The letters of the arguments from an index on. The variadic marker is written before the
argument with its index, or behind the last argument. -/
def written (variadic : Option Nat) : Nat → List Scalar → List Char
  | i, [] => if variadic = some i then ['|'] else []
  | i, t :: ts =>
    if variadic = some i then '|' :: t.letter :: written variadic (i + 1) ts
    else t.letter :: written variadic (i + 1) ts

/-- The signature text of a function type, as characters. -/
def chars (p : Prototype) : List Char :=
  p.ret.letter :: '(' :: (written p.variadic 0 p.args ++ [')'])

/-- The signature text of a function type. -/
def text (p : Prototype) : String := String.ofList p.chars

/-- A prototype is determined by its result, arguments and variadic index. -/
@[ext] theorem ext {p q : Prototype} (ret : p.ret = q.ret) (args : p.args = q.args)
    (variadic : p.variadic = q.variadic) : p = q := by
  cases p
  cases q
  simp_all

/-- Making a prototype succeeds exactly for an index within the list, and keeps its parts. -/
theorem make_eq_ok_iff {ret : Scalar} {args : List Scalar} {variadic : Option Nat}
    {p : Prototype} : make ret args variadic = .ok p ↔
      p.ret = ret ∧ p.args = args ∧ p.variadic = variadic := by
  constructor
  · intro h
    unfold make at h
    split at h
    · cases h
      exact ⟨rfl, rfl, rfl⟩
    · split at h
      · cases h
        exact ⟨rfl, rfl, rfl⟩
      · cases h
  · rintro ⟨rfl, rfl, rfl⟩
    obtain ⟨ret, args, variadic, hv⟩ := p
    cases variadic with
    | none => rfl
    | some v =>
      have : v ≤ args.length := hv v rfl
      simp [make, this]

end Prototype

end ForeignCall
