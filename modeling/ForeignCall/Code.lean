import ForeignCall.Cache
import ForeignCall.Delivery

/-!
# Code addresses and bound functions

A bound function joins the address of native code with the invoker for its signature. What the
code at an address does is a parameter of a call.
-/

namespace ForeignCall

/-- The address of native code. -/
structure CodeAddress where
  word : Word
  deriving DecidableEq, Repr

namespace CodeAddress

/-- The address of nothing. -/
def null : CodeAddress := ⟨0⟩

/-- Whether it is the address of nothing. -/
def isNull (a : CodeAddress) : Bool := a = null

/-- The address in diagnostics. -/
def text (a : CodeAddress) : String := s!"CodePtr({a.word.shortHex})"

end CodeAddress

/-- Native code by its address. -/
abbrev Machine := CodeAddress → Callee

/-- Native code together with a compiled signature. -/
structure BoundFunction where
  code : CodeAddress
  invoker : Shared Invoker
  deriving DecidableEq, Repr

/-- Calls a bound function. -/
def BoundFunction.call (f : BoundFunction) (machine : Machine) (slots : List Word) :
    Except InvocationError Word :=
  f.invoker.value.call (machine f.code) slots

/-- Calls a bound function for the pattern of a single-precision result. -/
def BoundFunction.callSingle (f : BoundFunction) (machine : Machine) (slots : List Word) :
    Except InvocationError (BitVec 32) :=
  (f.call machine slots).map (·.setWidth 32)

/-- Calls a bound function for the pattern of a double-precision result. -/
def BoundFunction.callDouble (f : BoundFunction) (machine : Machine) (slots : List Word) :
    Except InvocationError (BitVec 64) :=
  f.call machine slots

/-! ### Values as argument words -/

namespace Slot

/-- A signed integer, extended to a word. -/
def ofInt (n : Int) : Word := BitVec.ofInt 64 n

/-- A single-precision value by its pattern. -/
def ofSingle (pattern : BitVec 32) : Word := pattern.setWidth 64

/-- A double-precision value by its pattern. -/
def ofDouble (pattern : BitVec 64) : Word := pattern

/-- An address. -/
def ofAddress (address : BitVec 64) : Word := address

end Slot

end ForeignCall
