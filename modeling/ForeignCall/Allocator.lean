import ForeignCall.Convention

/-!
# Argument allocators

An allocator says how many of a convention's registers arguments may take and what becomes of
floating-point arguments that find none. Its limits are fields of the type, so every allocator
there is stays within what its convention loads.
-/

namespace ForeignCall

/-- What happens to floating-point arguments. -/
inductive FloatPolicy where
  /-- Floating-point registers, then the stack; never an integer register. -/
  | registers
  /-- Floating-point registers, then integer registers, then the stack. -/
  | registersThenGeneral
  /-- Registers by position: an integer uses up the floating-point register of its position, and
  a float is copied into the integer register of its position. -/
  | shadowGeneral
  deriving DecidableEq, Repr

namespace FloatPolicy

/-- Every policy once. -/
def all : List FloatPolicy := [registers, registersThenGeneral, shadowGeneral]

/-- The policy in reports. -/
def name : FloatPolicy → String
  | registers => "Registers"
  | registersThenGeneral => "RegistersThenGeneral"
  | shadowGeneral => "ShadowGeneral"

/-- The policy with a given name. -/
def ofName? (text : String) : Option FloatPolicy := all.find? (·.name = text)

end FloatPolicy

/-- Why allocator parameters are refused. -/
inductive AllocatorFault where
  | wordSize
  | generalRegisters
  | floatRegisters
  | shadowing
  deriving DecidableEq, Repr

/-- The reason in words. -/
def AllocatorFault.reason : AllocatorFault → String
  | wordSize => "word size does not match the trampoline"
  | generalRegisters => "more GP registers than the trampoline loads"
  | floatRegisters => "more FP registers than the trampoline loads"
  | shadowing => "FP/GP shadowing needs equal register counts and 64-bit words"

/-- Errors from building an allocator and from handing out places. -/
inductive AllocationError where
  /-- More arguments than a call can carry. -/
  | tooManyArguments (prototype : String) (count : Nat)
  /-- Registers and stack words ran out at an argument. -/
  | capacityExceeded (prototype : String) (convention : Convention) (index : Nat)
  /-- Parameters the convention cannot honour. -/
  | invalidAllocator (convention : Convention) (fault : AllocatorFault)
  deriving DecidableEq, Repr

/-- The wording of the error. -/
def AllocationError.message : AllocationError → String
  | tooManyArguments prototype count =>
    s!"prototype {prototype} has {count} arguments, at most 16 can be passed"
  | capacityExceeded prototype convention index =>
    s!"prototype {prototype} exceeded the capacity of the {convention.name} trampoline " ++
      s!"at argument {index}"
  | invalidAllocator convention fault =>
    s!"invalid {convention.name} allocator: {fault.reason}"

/-- An argument allocator. -/
structure Allocator where
  /-- The convention it hands out places for. -/
  convention : Convention
  /-- Order of the words of a split value. -/
  order : ByteOrder
  /-- Integer registers arguments may take. -/
  generalCount : Nat
  /-- Floating-point registers arguments may take. -/
  floatCount : Nat
  /-- Treatment of floating-point arguments. -/
  policy : FloatPolicy
  /-- The convention loads that many integer registers. -/
  generalCount_le : generalCount ≤ convention.generalRegisters
  /-- The convention loads that many floating-point registers. -/
  floatCount_le : floatCount ≤ convention.floatRegisters
  /-- Registers by position come in pairs, and only with 64-bit words. -/
  paired : policy = .shadowGeneral → generalCount = floatCount ∧ convention.wordSize = .w64
  deriving DecidableEq

namespace Allocator

/-- 32-bit x86, everything on the stack. -/
def x86Cdecl : Allocator :=
  ⟨.x86Cdecl, .little, 0, 0, .registers, by decide, by decide, by decide⟩

/-- 32-bit x86, everything on the stack and the callee pops it. -/
def x86Stdcall : Allocator :=
  ⟨.x86Stdcall, .little, 0, 0, .registers, by decide, by decide, by decide⟩

/-- Microsoft x64: four positions, each an integer and a floating-point register. -/
def x64Windows : Allocator :=
  ⟨.x64Windows, .little, 4, 4, .shadowGeneral, by decide, by decide, by decide⟩

/-- System V AMD64: six integer and eight floating-point registers. -/
def x64Unix : Allocator :=
  ⟨.x64Unix, .little, 6, 8, .registers, by decide, by decide, by decide⟩

/-- Native word size. -/
def wordSize (a : Allocator) : WordSize := a.convention.wordSize

/-- An allocator from its parameters. Of several faults the first in the order word size, integer
registers, floating-point registers, shadowing is reported. -/
def make (convention : Convention) (word : WordSize) (order : ByteOrder)
    (generalCount floatCount : Nat) (policy : FloatPolicy) : Except AllocationError Allocator :=
  if word ≠ convention.wordSize then .error (.invalidAllocator convention .wordSize)
  else if general : generalCount ≤ convention.generalRegisters then
    if float : floatCount ≤ convention.floatRegisters then
      if paired : policy = .shadowGeneral →
          generalCount = floatCount ∧ convention.wordSize = .w64 then
        .ok ⟨convention, order, generalCount, floatCount, policy, general, float, paired⟩
      else .error (.invalidAllocator convention .shadowing)
    else .error (.invalidAllocator convention .floatRegisters)
  else .error (.invalidAllocator convention .generalRegisters)

/-- Whether values of a type are passed in two words. -/
def splits (a : Allocator) (t : Scalar) : Bool := a.wordSize = .w32 && 4 < t.bytes

/-- First slot of the general file that is a stack word. -/
def stackStart (a : Allocator) : Nat := a.convention.generalRegisters

/-- Whether registers go by position. -/
def shadows (a : Allocator) : Bool := a.policy = .shadowGeneral

/-- The parameters of any allocator are accepted and give it back. -/
theorem make_self (a : Allocator) :
    make a.convention a.wordSize a.order a.generalCount a.floatCount a.policy = .ok a := by
  simp only [make, wordSize, ne_eq, not_true_eq_false, ↓reduceIte, a.generalCount_le,
    a.floatCount_le, ↓reduceDIte, dif_pos a.paired]

/-- An accepted allocator has the parameters it was asked for. -/
theorem eq_of_make_eq_ok {convention : Convention} {word : WordSize} {order : ByteOrder}
    {generalCount floatCount : Nat} {policy : FloatPolicy} {a : Allocator}
    (h : make convention word order generalCount floatCount policy = .ok a) :
    a.convention = convention ∧ a.wordSize = word ∧ a.order = order ∧
      a.generalCount = generalCount ∧ a.floatCount = floatCount ∧ a.policy = policy := by
  unfold make at h
  split at h
  · cases h
  · rename_i hw
    split at h
    · split at h
      · split at h
        · cases h
          exact ⟨rfl, (Decidable.not_not.mp hw).symm, rfl, rfl, rfl, rfl⟩
        · cases h
      · cases h
    · cases h

/-- Registers go by position under one policy. -/
theorem shadows_iff {a : Allocator} : a.shadows = true ↔ a.policy = .shadowGeneral := by
  simp [shadows]

/-- Registers by position come in pairs. -/
theorem count_eq_of_shadows {a : Allocator} (h : a.shadows = true) :
    a.generalCount = a.floatCount :=
  (a.paired (shadows_iff.mp h)).1

/-- The stack words start within the general file. -/
theorem stackStart_le (a : Allocator) : a.stackStart ≤ 6 := a.convention.generalRegisters_le

end Allocator

end ForeignCall
