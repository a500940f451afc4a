import ForeignCall.Failure
import ForeignCall.Invoker

/-!
# Delivery

What native code finds when a call reaches it. A System V callee can look at all words of the
image. A Microsoft x64 callee has sixteen positions; each of the first four arrives in a
floating-point register if it holds a fixed float, and in an integer register otherwise. The
32-bit conventions cannot be used in a 64-bit process.
-/

namespace ForeignCall

/-- A word together with the kind of place it arrives in. -/
inductive Carried where
  /-- In an integer register or on the stack. -/
  | general (word : Word)
  /-- In a floating-point register. -/
  | float (word : Word)
  deriving DecidableEq, Repr

/-- The words a callee finds. -/
inductive Delivery where
  /-- System V: the general file and the floating-point file. -/
  | unix (general : Vector Word 16) (float : Vector Word 8)
  /-- Microsoft x64: one word for each position. -/
  | windows (positions : Vector Carried 16)
  deriving DecidableEq

namespace Delivery

/-- All words a callee finds, in the order of their places. -/
def carried : Delivery → List Carried
  | unix general float => general.toList.map .general ++ float.toList.map .float
  | windows positions => positions.toList

/-- The word in a place of the general file, as a System V callee reads it. -/
def general (d : Delivery) (k : Nat) : Word :=
  match d with
  | unix words _ => words[k]?.getD 0
  | windows positions =>
    match positions[k]? with
    | some (.general w) => w
    | _ => 0

/-- The word in a floating-point register, as a System V callee reads it. -/
def float (d : Delivery) (k : Nat) : Word :=
  match d with
  | unix _ words => words[k]?.getD 0
  | windows positions =>
    match positions[k]? with
    | some (.float w) => w
    | _ => 0

end Delivery

/-- Native code, by the result register it leaves for the words it finds. -/
abbrev Callee := Delivery → Word

namespace Invoker

/-- The word at a position of a Microsoft x64 call. -/
def windowsPosition (fixedFloats : BitVec 8) (image : Image) (p : Fin 16) : Carried :=
  if h : p.val < 4 then
    if fixedFloats.getLsbD p.val then .float (image.float ⟨p.val, by omega⟩)
    else .general (image.general p)
  else .general (image.general p)

/-- What a callee finds of an image, if the process can make the call. -/
def deliver? (inv : Invoker) (image : Image) : Option Delivery :=
  match inv.convention with
  | .x86Cdecl | .x86Stdcall => none
  | .x64Windows => some (.windows (Vector.ofFn (windowsPosition inv.fixedFloats image)))
  | .x64Unix => some (.unix (Vector.ofFn image.general) (Vector.ofFn image.float))

/-- Calls native code with up to sixteen argument words; missing ones are zero. The result is
canonical for the result type. -/
def call (inv : Invoker) (callee : Callee) (slots : List Word) : Except InvocationError Word :=
  if 16 < slots.length then .error (.tooManySlots slots.length)
  else
    match inv.deliver? (inv.assemble (.ofList slots)) with
    | none => .error (.conventionUnavailable inv.convention)
    | some delivery => .ok (inv.ret.canonical (inv.returnClass.read (callee delivery)))

end Invoker

end ForeignCall
