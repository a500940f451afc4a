import ForeignCall.Assignment
import ForeignCall.Text.Token

/-!
# Targets

The process a call is made in, described by a text such as `x86_64-linux-gnu`: an architecture, an
operating system and more, separated by dashes. The architecture decides the word size, the whole
text decides which allocator an attribute stands for.
-/

namespace ForeignCall

/-- A process to make calls in. -/
structure Target where
  /-- Architecture and operating system, in lower case. -/
  archOs : String
  /-- Width of a pointer. -/
  wordSize : WordSize
  /-- Byte order. -/
  order : ByteOrder
  deriving DecidableEq, Repr

/-- Whether a text starts with another. -/
def startsWith (start text : String) : Bool := start.toList.isPrefixOf text.toList

/-- The allocator an attribute stands for under a target text. On x86-64 every attribute stands
for the one convention of the system. -/
def Allocator.find (archOs : String) (attr : Attribute) : Except TargetError Allocator :=
  if startsWith "x86-windows-" archOs then
    match attr with
    | .stdcall | .stdcallOnWindows => .ok .x86Stdcall
    | .plain => .ok .x86Cdecl
  else if startsWith "x86-" archOs then
    match attr with
    | .stdcall => .ok .x86Stdcall
    | .plain | .stdcallOnWindows => .ok .x86Cdecl
  else if startsWith "x86_64-windows-" archOs then .ok .x64Windows
  else if startsWith "x86_64-" archOs then .ok .x64Unix
  else .error (.unknown archOs)

namespace Target

/-- A process of 64-bit Linux on x86-64. -/
def linux : Target := ⟨"x86_64-linux-gnu", .w64, .little⟩

/-- Whether an architecture has 64-bit pointers: its name ends in `64`. -/
def is64Bit (arch : List Char) : Bool := "64".toList.isSuffixOf arch

/-- The target a text describes. Architecture and operating system must be there. -/
def ofText (text : String) : Except TargetError Target :=
  match Text.tokens '-' text.toList with
  | arch :: os :: _ =>
    if arch = [] ∨ os = [] then .error (.unknown text)
    else .ok ⟨text.map Char.toLower, if is64Bit arch then .w64 else .w32, .little⟩
  | _ => .error (.unknown text)

/-- The target a text describes, or without one the process itself, as it has been detected. -/
def resolve (detected : Target) : Option String → Except TargetError Target
  | some text => ofText text
  | none => .ok detected

/-- Whether the operating system is Windows. -/
def isWindows (t : Target) : Bool :=
  (Text.tokens '-' t.archOs.toList)[1]? = some "windows".toList

/-- The allocator an attribute stands for. -/
def allocator (t : Target) (attr : Attribute) : Except TargetError Allocator :=
  Allocator.find t.archOs attr

/-- 64-bit Linux is the target of its own text. -/
theorem ofText_linux : ofText linux.archOs = .ok linux := by
  have parts : Text.tokens '-' linux.archOs.toList =
      ["x86_64".toList, "linux".toList, "gnu".toList] := by decide +kernel
  have lower : linux.archOs.map Char.toLower = linux.archOs := by decide +kernel
  have named : ¬("x86_64".toList = [] ∨ "linux".toList = []) := by decide
  have wide : is64Bit "x86_64".toList = true := by decide
  simp only [ofText, parts, if_neg named, lower, wide, ite_true]
  rfl

end Target

end ForeignCall
