import ForeignCall.Scalar

/-!
# Calling conventions

The four conventions a call can be made under, with what each loads into registers, and the
attribute a declaration may carry to ask for one of them.
-/

namespace ForeignCall

/-- Native word size of a convention or a process. -/
inductive WordSize where
  | w32 | w64
  deriving DecidableEq, Repr

namespace WordSize

/-- Size in bits. -/
def bits : WordSize → Nat
  | w32 => 32
  | w64 => 64

/-- The word size with a given number of bits. -/
def ofBits? : Nat → Option WordSize
  | 32 => some w32
  | 64 => some w64
  | _ => none

/-- The word whose set bits are those of one native word. -/
def mask : WordSize → Word
  | w32 => 0xFFFFFFFF#64
  | w64 => BitVec.allOnes 64

/-- The signed integer as wide as a pointer. -/
def signedPointer : WordSize → Scalar
  | w32 => .i32
  | w64 => .i64

/-- The unsigned integer as wide as a pointer. -/
def unsignedPointer : WordSize → Scalar
  | w32 => .u32
  | w64 => .u64

end WordSize

/-- Order of the two words of a value that is passed in two. -/
inductive ByteOrder where
  | little | big
  deriving DecidableEq, Repr

/-- A native calling convention. -/
inductive Convention where
  /-- 32-bit x86, the caller cleans the stack. -/
  | x86Cdecl
  /-- 32-bit x86, the callee cleans the stack. -/
  | x86Stdcall
  /-- Microsoft x64. -/
  | x64Windows
  /-- System V AMD64. -/
  | x64Unix
  deriving DecidableEq, Repr

namespace Convention

/-- Every convention once. -/
def all : List Convention := [x86Cdecl, x86Stdcall, x64Windows, x64Unix]

/-- Word size the convention works with. -/
def wordSize : Convention → WordSize
  | x86Cdecl | x86Stdcall => .w32
  | x64Windows | x64Unix => .w64

/-- Number of integer argument registers; what follows them in the general file is the stack. -/
def generalRegisters : Convention → Nat
  | x86Cdecl | x86Stdcall => 0
  | x64Windows => 4
  | x64Unix => 6

/-- Number of floating-point argument registers. -/
def floatRegisters : Convention → Nat
  | x86Cdecl | x86Stdcall => 0
  | x64Windows => 4
  | x64Unix => 8

/-- The name in diagnostics. -/
def name : Convention → String
  | x86Cdecl => "x86_cdecl"
  | x86Stdcall => "x86_stdcall"
  | x64Windows => "x86_64_windows"
  | x64Unix => "x86_64_unix"

/-- The convention with a given name. -/
def ofName? (text : String) : Option Convention := all.find? (·.name = text)

/-- No convention has more integer registers than six. -/
theorem generalRegisters_le (c : Convention) : c.generalRegisters ≤ 6 := by cases c <;> decide

/-- No convention has more floating-point registers than eight. -/
theorem floatRegisters_le (c : Convention) : c.floatRegisters ≤ 8 := by cases c <;> decide

/-- A convention is found under its own name. -/
theorem ofName?_name (c : Convention) : ofName? c.name = some c := by cases c <;> decide

/-- Different conventions have different names. -/
theorem name_inj {c d : Convention} : c.name = d.name ↔ c = d := by
  cases c <;> cases d <;> decide

end Convention

/-- Convention attribute of a declaration. Attributes meet on one convention wherever a compiler
makes no difference between them. -/
inductive Attribute where
  /-- No attribute. -/
  | plain
  /-- The callee cleans the stack, wherever that exists. -/
  | stdcall
  /-- The callee cleans the stack, on Windows only. -/
  | stdcallOnWindows
  deriving DecidableEq, Repr

/-- A text that names no attribute. -/
structure UnknownAttribute where
  text : String
  deriving DecidableEq, Repr

/-- The wording of the error. -/
def UnknownAttribute.message (e : UnknownAttribute) : String :=
  s!"unknown convention '{e.text}' (expected default, stdcall or stdcall-on-windows)"

namespace Attribute

/-- Every attribute once. -/
def all : List Attribute := [plain, stdcall, stdcallOnWindows]

/-- The attribute as written in settings and on the command line. -/
def keyword : Attribute → String
  | plain => "default"
  | stdcall => "stdcall"
  | stdcallOnWindows => "stdcall-on-windows"

/-- The attribute as shown in reports. -/
def label : Attribute → String
  | plain => "Default"
  | stdcall => "Stdcall"
  | stdcallOnWindows => "StdcallOnWindows"

/-- Reads a keyword. -/
def ofKeyword (text : String) : Except UnknownAttribute Attribute :=
  match all.find? (·.keyword = text) with
  | some a => .ok a
  | none => .error ⟨text⟩

/-- Every keyword is read back. -/
theorem ofKeyword_keyword (a : Attribute) : ofKeyword a.keyword = .ok a := by
  cases a <;> rfl

end Attribute

end ForeignCall
