import ForeignCall.Library
import ForeignCall.Native.Floating
import ForeignCall.Native.Text
import ForeignCall.Target.Installed
import ForeignCall.Target.SelfTest

/-!
# The host

The process that calls are made in: what its loader finds, what the code at an address does, how
its heap is kept, and the code of the self-test. `Host.linux` is a process with the C library
alone.
-/

namespace ForeignCall

/-- The process around a call. -/
structure Host where
  /-- What the process is detected to be. -/
  target : Target
  /-- What the system can open and find. -/
  loader : Loader
  /-- What native code does, with the heap it can look at. -/
  machine : Memory.Heap → Machine
  /-- Where new blocks go. -/
  system : Memory.Heap.System
  /-- The size of a page of memory in bytes. -/
  pageSize : Nat
  /-- The code of the self-test. -/
  selfTestCallee : Callee

namespace Host

/-- The functions of the C library by name, in the order of their addresses. -/
def functions : List (String × Native.Function) := [
  ("abs", Native.abs), ("labs", Native.labs), ("llabs", Native.labs),
  ("memcpy", Native.memcpy), ("strlen", Native.strlen), ("strnlen", Native.strnlen),
  ("atoi", Native.atoi), ("strtoull", Native.strtoull),
  ("toupper", Native.toupper), ("tolower", Native.tolower), ("isdigit", Native.isdigit),
  ("htons", Native.htons), ("htonl", Native.htonl), ("ffs", Native.ffs),
  ("ffsll", Native.ffsll), ("copysign", Native.copysign), ("copysignf", Native.copysignf),
  ("ldexp", Native.ldexp), ("snprintf", Native.snprintf),
  ("malloc", fun _ _ => 0), ("free", fun _ _ => 0)]

/-- The address of the first function. -/
def firstAddress : Nat := 0x400000

/-- Looks up a function by name; each takes sixteen bytes. -/
def address? (name : String) : Option CodeAddress :=
  (functions.findIdx? (·.1 = name)).map fun i => ⟨BitVec.ofNat 64 (firstAddress + 16 * i)⟩

/-- Opens the C library by its name, or the process by none or the empty one. -/
def opens (name? : Option String) : Except String Unit :=
  match name? with
  | none | some "" | some "libc.so.6" => .ok ()
  | some name =>
    .error s!"{name}: cannot open shared object file: No such file or directory"

/-- Looks up a function by name, in whatever library. -/
def address (_library? : Option String) (name : String) : Except String CodeAddress :=
  match address? name with
  | some address => .ok address
  | none => .error s!"undefined symbol: {name}"

/-- The function at an address. -/
def functionAt (a : CodeAddress) : Native.Function :=
  match functions[(a.word.toNat - firstAddress) / 16]? with
  | some (_, f) => f
  | none => fun _ _ => 0

/-- A 64-bit Linux process with the C library. -/
def linux : Host where
  target := .linux
  loader := { opens, address }
  machine := fun h a => functionAt a h
  system := Memory.Heap.ascending
  pageSize := 4096
  selfTestCallee := Target.selfTestCallee

/-- The outcome of the self-test of the process. -/
def selfTest (host : Host) : Except Failure Unit := host.target.selfTest host.selfTestCallee

/-- Sets up the process where no target is installed yet. -/
def setup (host : Host) : Except Failure Target :=
  (Installed.none.setup host.target host.selfTest).1

end Host

end ForeignCall
