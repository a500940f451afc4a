import ForeignCall.Allocator
import ForeignCall.Signature

/-!
# Failures

The errors of the single parts of a call, joined in one type. Each part keeps its own errors; a
failure says only which part it comes from, and its wording is that of the part.
-/

namespace ForeignCall

/-- Errors of calling through an invoker. -/
inductive InvocationError where
  /-- More argument words than a call can carry. -/
  | tooManySlots (given : Nat)
  /-- A convention the process cannot use. -/
  | conventionUnavailable (convention : Convention)
  deriving DecidableEq, Repr

/-- The wording of the error. -/
def InvocationError.message : InvocationError → String
  | tooManySlots given => s!"{given} argument slots passed, at most 16 are supported"
  | conventionUnavailable convention =>
    s!"calling convention {convention.name} is not available on x86_64"

/-- Errors about the process and its target. -/
inductive TargetError where
  /-- The process-wide target was asked for before it was set. -/
  | notSetUp
  /-- The process-wide target was installed twice. -/
  | alreadySetUp
  /-- A target text without a known allocator. -/
  | unknown (text : String)
  deriving DecidableEq, Repr

/-- The wording of the error. -/
def TargetError.message : TargetError → String
  | notSetUp => "UNA is not set up; call una::setup() first"
  | alreadySetUp => "UNA is already set up"
  | unknown text => s!"unknown arch/OS string '{text}'"

/-- The self-test got the wrong result. -/
structure SelfTestError where
  result : Word
  invoker : String
  deriving DecidableEq, Repr

/-- The wording of the error. -/
def SelfTestError.message (e : SelfTestError) : String :=
  s!"sanity test failed (returned {e.result.toNat}), the calling convention implementation " ++
    s!"is broken: {e.invoker}"

/-- Errors of allocating memory. -/
inductive MemoryError where
  /-- A request for no bytes. -/
  | zeroSize
  /-- The heap has no room for a request. -/
  | outOfMemory (size : Nat)
  /-- A text with a zero byte has no form as a C string. -/
  | interiorNul (position : Nat)
  deriving DecidableEq, Repr

/-- The wording of the error. -/
def MemoryError.message : MemoryError → String
  | zeroSize => "allocation size must be positive"
  | outOfMemory size => s!"out of memory allocating {size} bytes"
  | interiorNul position => s!"string contains an interior NUL at byte {position}"

/-- Errors of opening libraries and looking up symbols. -/
inductive LoadError where
  /-- A library that cannot be opened, with the reason of the system. -/
  | notFound (path : String)
  /-- None of several libraries can be opened. -/
  | noCandidate (tried : List String)
  /-- A symbol the library does not have, with the reason of the system behind the library. -/
  | symbolNotFound (symbol library : String)
  /-- A name with a zero byte; the name is shown quoted. -/
  | invalidName (quoted : String) (position : Nat)
  /-- A path that is not UTF-8; it is shown quoted. -/
  | invalidPath (quoted : String)
  deriving DecidableEq, Repr

/-- The wording of the error. -/
def LoadError.message : LoadError → String
  | notFound path => s!"Library not found: {path}"
  | noCandidate tried => "No library could be opened from: " ++ ", ".intercalate tried
  | symbolNotFound symbol library => s!"Symbol not found: {symbol} in {library}"
  | invalidName quoted position =>
    s!"Invalid name: {quoted}: nul byte found in provided data at position: {position}"
  | invalidPath quoted => s!"Invalid UTF-8 in path: {quoted}"

/-- Any error on the way from a signature to the result of a call. -/
inductive Failure where
  | target (error : TargetError)
  | signature (error : SignatureError)
  | allocation (error : AllocationError)
  | invocation (error : InvocationError)
  | loading (error : LoadError)
  | memory (error : MemoryError)
  | selfTest (error : SelfTestError)
  deriving DecidableEq, Repr

/-- The wording of the error. -/
def Failure.message : Failure → String
  | target e => e.message
  | signature e => e.message
  | allocation e => e.message
  | invocation e => e.message
  | loading e => e.message
  | memory e => e.message
  | selfTest e => e.message

end ForeignCall
