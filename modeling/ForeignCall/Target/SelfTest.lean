import ForeignCall.Decimal.Binary
import ForeignCall.Delivery
import ForeignCall.Target

/-!
# The self-test

A call with sixteen arguments, integers and floats by turns, to native code that checks each of
them. It passes only if every argument arrives where the code looks for it.
-/

namespace ForeignCall.Target

/-- The signature of the self-test. -/
def selfTestSignature : String := "i(ifififififififif)"

/-- The single-precision pattern of a small natural. -/
def floatWord (n : Nat) : Word := BitVec.ofNat 64 (Decimal.BinaryFormat.single.ofRatio n 1)

/-- The arguments of the self-test: the numbers from one to sixteen, every other one as a float. -/
def selfTestSlots : List Word :=
  (List.range 16).map fun i =>
    if i % 2 = 0 then BitVec.ofNat 64 (i + 1) else floatWord (i + 1)

/-- The native side of the self-test: one if the eight integers and the eight floats it finds are
the ones sent, else zero. -/
def selfTestCallee : Callee := fun d =>
  let intsArrived := (List.range 8).all fun k =>
    (d.general k).setWidth 32 = BitVec.ofNat 32 (2 * k + 1)
  let floatsArrived := (List.range 8).all fun k =>
    (d.float k).setWidth 32 = (floatWord (2 * k + 2)).setWidth 32
  if intsArrived && floatsArrived then 1 else 0

/-- Whether a call with known arguments arrives intact. -/
def selfTest (t : Target) (callee : Callee) : Except Failure Unit :=
  match t.allocator .plain with
  | .error e => .error (.target e)
  | .ok allocator =>
    match allocator.ofSignature selfTestSignature with
    | .error e => .error e
    | .ok inv =>
      match inv.call callee selfTestSlots with
      | .error e => .error (.invocation e)
      | .ok result =>
        if result = 1 then .ok () else .error (.selfTest ⟨result, inv.text⟩)

end ForeignCall.Target
