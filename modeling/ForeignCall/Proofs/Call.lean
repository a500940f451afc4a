import ForeignCall.Delivery
import ForeignCall.Proofs.Image

/-!
# What a call hands over

The words a callee finds are those of the assembled image. A System V callee finds both files as
they are; a Microsoft x64 callee finds one word for each position.
-/

namespace ForeignCall

namespace Prototype

/-- The canonical word of the argument at an index; it is zero where no argument is declared, and
a missing word is zero. -/
def wordAt (p : Prototype) (words : List Word) (k : Nat) : Word :=
  match p.args[k]? with
  | some t => t.canonical (words[k]?.getD 0)
  | none => 0

/-- Whether the argument at an index is a float. -/
def isFloatAt (p : Prototype) (k : Nat) : Bool := p.args[k]?.any Scalar.isFloat

/-- The word at the number of an argument is that of the argument. -/
theorem wordAt_of_mem {p : Prototype} {x : Fin 16 × Scalar} (hx : x ∈ Allocator.numbered p.args)
    (words : List Word) : p.wordAt words x.1.val = argumentWord words x := by
  rw [wordAt, Allocator.mem_numbered.mp hx]
  rfl

/-- Beyond the declared arguments every word is zero. -/
theorem wordAt_of_length_le {p : Prototype} {k : Nat} (hk : p.args.length ≤ k)
    (words : List Word) : p.wordAt words k = 0 := by
  rw [wordAt, List.getElem?_eq_none hk]

/-- An index within the list is that of a numbered argument. -/
theorem exists_mem_numbered {p : Prototype} {k : Nat} (hk : k < p.args.length) (h16 : k < 16) :
    ∃ x ∈ Allocator.numbered p.args, x.1.val = k :=
  ⟨(⟨k, h16⟩, p.args[k]), Allocator.mem_numbered.mpr (List.getElem?_eq_getElem hk), rfl⟩

/-- A float is at an index exactly if it is a numbered argument. -/
theorem isFloatAt_iff {p : Prototype} {k : Nat} (h16 : k < 16) :
    p.isFloatAt k = true ↔
      ∃ x ∈ Allocator.numbered p.args, x.1.val = k ∧ x.2.isFloat = true := by
  rw [isFloatAt, Option.any_eq_true]
  constructor
  · rintro ⟨t, ht, hf⟩
    exact ⟨(⟨k, h16⟩, t), Allocator.mem_numbered.mpr ht, rfl, hf⟩
  · rintro ⟨x, hx, rfl, hf⟩
    exact ⟨x.2, Allocator.mem_numbered.mp hx, hf⟩

end Prototype

namespace Allocator

variable {a : Allocator} {p : Prototype} {inv : Invoker}

/-- The convention of a compiled prototype is that of the allocator. -/
theorem convention_of_compile (h : a.compile p = .ok inv) : inv.convention = a.convention := by
  obtain ⟨-, d, -, rfl⟩ := compile_eq_ok_iff.mp h
  rfl

/-- The argument types of a compiled prototype are those of the prototype. -/
theorem args_of_compile (h : a.compile p = .ok inv) : inv.args = p.args := by
  obtain ⟨-, d, -, rfl⟩ := compile_eq_ok_iff.mp h
  rfl

/-- The result type of a compiled prototype is that of the prototype. -/
theorem ret_of_compile (h : a.compile p = .ok inv) : inv.ret = p.ret := by
  obtain ⟨-, d, -, rfl⟩ := compile_eq_ok_iff.mp h
  rfl

end Allocator

namespace Invoker

/-- A System V callee finds both files of the image. -/
theorem deliver?_of_unix {inv : Invoker} (hc : inv.convention = .x64Unix) (image : Image) :
    inv.deliver? image =
      some (.unix (Vector.ofFn image.general) (Vector.ofFn image.float)) := by
  rw [deliver?, hc]

/-- A Microsoft x64 callee finds one word for each position. -/
theorem deliver?_of_windows {inv : Invoker} (hc : inv.convention = .x64Windows) (image : Image) :
    inv.deliver? image =
      some (.windows (Vector.ofFn (windowsPosition inv.fixedFloats image))) := by
  rw [deliver?, hc]

/-- A call with up to sixteen argument words hands its callee what the image delivers. -/
theorem call_eq_of_deliver {inv : Invoker} {words : List Word} {delivery : Delivery}
    (hl : words.length ≤ 16) (h : inv.deliver? (inv.assemble (.ofList words)) = some delivery)
    (callee : Callee) :
    inv.call callee words = .ok (inv.ret.canonical (inv.returnClass.read (callee delivery))) := by
  rw [call, if_neg (by omega), h]

end Invoker

end ForeignCall
