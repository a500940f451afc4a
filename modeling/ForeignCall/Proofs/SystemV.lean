import ForeignCall.Proofs.Assignment.Classes
import ForeignCall.Proofs.Call

/-!
# Words of a System V call

What a System V callee finds, for any number of integer and floating-point registers that an
allocator may use: the words of the general class in the integer registers, those of the stack
class in the stack words and those of the float class in the floating-point registers, each file
filled up with zeros.
-/

namespace ForeignCall

/-! ### Two files, one after the other -/

private theorem getD_files {n m : Nat} {xs ys : List Word} (hx : xs.length ≤ n) (k : Nat) :
    (xs.rightpad n 0 ++ ys.rightpad m 0)[k]?.getD 0 =
      if k < n then xs[k]?.getD 0 else ys[k - n]?.getD 0 := by
  rw [List.getElem?_append, length_rightpad_of_le hx]
  split
  · exact getD_rightpad n xs k
  · exact getD_rightpad m ys (k - n)

/-! ### The words a callee finds -/

namespace Allocator

/-- A System V callee finds the words of each class in the file of the class, in declaration order
and followed by zeros. -/
theorem unix_call_by_class {a : Allocator} (hc : a.convention = .x64Unix)
    (hp : a.policy ≠ .shadowGeneral) {p : Prototype} {inv : Invoker} (h : a.compile p = .ok inv)
    {words : List Word} (hl : words.length ≤ 16) :
    ∃ (general : Vector Word 16) (float : Vector Word 8),
      (∀ callee : Callee, inv.call callee words =
        .ok (inv.ret.canonical (inv.returnClass.read (callee (.unix general float))))) ∧
      general.toList =
        (classWords words (a.generalClass (numbered p.args))).rightpad 6 0 ++
          (classWords words (a.stackClass (numbered p.args))).rightpad 10 0 ∧
      float.toList = (classWords words (a.floatClass (numbered p.args))).rightpad 8 0 := by
  have hw := w64_of_x64 (.inl hc)
  have hs := shadows_of_ne hp
  have hstart : a.stackStart = 6 := by rw [stackStart, hc]; rfl
  have hdeliver := Invoker.deliver?_of_unix ((convention_of_compile h).trans hc)
    (inv.assemble (.ofList words))
  have hplaces := a.places_le
  have hg : (classWords words (a.generalClass (numbered p.args))).length ≤ 6 := by
    have := a.length_generalClass_le (numbered p.args)
    rw [length_classWords]
    omega
  have hstack : (classWords words (a.stackClass (numbered p.args))).length ≤ 10 := by
    have := length_stackClass_le h hw hs
    rw [length_classWords]
    omega
  have hf : (classWords words (a.floatClass (numbered p.args))).length ≤ 8 := by
    have := a.length_floatClass_le (numbered p.args)
    rw [length_classWords]
    omega
  refine ⟨_, _, Invoker.call_eq_of_deliver hl hdeliver, ?_, ?_⟩
  · rw [Vector.toList_ofFn]
    apply ext_getD
    · rw [List.length_ofFn, List.length_append, length_rightpad_of_le hg,
        length_rightpad_of_le hstack]
    · intro k hk
      rw [List.length_ofFn] at hk
      rw [List.getElem?_ofFn, dif_pos hk, Option.getD_some, getD_files hg]
      split
      · exact assemble_general h hw hs words ⟨k, hk⟩ (by rw [hstart]; assumption)
      · rw [assemble_stack h hw hs words ⟨k, hk⟩ (by rw [hstart]; change 6 ≤ k; omega), hstart]
  · rw [Vector.toList_ofFn]
    apply ext_getD
    · rw [List.length_ofFn, length_rightpad_of_le hf]
    · intro k hk
      rw [List.length_ofFn] at hk
      rw [List.getElem?_ofFn, dif_pos hk, Option.getD_some, getD_rightpad]
      exact assemble_float h hw hs words ⟨k, hk⟩

/-- With one floating-point register and two integer registers for arguments, of three floats and
an integer among them the first float has its register, the next argument of either kind takes an
integer register and the last float goes onto the stack. -/
theorem unix_call_overflowing_floats :
    ∃ inv, Allocator.compile
      ⟨.x64Unix, .little, 2, 1, .registersThenGeneral, by decide, by decide, by decide⟩
      (.fixed .i32 [.f64, .f64, .i8, .f64]) = .ok inv ∧
      ∃ (general : Vector Word 16) (float : Vector Word 8),
        (∀ callee : Callee, inv.call callee [1, 2, 0x1FF, 4] =
          .ok (inv.ret.canonical (inv.returnClass.read (callee (.unix general float))))) ∧
        general.toList =
          [2, 0xFFFFFFFFFFFFFFFF, 0, 0, 0, 0, 4, 0, 0, 0, 0, 0, 0, 0, 0, 0] ∧
        float.toList = [1, 0, 0, 0, 0, 0, 0, 0] := by
  obtain ⟨general, float, hcall, hg, hf⟩ := unix_call_by_class
    (a := ⟨.x64Unix, .little, 2, 1, .registersThenGeneral, by decide, by decide, by decide⟩)
    (p := .fixed .i32 [.f64, .f64, .i8, .f64]) rfl (by decide) rfl
    (show ([1, 2, 0x1FF, 4] : List Word).length ≤ 16 by decide)
  exact ⟨_, rfl, general, float, hcall, hg.trans (by decide), hf.trans (by decide)⟩

end Allocator

end ForeignCall
