import ForeignCall.Proofs.Call
import ForeignCall.Proofs.Representative

/-!
# Results of calls

Native code may leave anything above the width of its result, and a floating-point register may be
read in part. Either way a call gives back the canonical container of the whole register, the one
word in the range of the result type that agrees with the register within the width.
-/

namespace ForeignCall

namespace Invoker

/-- A result register is read far enough for the result type. -/
theorem agree_read (inv : Invoker) (register : Word) :
    inv.ret.Agree (inv.returnClass.read register) register := by
  rw [returnClass]
  cases inv.ret with
  | f32 =>
    -- The only type whose class cuts the register.
    exact BitVec.setWidth_setWidth_of_le _ (by decide)
  | _ => rfl

/-- An image is delivered under each of the 64-bit conventions. -/
theorem exists_deliver?_of_w64 {inv : Invoker} (h : inv.convention.wordSize = .w64)
    (image : Image) : ∃ delivery, inv.deliver? image = some delivery := by
  unfold deliver?
  cases hc : inv.convention with
  | x86Cdecl | x86Stdcall =>
    rw [hc] at h
    cases h
  | x64Windows => exact ⟨_, rfl⟩
  | x64Unix => exact ⟨_, rfl⟩

/-- What a call under a 64-bit convention gives back is the container of the result register,
whatever class the register is read as. -/
theorem call_eq_canonical {inv : Invoker} {words : List Word} {delivery : Delivery}
    (hl : words.length ≤ 16) (h : inv.deliver? (inv.assemble (.ofList words)) = some delivery)
    (callee : Callee) : inv.call callee words = .ok (inv.ret.canonical (callee delivery)) := by
  rw [call_eq_of_deliver hl h, Scalar.canonical_eq_iff_agree.mpr (inv.agree_read _)]

end Invoker

/-- The canonical container of a word represents the words that agree with it: it is the one of them
that is in the range of the type, it is its own container, and it is the container of no other
words. A call under a 64-bit convention gives back the container of the result register, so that
registers give the same result exactly if they agree within the width of the result. -/
theorem Scalar.canonical_represents (t : Scalar) :
    (∀ raw word : Word, word = t.canonical raw ↔ t.Agree word raw ∧ t.InRange (t.value word)) ∧
      (∀ raw : Word, t.canonical (t.canonical raw) = t.canonical raw) ∧
      (∀ x y : Word, t.canonical x = t.canonical y ↔ t.Agree x y) ∧
      ∀ inv : Invoker, inv.ret = t → inv.convention.wordSize = .w64 →
        ∀ words : List Word, words.length ≤ 16 →
          ∃ found, inv.deliver? (inv.assemble (.ofList words)) = some found ∧
            ∀ callee : Callee, ∃ result, inv.call callee words = .ok result ∧
              t.Agree result (callee found) ∧ t.InRange (t.value result) ∧
              ∀ other : Callee, inv.call other words = .ok result ↔
                t.Agree (other found) (callee found) := by
  refine ⟨fun _ _ ↦ eq_canonical_iff, t.canonical_canonical, fun _ _ ↦ canonical_eq_iff_agree, ?_⟩
  rintro inv rfl hword words hl
  obtain ⟨found, hfound⟩ := inv.exists_deliver?_of_w64 hword (inv.assemble (.ofList words))
  have hcall := inv.call_eq_canonical hl hfound
  refine ⟨found, hfound, fun callee ↦ ⟨_, hcall callee, ?_⟩⟩
  obtain ⟨hagree, hrange⟩ := eq_canonical_iff.mp (rfl : inv.ret.canonical (callee found) = _)
  refine ⟨hagree, hrange, fun other ↦ ?_⟩
  rw [hcall other, Except.ok.injEq, canonical_eq_iff_agree]

/-- Under Microsoft x64 two registers that differ above the lowest sixteen bits hold the same short
integer, which is negative. -/
theorem Scalar.canonical_represents_negative :
    ∃ inv, Allocator.x64Windows.compile (.fixed .i16 [.f64]) = .ok inv ∧
      inv.ret = .i16 ∧ inv.convention.wordSize = .w64 ∧ ([1] : List Word).length ≤ 16 ∧
      Scalar.i16.Agree 0xABCD8000 0x18000 ∧
      inv.call (fun _ ↦ 0x18000) [1] = .ok 0xFFFFFFFFFFFF8000 ∧
      inv.call (fun _ ↦ 0xABCD8000) [1] = .ok 0xFFFFFFFFFFFF8000 := by
  obtain ⟨hunique, -, -, hcall⟩ := canonical_represents .i16
  have hagree : Scalar.i16.Agree 0xABCD8000 0x18000 := by decide
  obtain ⟨inv, hcompile, hret, hword⟩ : ∃ inv,
      Allocator.x64Windows.compile (.fixed .i16 [.f64]) = .ok inv ∧ inv.ret = .i16 ∧
        inv.convention.wordSize = .w64 := ⟨_, rfl, rfl, rfl⟩
  refine ⟨inv, hcompile, hret, hword, by decide, hagree, ?_⟩
  obtain ⟨found, -, hresults⟩ := hcall inv hret hword [1] (by decide)
  obtain ⟨result, hresult, hlow, hrange, hsame⟩ := hresults fun _ ↦ 0x18000
  have hvalue : (0xFFFFFFFFFFFF8000 : Word) = result :=
    ((hunique 0x18000 _).mpr (by decide)).trans ((hunique 0x18000 _).mpr ⟨hlow, hrange⟩).symm
  rw [hvalue]
  exact ⟨hresult, (hsame _).mpr hagree⟩

end ForeignCall
