import ForeignCall.Scalar

/-!
# Bits of canonical containers

The bits of a canonical container in terms of those of the word it comes from: within the declared
width they are kept, and above it every bit is the sign, or zero for a type without one. Two
containers are therefore equal exactly if the words agree within the width.
-/

namespace ForeignCall.Scalar

/-- No type is wider than a container. -/
theorem bits_le (t : Scalar) : t.bits ≤ 64 := by cases t <;> decide

/-- Every type has a bit. -/
theorem bits_pos (t : Scalar) : 0 < t.bits := by cases t <;> decide

private theorem bits_of_bytes_eq {t : Scalar} (h : t.bytes = 8) : t.bits = 64 := by
  rw [bits, h]

private theorem getLsbD_mask {t : Scalar} (j : Nat) (hj : j < 64) :
    t.mask.getLsbD j = decide (j < t.bits) := by
  unfold mask
  split
  · next h => simp only [BitVec.getLsbD_allOnes, bits_of_bytes_eq h]
  · next h =>
    simp only [BitVec.getLsbD_not, BitVec.getLsbD_shiftLeft, BitVec.getLsbD_allOnes, hj,
      decide_true, Bool.true_and, show j - t.bits < 64 by omega, Bool.and_true]
    by_cases h : j < t.bits <;> simp [h]

private theorem and_signBit_ne_zero {t : Scalar} (word : Word) :
    word &&& t.signBit ≠ 0 ↔ word.getLsbD (t.bits - 1) = true := by
  have hb := t.bits_pos
  have hl := t.bits_le
  rw [signBit, ← BitVec.twoPow_eq, BitVec.and_twoPow]
  split
  · next h =>
    simp only [h, iff_true]
    intro hz
    have hbit := congrArg (fun w : Word ↦ w.getLsbD (t.bits - 1)) hz
    simp [show t.bits - 1 < 64 by omega] at hbit
  · next h => simp [h]

/-- Within the width a bit is kept; above it every bit is the sign of a signed value and zero
otherwise. -/
theorem getLsbD_canonical (t : Scalar) (raw : Word) (j : Nat) (hj : j < 64) :
    (t.canonical raw).getLsbD j =
      if j < t.bits then raw.getLsbD j else t.isSigned && raw.getLsbD (t.bits - 1) := by
  have hb := t.bits_pos
  unfold canonical
  split
  · next h => simp [bits_of_bytes_eq h, hj]
  · have hs : (raw &&& t.mask).getLsbD (t.bits - 1) = raw.getLsbD (t.bits - 1) := by
      rw [BitVec.getLsbD_and, getLsbD_mask _ (by have := t.bits_le; omega)]
      simp [show t.bits - 1 < t.bits by omega]
    simp only [and_signBit_ne_zero, hs]
    split
    · next h =>
      simp only [BitVec.getLsbD_or, BitVec.getLsbD_and, BitVec.getLsbD_not, getLsbD_mask j hj,
        hj, h.1, h.2]
      by_cases hw : j < t.bits <;> simp [hw]
    · next h =>
      simp only [BitVec.getLsbD_and, getLsbD_mask j hj]
      by_cases hw : j < t.bits
      · simp [hw]
      · simp only [hw, decide_false, Bool.and_false, ite_false, Bool.false_eq]
        simpa using h

/-- Two words have the same canonical container exactly if they agree within the width. -/
theorem canonical_eq_iff (t : Scalar) (x y : Word) :
    t.canonical x = t.canonical y ↔ ∀ j < t.bits, x.getLsbD j = y.getLsbD j := by
  have hl := t.bits_le
  constructor
  · intro h j hj
    have hbit := congrArg (fun w : Word ↦ w.getLsbD j) h
    simpa only [getLsbD_canonical t _ j (by omega), hj, ite_true] using hbit
  · intro h
    apply BitVec.eq_of_getLsbD_eq
    intro j hj
    have hsign := h (t.bits - 1) (by have := t.bits_pos; omega)
    rw [getLsbD_canonical t x j hj, getLsbD_canonical t y j hj, hsign]
    split
    · next hw => exact h j hw
    · rfl

/-- Zero is the canonical container of zero. -/
theorem canonical_zero (t : Scalar) : t.canonical 0 = 0 := by cases t <;> decide

/-- One is the canonical container of one. -/
theorem canonical_one (t : Scalar) : t.canonical 1 = 1 := by cases t <;> decide

end ForeignCall.Scalar
