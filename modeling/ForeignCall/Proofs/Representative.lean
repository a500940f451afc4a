import ForeignCall.Proofs.Canonical
import Mathlib.Algebra.Group.Int.Defs
import Mathlib.Algebra.Group.Nat.Defs

/-!
# Canonical containers as integers

A type divides the integers into the classes modulo two to its width, and its range meets every
class once. The canonical container of a word, read as an integer of the type, is the member of the
range in the class of that word: in two's complement for a signed type, without a sign for any
other. It is the only word that holds a member of the range and agrees with the word within the
width.
-/

namespace ForeignCall.Scalar

/-- The integer that a word holds for a type: signed types read two's complement over the whole
container, the others read no sign. -/
def value (t : Scalar) (word : Word) : Int :=
  if t.isSigned then word.toInt else word.toNat

/-- The integers a type can represent. -/
def InRange (t : Scalar) (z : Int) : Prop :=
  if t.isSigned then -2 ^ (t.bits - 1) ≤ z ∧ z < 2 ^ (t.bits - 1) else 0 ≤ z ∧ z < 2 ^ t.bits

/-- Whether an integer can be represented can be computed. -/
instance (t : Scalar) (z : Int) : Decidable (t.InRange z) := by
  unfold InRange
  infer_instance

variable {t : Scalar}

/-- The container of a signed type repeats the sign of the low part. -/
theorem canonical_of_isSigned (h : t.isSigned = true) (word : Word) :
    t.canonical word = (word.setWidth t.bits).signExtend 64 := by
  have hb := t.bits_pos
  apply BitVec.eq_of_getLsbD_eq
  intro j hj
  rw [getLsbD_canonical t word j hj, BitVec.getLsbD_signExtend, BitVec.msb_setWidth,
    BitVec.getLsbD_setWidth]
  simp only [hj, hb, h, decide_true, Bool.true_and]
  by_cases hw : j < t.bits <;> simp [hw]

/-- The container of any other type is the low part alone. -/
theorem canonical_of_not_isSigned (h : t.isSigned = false) (word : Word) :
    t.canonical word = (word.setWidth t.bits).setWidth 64 := by
  apply BitVec.eq_of_getLsbD_eq
  intro j hj
  rw [getLsbD_canonical t word j hj, BitVec.getLsbD_setWidth, BitVec.getLsbD_setWidth]
  simp only [hj, h, decide_true, Bool.true_and, Bool.false_and]
  by_cases hw : j < t.bits <;> simp [hw]

/-- Read as an integer, the container holds what the low part holds at its own width. -/
theorem value_canonical (t : Scalar) (word : Word) :
    t.value (t.canonical word) =
      if t.isSigned then (word.setWidth t.bits).toInt else (word.setWidth t.bits).toNat := by
  have hl := t.bits_le
  unfold value
  split
  · next h => rw [canonical_of_isSigned h, BitVec.toInt_signExtend_of_le hl]
  · next h =>
    rw [canonical_of_not_isSigned (by simpa using h), BitVec.toNat_setWidth_of_le hl]

/-- The container holds an integer of the type. -/
theorem inRange_canonical (t : Scalar) (word : Word) : t.InRange (t.value (t.canonical word)) := by
  rw [value_canonical]
  unfold InRange
  split
  · exact ⟨BitVec.le_toInt _, BitVec.toInt_lt⟩
  · exact ⟨Int.natCast_nonneg _, by exact_mod_cast BitVec.isLt _⟩

/-- The container stays in the class of its word. -/
theorem value_canonical_emod (t : Scalar) (word : Word) :
    t.value (t.canonical word) % 2 ^ t.bits = word.toNat % 2 ^ t.bits := by
  have hpow : ((2 ^ t.bits : Nat) : Int) = 2 ^ t.bits := Int.natCast_pow 2 t.bits
  rw [value_canonical, ← hpow]
  split
  · rw [BitVec.toInt_setWidth, Int.bmod_emod]
  · rw [BitVec.toNat_setWidth, Int.natCast_emod, Int.emod_emod_of_dvd _ (Int.dvd_refl _)]

/-- A word made from an integer is in the class of that integer for every type. -/
theorem value_canonical_ofInt_emod (t : Scalar) (z : Int) :
    t.value (t.canonical (BitVec.ofInt 64 z)) % 2 ^ t.bits = z % 2 ^ t.bits := by
  have hdvd : (2 : Int) ^ t.bits ∣ ((2 ^ 64 : Nat) : Int) := by
    rw [show (2 : Int) ^ t.bits = ((2 ^ t.bits : Nat) : Int) from (Int.natCast_pow 2 _).symm]
    exact Int.natCast_dvd_natCast.mpr (Nat.pow_dvd_pow 2 t.bits_le)
  have hpos : 0 ≤ z % ((2 ^ 64 : Nat) : Int) := Int.emod_nonneg z (by decide)
  rw [value_canonical_emod, BitVec.toNat_ofInt, Int.toNat_of_nonneg hpos,
    Int.emod_emod_of_dvd z hdvd]

/-- The range of a type meets every class at most once. -/
theorem InRange.eq_of_emod_eq {m n : Int} (hm : t.InRange m) (hn : t.InRange n)
    (h : m % 2 ^ t.bits = n % 2 ^ t.bits) : m = n := by
  simp only [InRange] at hm hn
  cases t <;>
    simp only [isSigned, bits, bytes, Bool.false_eq_true, ite_true, ite_false] at hm hn h <;>
    omega

/-- The container of a word made from an integer holds the one member of the range in the class of
that integer. -/
theorem eq_value_canonical_ofInt_iff (t : Scalar) (z m : Int) :
    m = t.value (t.canonical (BitVec.ofInt 64 z)) ↔
      t.InRange m ∧ m % 2 ^ t.bits = z % 2 ^ t.bits := by
  have hr := t.inRange_canonical (BitVec.ofInt 64 z)
  have hz := t.value_canonical_ofInt_emod z
  constructor
  · rintro rfl
    exact ⟨hr, hz⟩
  · rintro ⟨hm, hc⟩
    exact hm.eq_of_emod_eq hr (hc.trans hz.symm)

/-! ### Words that agree within the width -/

/-- Words that agree in all bits of the width of a type. -/
def Agree (t : Scalar) (x y : Word) : Prop := x.setWidth t.bits = y.setWidth t.bits

/-- Whether words agree can be computed. -/
instance (t : Scalar) (x y : Word) : Decidable (t.Agree x y) :=
  inferInstanceAs (Decidable (x.setWidth t.bits = y.setWidth t.bits))

variable {x y : Word}

/-- Words agree exactly if each bit of the width is the same in both. -/
theorem agree_iff : t.Agree x y ↔ ∀ j < t.bits, x.getLsbD j = y.getLsbD j := by
  constructor
  · intro h j hj
    have hbit := congrArg (fun low ↦ low.getLsbD j) h
    simpa [hj] using hbit
  · intro h
    apply BitVec.eq_of_getLsbD_eq
    intro j hj
    rw [BitVec.getLsbD_setWidth, BitVec.getLsbD_setWidth, h j hj]

/-- Words with the same container are those that agree. -/
theorem canonical_eq_iff_agree : t.canonical x = t.canonical y ↔ t.Agree x y := by
  rw [canonical_eq_iff, agree_iff]

/-- A container agrees with its word. -/
theorem agree_canonical (t : Scalar) (word : Word) : t.Agree (t.canonical word) word := by
  have hl := t.bits_le
  rw [agree_iff]
  intro j hj
  rw [getLsbD_canonical t word j (by omega), if_pos hj]

/-- A word is made again from the integer that it holds. -/
theorem ofInt_value (t : Scalar) (word : Word) : BitVec.ofInt 64 (t.value word) = word := by
  unfold value
  split
  · exact BitVec.ofInt_toInt
  · rw [BitVec.ofInt_natCast, BitVec.ofNat_toNat, BitVec.setWidth_eq]

/-- A word that holds an integer of the type is a container. -/
theorem canonical_of_inRange (h : t.InRange (t.value x)) : t.canonical x = x := by
  have hvalue := (t.eq_value_canonical_ofInt_iff (t.value x) (t.value x)).mpr ⟨h, rfl⟩
  rw [ofInt_value] at hvalue
  rw [← t.ofInt_value (t.canonical x), ← hvalue, ofInt_value]

/-- The container of a word is the one word that agrees with it and holds an integer of the type. -/
theorem eq_canonical_iff : y = t.canonical x ↔ t.Agree y x ∧ t.InRange (t.value y) := by
  constructor
  · rintro rfl
    exact ⟨t.agree_canonical x, t.inRange_canonical x⟩
  · rintro ⟨hagree, hrange⟩
    rw [← canonical_of_inRange hrange]
    exact canonical_eq_iff_agree.mpr hagree

/-- A container is its own container. -/
theorem canonical_canonical (t : Scalar) (word : Word) :
    t.canonical (t.canonical word) = t.canonical word :=
  canonical_of_inRange (t.inRange_canonical word)

end ForeignCall.Scalar
