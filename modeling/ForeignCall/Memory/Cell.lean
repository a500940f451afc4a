import ForeignCall.Word

/-!
# Cells

A cell is a value of a given number of bytes, by its bit pattern. In memory it stands as its bytes,
least significant first, at any address. The two directions are inverse to each other, so nothing
about a value is lost in memory, the payload of a not-a-number included.
-/

namespace ForeignCall.Memory

/-- A value of a number of bytes. -/
abbrev Cell (width : Nat) := BitVec (8 * width)

/-- The bytes of a natural, least significant first; what does not fit is dropped. -/
def littleEndian : Nat → Nat → List UInt8
  | 0, _ => []
  | width + 1, n => UInt8.ofNat n :: littleEndian width (n / 256)

/-- The natural that bytes denote, least significant first. -/
def ofLittleEndian : List UInt8 → Nat
  | [] => 0
  | b :: rest => b.toNat + 256 * ofLittleEndian rest

/-- The bytes of a cell. -/
def encode {width : Nat} (v : Cell width) : List UInt8 := littleEndian width v.toNat

/-- The cell that bytes stand for. -/
def decode (width : Nat) (bytes : List UInt8) : Cell width :=
  BitVec.ofNat _ (ofLittleEndian bytes)

/-- A natural has as many bytes as asked for. -/
theorem length_littleEndian (width n : Nat) : (littleEndian width n).length = width := by
  induction width generalizing n with
  | zero => rfl
  | succ width ih => simp [littleEndian, ih]

/-- One more byte makes room for 256 times as many naturals. -/
private theorem shiftLeft_succ_width (width : Nat) :
    1 <<< (8 * (width + 1)) = 256 * 1 <<< (8 * width) := by
  rw [Nat.mul_succ, Nat.shiftLeft_add, Nat.shiftLeft_eq _ 8, Nat.mul_comm]

/-- Bytes of a natural give back what fits into them. -/
theorem ofLittleEndian_littleEndian (width n : Nat) :
    ofLittleEndian (littleEndian width n) = n % 1 <<< (8 * width) := by
  induction width generalizing n with
  | zero => simp [littleEndian, ofLittleEndian, Nat.mod_one]
  | succ width ih =>
    rw [shiftLeft_succ_width, Nat.mod_mul]
    simp only [littleEndian, ofLittleEndian, ih, UInt8.toNat_ofNat']

/-- Bytes denote a natural that fits into them. -/
theorem ofLittleEndian_lt (bytes : List UInt8) :
    ofLittleEndian bytes < 1 <<< (8 * bytes.length) := by
  induction bytes with
  | nil => simp [ofLittleEndian]
  | cons b rest ih =>
    have := b.toNat_lt
    rw [List.length_cons, shiftLeft_succ_width, ofLittleEndian]
    omega

/-- The bytes of the natural that bytes denote are those bytes. -/
theorem littleEndian_ofLittleEndian (bytes : List UInt8) :
    littleEndian bytes.length (ofLittleEndian bytes) = bytes := by
  induction bytes with
  | nil => rfl
  | cons b rest ih =>
    have hb := b.toNat_lt
    have hdiv : (b.toNat + 256 * ofLittleEndian rest) / 256 = ofLittleEndian rest := by omega
    simp only [List.length_cons, littleEndian, ofLittleEndian, hdiv, ih, List.cons.injEq,
      and_true]
    apply UInt8.toNat_inj.mp
    simp only [UInt8.toNat_ofNat']
    omega

/-- A cell has as many bytes as its width says. -/
@[simp] theorem length_encode {width : Nat} (v : Cell width) : (encode v).length = width :=
  length_littleEndian _ _

/-- A cell is read back from its bytes. -/
@[simp] theorem decode_encode {width : Nat} (v : Cell width) : decode width (encode v) = v := by
  apply BitVec.eq_of_toNat_eq
  rw [decode, encode, ofLittleEndian_littleEndian, BitVec.toNat_ofNat, Nat.one_shiftLeft,
    Nat.mod_mod]
  exact Nat.mod_eq_of_lt v.isLt

/-- Bytes are those of the cell they stand for. -/
theorem encode_decode {width : Nat} {bytes : List UInt8} (h : bytes.length = width) :
    encode (decode width bytes) = bytes := by
  subst h
  have hlt := ofLittleEndian_lt bytes
  rw [Nat.one_shiftLeft] at hlt
  rw [encode, decode, BitVec.toNat_ofNat, Nat.mod_eq_of_lt hlt]
  exact littleEndian_ofLittleEndian bytes

end ForeignCall.Memory
