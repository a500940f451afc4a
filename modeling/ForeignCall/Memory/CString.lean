import ForeignCall.Text.Utf8

/-!
# C strings

A C string is the bytes of a block up to the first zero byte; without one there is no string. Its
text is read with replacement, and strings are ordered by their bytes.
-/

namespace ForeignCall.Memory

/-- The C string at the start of bytes. -/
def cString? (bytes : List UInt8) : Option (List UInt8) :=
  if bytes.any (· = 0) then some (bytes.takeWhile (· ≠ 0)) else none

/-- Length of the C string at the start of bytes. -/
def strlen? (bytes : List UInt8) : Option Nat := (cString? bytes).map (·.length)

/-- The text of the C string at the start of bytes. -/
def readCString? (bytes : List UInt8) : Option String :=
  (cString? bytes).map fun s => String.ofList (Text.Utf8.decodeLossy s)

/-- The order of byte strings of one length: that of the first bytes that differ. -/
def compareBytes : List UInt8 → List UInt8 → Ordering
  | a :: as, b :: bs => if a < b then .lt else if b < a then .gt else compareBytes as bs
  | _, _ => .eq

/-- The order of C strings: that of their bytes with the final zero. -/
def compareCStrings (s t : List UInt8) : Ordering := compareBytes (s ++ [0]) (t ++ [0])

/-- A C string has no zero byte. -/
theorem zero_notMem_of_cString? {bytes s : List UInt8} (h : cString? bytes = some s) :
    0 ∉ s := by
  unfold cString? at h
  split at h
  · cases h
    intro hmem
    have := List.all_takeWhile (p := fun b : UInt8 => decide (b ≠ 0)) (l := bytes)
    rw [List.all_eq_true] at this
    simpa using this 0 hmem
  · cases h

/-- Bytes that end in their only zero byte are a C string and that byte. -/
theorem cString?_append_zero {s : List UInt8} (h : 0 ∉ s) (rest : List UInt8) :
    cString? (s ++ 0 :: rest) = some s := by
  induction s with
  | nil => simp [cString?]
  | cons b s ih =>
    have hb : b ≠ 0 := fun hb => h (by simp [hb])
    have hs : 0 ∉ s := fun hs => h (by simp [hs])
    have htail := ih hs
    simp only [cString?, List.any_append, List.any_cons, decide_true, Bool.true_or, Bool.or_true,
      ↓reduceIte, Option.some.injEq] at htail ⊢
    rw [List.cons_append, List.takeWhile_cons_of_pos (by simpa using hb), htail]

end ForeignCall.Memory
