/-!
# Machine words

Every value that crosses the call boundary travels in one 64-bit container. A word is a bit
vector, so the laws of bit vectors apply to it without conversion.
-/

namespace ForeignCall

/-- A 64-bit container. -/
abbrev Word := BitVec 64

/-- A word has a first bit, so shifts can be written as numerals. -/
instance neZero_wordBits : @NeZero Nat Zero.ofOfNat0 64 := ⟨by decide⟩

end ForeignCall
