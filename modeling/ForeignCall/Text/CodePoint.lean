/-!
# Ranges of code points

A property of characters given by the ranges of code points that have it, both ends included.
-/

namespace ForeignCall.Text

/-- Whether a character lies in one of the ranges. -/
def inRanges (ranges : List (Nat × Nat)) (c : Char) : Bool :=
  ranges.any fun (low, high) => low ≤ c.toNat && c.toNat ≤ high

/-- A character lies in joined tables exactly if it lies in one of them. -/
theorem inRanges_append (rs ss : List (Nat × Nat)) (c : Char) :
    inRanges (rs ++ ss) c = (inRanges rs c || inRanges ss c) := by
  simp [inRanges]

end ForeignCall.Text
