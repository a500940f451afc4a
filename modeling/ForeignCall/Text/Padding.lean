/-!
# Padding

Texts brought to a least width with spaces, counted in characters. A text that is already wide
enough is left as it is.
-/

namespace ForeignCall.Text

/-- A run of spaces. -/
def spaces (n : Nat) : String := String.ofList (List.replicate n ' ')

/-- The text at the left of a field. -/
def padRight (width : Nat) (text : String) : String :=
  text ++ spaces (width - text.length)

/-- The text at the right of a field. -/
def padLeft (width : Nat) (text : String) : String :=
  spaces (width - text.length) ++ text

/-- The text in the middle of a field; an odd space goes to the right. -/
def center (width : Nat) (text : String) : String :=
  let gap := width - text.length
  spaces (gap / 2) ++ text ++ spaces (gap - gap / 2)

/-- A run of spaces has the length asked for. -/
theorem length_spaces (n : Nat) : (spaces n).length = n := by
  simp [spaces]

/-- A padded text is as wide as the field or the text, whichever is wider. -/
theorem length_padRight (width : Nat) (text : String) :
    (padRight width text).length = max width text.length := by
  simp only [padRight, String.length_append, length_spaces]
  omega

/-- Padding on the left gives the same width as padding on the right. -/
theorem length_padLeft (width : Nat) (text : String) :
    (padLeft width text).length = max width text.length := by
  simp only [padLeft, String.length_append, length_spaces]
  omega

/-- Centring gives the same width as padding on one side. -/
theorem length_center (width : Nat) (text : String) :
    (center width text).length = max width text.length := by
  simp only [center, String.length_append, length_spaces]
  omega

end ForeignCall.Text
