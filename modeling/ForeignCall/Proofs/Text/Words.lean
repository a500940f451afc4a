import ForeignCall.Proofs.Text.Readable
import ForeignCall.Text.Padding
import ForeignCall.Text.Token

/-!
# Words of a line

A line is read word by word, whatever the number of spaces between its words. What contains neither a
space nor a line break is one word, and so it is in a field of a table, with the spaces that fill the
field.
-/

namespace ForeignCall.Text

/-- The words of a line: what is between its spaces. -/
def words (line : String) : List String :=
  ((tokens ' ' line.toList).filter (· ≠ [])).map String.ofList

/-- A character that separates neither words nor lines. -/
def isSolid (c : Char) : Bool := c ≠ ' ' && c ≠ '\n'

/-- The characters of names and numerals separate nothing. -/
theorem all_isSolid_of_isWordChar {cs : List Char} (h : ∀ c ∈ cs, isWordChar c = true) :
    cs.all isSolid = true := by
  refine List.all_eq_true.mpr fun c hc ↦ ?_
  have hword := h c hc
  rw [isSolid, Bool.and_eq_true, decide_eq_true_eq, decide_eq_true_eq]
  constructor
  · rintro rfl
    exact absurd hword (by decide)
  · rintro rfl
    exact absurd hword (by decide)

/-- Digits separate nothing. -/
theorem all_isSolid_toDigits {base : Nat} (hb : 1 < base) (hb' : base ≤ 16) (n : Nat) :
    (Nat.toDigits base n).all isSolid = true :=
  all_isSolid_of_isWordChar fun _ ↦ isWordChar_of_mem_toDigits hb hb'

/-- What separates nothing has no space in it. -/
theorem space_not_mem {cs : List Char} (h : cs.all isSolid = true) : ' ' ∉ cs :=
  fun hmem ↦ absurd (List.all_eq_true.mp h ' ' hmem) (by decide)

/-- What separates nothing has no line break in it. -/
theorem newline_not_mem {cs : List Char} (h : cs.all isSolid = true) : '\n' ∉ cs :=
  fun hmem ↦ absurd (List.all_eq_true.mp h '\n' hmem) (by decide)

/-- A space ends a word. -/
theorem words_append_space (line more : String) :
    words (line ++ " " ++ more) = words line ++ words more := by
  have hlist : (line ++ " " ++ more).toList = line.toList ++ ' ' :: more.toList := by simp
  rw [words, hlist, tokens_append_cons, List.filter_append, List.map_append]
  rfl

/-- There are no words in a run of spaces. -/
theorem words_spaces (n : Nat) : words (spaces n) = [] := by
  induction n with
  | zero => rfl
  | succ n ih =>
    have hfirst : spaces (n + 1) = "" ++ " " ++ spaces n := by
      apply String.toList_inj.mp
      simp [spaces, List.replicate_succ]
    rw [hfirst, words_append_space, ih]
    rfl

/-- What separates nothing is one word. -/
theorem words_of_isSolid {word : String} (hne : word ≠ "")
    (h : word.toList.all isSolid = true) : words word = [word] := by
  have hlist : word.toList ≠ [] := fun hnil ↦ hne (String.toList_inj.mp hnil)
  rw [words, tokens_of_not_mem (space_not_mem h), List.filter_cons_of_pos (by simpa using hlist)]
  simp

/-- Spaces behind a word change nothing. -/
theorem words_append_spaces {word : String} (hne : word ≠ "")
    (h : word.toList.all isSolid = true) (n : Nat) : words (word ++ spaces n) = [word] := by
  cases n with
  | zero =>
    have hnone : word ++ spaces 0 = word := by simp [spaces]
    rw [hnone, words_of_isSolid hne h]
  | succ n =>
    have hfirst : word ++ spaces (n + 1) = word ++ " " ++ spaces n := by
      apply String.toList_inj.mp
      simp [spaces, List.replicate_succ]
    rw [hfirst, words_append_space, words_spaces, List.append_nil, words_of_isSolid hne h]

/-- A word in a field is the only one. -/
theorem words_padRight {word : String} (hne : word ≠ "") (h : word.toList.all isSolid = true)
    (width : Nat) : words (padRight width word) = [word] :=
  words_append_spaces hne h _

end ForeignCall.Text
