import ForeignCall.Text.Numeral

/-!
# Texts with one reading

A report is made of words, which are runs of letters, digits and underscores, with punctuation
between them. A part of a report is determined if its text tells what it was written for and where
the report goes on. Words are determined in front of punctuation. So are parts with a mark of their
own, even if they are left out for one value, and lists of such parts, in front of any punctuation
but the mark. Parts one after the other are determined together if each is ended by the next.
-/

namespace ForeignCall.Text

/-- A character of a word: a letter, a digit or an underscore. -/
def isWordChar (c : Char) : Bool := c.isAlphanum || c = '_'

/-- A text that does not go on with a word and does not start with one of some marks. -/
def Breaks (marks rest : List Char) : Prop :=
  ∀ c ∈ rest.head?, isWordChar c = false ∧ c ∉ marks

/-- A part of a text that starts with a mark, whatever it is written for. -/
structure Marked {α : Type} (mark : Char) (write : α → List Char) : Prop where
  /-- The mark comes first. -/
  head : ∀ a, (write a).head? = some mark
  /-- The mark is in no word. -/
  notWord : isWordChar mark = false

/-- What is written for a value determines a part of the value and where the text goes on, if it goes
on with a break that is none of some marks. -/
def Determines {α β : Type} (write : α → List Char) (part : α → β) (marks : List Char) : Prop :=
  ∀ ⦃a b : α⦄ ⦃rest rest' : List Char⦄, Breaks marks rest → Breaks marks rest' →
    write a ++ rest = write b ++ rest' → part a = part b ∧ rest = rest'

/-! ### Numerals -/

private theorem digitChar_of_lt : ∀ d < 16, isWordChar (Nat.digitChar d) = true ∧
    ∀ e < 16, Nat.digitChar d = Nat.digitChar e → d = e := by
  decide

section Numerals

variable {base : Nat} (hb : 1 < base) (hb' : base ≤ 16)

include hb hb'

/-- The digits of a number are characters of a word. -/
theorem isWordChar_of_mem_toDigits {n : Nat} {c : Char} (hc : c ∈ Nat.toDigits base n) :
    isWordChar c = true := by
  induction n using Nat.strongRecOn with
  | ind n ih =>
    rw [Nat.toDigits_eq_if hb] at hc
    split at hc
    · next hn =>
      rw [List.mem_singleton.mp hc]
      exact (digitChar_of_lt n (by omega)).1
    · next hn =>
      rcases List.mem_append.mp hc with hc | hc
      · exact ih (n / base) (Nat.div_lt_self (by omega) hb) hc
      · have hlast := Nat.mod_lt n (show base > 0 by omega)
        rw [List.mem_singleton.mp hc]
        exact (digitChar_of_lt (n % base) (by omega)).1

/-- A number is known from its digits. -/
theorem toDigits_inj {m n : Nat} : Nat.toDigits base m = Nat.toDigits base n ↔ m = n := by
  refine ⟨fun h ↦ ?_, congrArg _⟩
  -- The last digit is the remainder by the base, and those before it are the digits of the quotient.
  induction m using Nat.strongRecOn generalizing n with
  | ind m ih =>
    rw [Nat.toDigits_eq_if hb, Nat.toDigits_eq_if (n := n) hb] at h
    split at h <;> split at h
    · next hm hn =>
      exact (digitChar_of_lt m (by omega)).2 n (by omega) (List.singleton_inj.mp h)
    · next hm hn => simp [List.singleton_eq_append_iff] at h
    · next hm hn => simp [List.append_eq_singleton_iff] at h
    · next hm hn =>
      obtain ⟨hfirst, hlast⟩ := List.append_inj' h rfl
      have hquotient := ih (m / base) (Nat.div_lt_self (by omega) hb) hfirst
      have hm := Nat.mod_lt m (show base > 0 by omega)
      have hn := Nat.mod_lt n (show base > 0 by omega)
      have hremainder := (digitChar_of_lt (m % base) (by omega)).2 (n % base) (by omega)
        (List.singleton_inj.mp hlast)
      rw [← Nat.div_add_mod m base, ← Nat.div_add_mod n base, hquotient, hremainder]

end Numerals

/-- A number is known from its decimal numeral. -/
theorem decimal_inj {m n : Nat} : decimal m = decimal n ↔ m = n :=
  toDigits_inj (by decide) (by decide)

/-- A binary numeral is known to be that of its number, however far it is filled with zeros. -/
theorem zeroFilled_binary_inj {width m n : Nat} :
    zeroFilled width (binary m) = zeroFilled width (binary n) ↔ m = n := by
  have hvalue (k : Nat) : Nat.ofDigitChars 2 (zeroFilled width (binary k)) 0 = k := by
    rw [zeroFilled, Nat.ofDigitChars_append, Nat.ofDigitChars_replicate_zero, Nat.mul_zero, binary,
      Nat.ofDigitChars_toDigits (by decide) (by decide)]
  refine ⟨fun h ↦ ?_, fun h ↦ h ▸ rfl⟩
  rw [← hvalue m, h, hvalue]

/-- The digits of a binary numeral that is filled with zeros are characters of a word. -/
theorem isWordChar_of_mem_zeroFilled {width n : Nat} {c : Char}
    (hc : c ∈ zeroFilled width (binary n)) : isWordChar c = true := by
  rcases List.mem_append.mp hc with hc | hc
  · rw [List.eq_of_mem_replicate hc]
    decide
  · exact isWordChar_of_mem_toDigits (by decide) (by decide) hc

/-! ### Words and breaks -/

section Breaks

variable {α : Type} {write : α → List Char} {mark c : Char} {marks rest : List Char}

/-- A text breaks at its end. -/
theorem breaks_nil (marks : List Char) : Breaks marks [] := by
  simp [Breaks]

/-- Whether a text breaks is seen at its first character. -/
theorem breaks_cons_iff : Breaks marks (c :: rest) ↔ isWordChar c = false ∧ c ∉ marks := by
  simp [Breaks]

/-- A text that breaks without one of some marks does so without one of fewer. -/
theorem Breaks.mono {fewer : List Char} (h : Breaks marks rest) (hsub : fewer ⊆ marks) :
    Breaks fewer rest :=
  fun c hc ↦ ⟨(h c hc).1, fun hmem ↦ (h c hc).2 (hsub hmem)⟩

/-- A part has the mark that is written first. -/
theorem marked_cons (hmark : isWordChar mark = false) (write : α → List Char) :
    Marked mark fun a ↦ mark :: write a :=
  ⟨fun _ ↦ rfl, hmark⟩

/-- A part with a mark breaks the text. -/
theorem Marked.breaks (h : Marked mark write) (hmark : mark ∉ marks) (a : α) (rest : List Char) :
    Breaks marks (write a ++ rest) := by
  intro c hc
  rw [List.head?_append, h.head, Option.some_or] at hc
  cases hc
  exact ⟨h.notWord, hmark⟩

/-- A text that breaks otherwise does not start with a part that has the mark. -/
theorem Marked.ne_append (h : Marked mark write) (hrest : Breaks marks rest) (hmark : mark ∈ marks)
    (a : α) (rest' : List Char) : rest ≠ write a ++ rest' := by
  rintro rfl
  have hhead : (write a ++ rest').head? = some mark := by
    rw [List.head?_append, h.head, Option.some_or]
  exact (hrest mark hhead).2 hmark

/-- A list of parts with a mark, or what follows it, breaks the text. -/
theorem Marked.breaks_flatMap (h : Marked mark write) (hrest : Breaks [mark] rest) (as : List α) :
    Breaks [] (as.flatMap write ++ rest) := by
  cases as with
  | nil => exact hrest.mono (List.nil_subset _)
  | cons a as =>
    rw [List.flatMap_cons, List.append_assoc]
    exact h.breaks List.not_mem_nil a _

/-- A word ends where the text breaks. -/
theorem takeWhile_append_of_breaks {word : List Char} (hword : ∀ c ∈ word, isWordChar c = true)
    (h : Breaks marks rest) : (word ++ rest).takeWhile isWordChar = word := by
  rw [List.takeWhile_append_of_pos hword]
  cases rest with
  | nil => rw [List.takeWhile_nil, List.append_nil]
  | cons c rest =>
    rw [List.takeWhile_cons_of_neg (by simp [(breaks_cons_iff.mp h).1]), List.append_nil]

end Breaks

/-! ### Parts and their readings -/

namespace Determines

variable {α β γ : Type} {write next : α → List Char} {part : α → β} {nextPart : α → γ}
  {mark : Char} {marks : List Char}

/-- If a text determines the value it is written for, different values have different texts. -/
theorem inj (h : Determines write (fun a ↦ a) marks) {a b : α} : write a = write b ↔ a = b := by
  refine ⟨fun heq ↦ ?_, congrArg _⟩
  have hrest : write a ++ [] = write b ++ [] := by rw [heq]
  exact (h (breaks_nil marks) (breaks_nil marks) hrest).1

/-- What follows from a part that is determined is determined. -/
theorem imp (h : Determines write part marks)
    (hpart : ∀ a b, part a = part b → nextPart a = nextPart b) :
    Determines write nextPart marks := by
  intro a b rest rest' hrest hrest' heq
  obtain ⟨heq, hrest⟩ := h hrest hrest' heq
  exact ⟨hpart a b heq, hrest⟩

/-- A field of a value is determined where its text is written. -/
theorem field (h : Determines write part marks) (f : γ → α) :
    Determines (fun c ↦ write (f c)) (fun c ↦ part (f c)) marks :=
  fun _ _ _ _ hrest hrest' heq ↦ h hrest hrest' heq

/-- A word determines what it is known to name. -/
theorem of_word (hword : ∀ a, ∀ c ∈ write a, isWordChar c = true)
    (hpart : ∀ a b, write a = write b → part a = part b) : Determines write part [] := by
  intro a b rest rest' hrest hrest' h
  -- The word is what the text has in front of its first break.
  have hwrite : write a = write b := by
    rw [← takeWhile_append_of_breaks (hword a) hrest, h,
      takeWhile_append_of_breaks (hword b) hrest']
  rw [hwrite] at h
  exact ⟨hpart a b hwrite, List.append_cancel_left h⟩

/-- A numeral determines what its number is known to name. -/
theorem numeral {base : Nat} (hb : 1 < base) (hb' : base ≤ 16) {number : α → Nat}
    (hpart : ∀ a b, number a = number b → part a = part b) :
    Determines (fun a ↦ Nat.toDigits base (number a)) part [] :=
  of_word (fun _ _ ↦ isWordChar_of_mem_toDigits hb hb')
    fun a b h ↦ hpart a b ((toDigits_inj hb hb').mp h)

/-- A fixed text may stand before a part. -/
theorem behind (h : Determines write part marks) (fixed : List Char) :
    Determines (fun a ↦ fixed ++ write a) part marks := by
  intro a b rest rest' hrest hrest' heq
  rw [List.append_assoc, List.append_assoc] at heq
  exact h hrest hrest' (List.append_cancel_left heq)

/-- Two parts, of which the second ends the first, are determined together. -/
theorem append {after : List Char} (h : Determines write part marks)
    (hnext : Determines next nextPart after)
    (hends : ∀ a rest, Breaks after rest → Breaks marks (next a ++ rest)) :
    Determines (fun a ↦ write a ++ next a) (fun a ↦ (part a, nextPart a)) after := by
  intro a b rest rest' hrest hrest' heq
  rw [List.append_assoc, List.append_assoc] at heq
  obtain ⟨hpart, heq⟩ := h (hends a rest hrest) (hends b rest' hrest') heq
  obtain ⟨hnextPart, heq⟩ := hnext hrest hrest' heq
  exact ⟨Prod.ext hpart hnextPart, heq⟩

/-- A part with a mark ends what stands before it. -/
theorem append_marked {after : List Char} (h : Determines write part marks)
    (hnext : Determines next nextPart after) (hmarked : Marked mark next) (hmark : mark ∉ marks) :
    Determines (fun a ↦ write a ++ next a) (fun a ↦ (part a, nextPart a)) after :=
  h.append hnext fun a rest _ ↦ hmarked.breaks hmark a rest

/-- A part with a mark may be left out for one value, if the text does not go on with the mark. -/
theorem leftOut [DecidableEq β] (h : Determines write part []) (hmarked : Marked mark write)
    (hmark : mark ∈ marks) (absent : β) :
    Determines (fun a ↦ if part a = absent then [] else write a) part marks := by
  intro a b rest rest' hrest hrest' heq
  dsimp only at heq
  by_cases ha : part a = absent <;> by_cases hb : part b = absent
  · rw [if_pos ha, if_pos hb] at heq
    exact ⟨ha.trans hb.symm, heq⟩
  · rw [if_pos ha, if_neg hb] at heq
    exact absurd heq (hmarked.ne_append hrest hmark b rest')
  · rw [if_neg ha, if_pos hb] at heq
    exact absurd heq.symm (hmarked.ne_append hrest' hmark a rest)
  · rw [if_neg ha, if_neg hb] at heq
    exact h (hrest.mono (List.nil_subset _)) (hrest'.mono (List.nil_subset _)) heq

/-- A part that may be left out still ends what stands before it. -/
theorem append_leftOut [DecidableEq γ] (h : Determines write part marks)
    (hnext : Determines next nextPart []) (hmarked : Marked mark next) (hmark : mark ∉ marks)
    (absent : γ) :
    Determines (fun a ↦ write a ++ if nextPart a = absent then [] else next a)
      (fun a ↦ (part a, nextPart a)) (mark :: marks) := by
  refine h.append (hnext.leftOut hmarked List.mem_cons_self absent) fun a rest hrest ↦ ?_
  split
  · exact hrest.mono (List.subset_cons_self mark marks)
  · exact hmarked.breaks hmark a rest

/-- A part that is closed by a fixed text may stand before any mark. -/
theorem closed {after fixed : List Char} (h : Determines write part marks)
    (hfixed : ∀ rest, Breaks marks (fixed ++ rest)) :
    Determines (fun a ↦ write a ++ fixed) part after := by
  intro a b rest rest' _ _ heq
  rw [List.append_assoc, List.append_assoc] at heq
  obtain ⟨hpart, hrest⟩ := h (hfixed rest) (hfixed rest') heq
  exact ⟨hpart, List.append_cancel_left hrest⟩

/-- A list of parts with a mark is determined, if the text does not go on with the mark. -/
theorem flatMap (h : Determines write (fun a ↦ a) []) (hmarked : Marked mark write) :
    Determines (fun as : List α ↦ as.flatMap write) (fun as ↦ as) [mark] := by
  intro as bs rest rest' hrest hrest' heq
  have hmark : mark ∈ [mark] := List.mem_singleton_self mark
  induction as generalizing bs with
  | nil =>
    cases bs with
    | nil => exact ⟨rfl, heq⟩
    | cons b bs =>
      dsimp only at heq
      rw [List.flatMap_nil, List.nil_append, List.flatMap_cons, List.append_assoc] at heq
      exact absurd heq (hmarked.ne_append hrest hmark b _)
  | cons a as ih =>
    dsimp only at heq
    cases bs with
    | nil =>
      rw [List.flatMap_nil, List.nil_append, List.flatMap_cons, List.append_assoc] at heq
      exact absurd heq.symm (hmarked.ne_append hrest' hmark a _)
    | cons b bs =>
      rw [List.flatMap_cons, List.flatMap_cons, List.append_assoc, List.append_assoc] at heq
      obtain ⟨hitem, heq⟩ := h (hmarked.breaks_flatMap hrest as) (hmarked.breaks_flatMap hrest' bs)
        heq
      obtain ⟨hitems, heq⟩ := ih heq
      exact ⟨List.cons_eq_cons.mpr ⟨hitem, hitems⟩, heq⟩

end Determines

end ForeignCall.Text
