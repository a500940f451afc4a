import ForeignCall.Proofs.Representative
import ForeignCall.Tool.Argument
import Mathlib.Data.Nat.Digits.Defs

/-!
# The texts of integers

The grammar of an integer on the command line, the integer a text denotes, and what becomes of that
integer when it is read for a parameter of some type and printed as a result of the same type: the
class modulo two to the width survives, and nothing else does.
-/

namespace ForeignCall.Tool

/-! ## The grammar -/

/-- The mark of a base before the digits. -/
inductive BaseMark where
  | none
  | lower
  | upper
  deriving DecidableEq, Repr

/-- The characters of the mark. -/
def BaseMark.chars : BaseMark → List Char
  | none => []
  | lower => ['0', 'x']
  | upper => ['0', 'X']

/-- The base that a mark announces. -/
def BaseMark.base : BaseMark → Nat
  | none => 10
  | lower | upper => 16

/-- The digits of all bases, in the order of their values and in lower case. -/
def digitChars : List Char :=
  ['0', '1', '2', '3', '4', '5', '6', '7', '8', '9', 'a', 'b', 'c', 'd', 'e', 'f']

/-- A digit of a base, in either case. -/
def IsDigit (base : Nat) (c : Char) : Prop := c.toLower ∈ digitChars.take base

/-- Whether a character is a digit can be computed. -/
instance (base : Nat) (c : Char) : Decidable (IsDigit base c) :=
  inferInstanceAs (Decidable (c.toLower ∈ digitChars.take base))

/-- The value of a digit. -/
def digitValue (c : Char) : Nat := digitChars.idxOf c.toLower

/-- An integer as it is spelled: a minus sign, a mark of the base and a plus sign, each of which may
be missing, and then digits. -/
structure IntegerSpelling where
  negative : Bool
  mark : BaseMark
  plus : Bool
  digits : List Char
  digits_ne_nil : digits ≠ []
  isDigit : ∀ c ∈ digits, IsDigit mark.base c

namespace IntegerSpelling

variable (s : IntegerSpelling)

/-- What follows the mark of the base. -/
def unmarked : List Char := (if s.plus then ['+'] else []) ++ s.digits

/-- What follows the minus sign. -/
def unsigned : List Char := s.mark.chars ++ s.unmarked

/-- The characters of the text. -/
def chars : List Char := (if s.negative then ['-'] else []) ++ s.unsigned

/-- The number that the digits denote. -/
def magnitude : Nat := Nat.ofDigits s.mark.base (s.digits.reverse.map digitValue)

/-- The integer that the text denotes. -/
def value : Int := if s.negative then -s.magnitude else s.magnitude

end IntegerSpelling

/-! ## Digits -/

/-- Every mark announces ten or sixteen. -/
theorem BaseMark.base_mem (mark : BaseMark) : mark.base ∈ [10, 16] := by cases mark <;> decide

/-- A base is not zero. -/
theorem BaseMark.base_pos (mark : BaseMark) : 0 < mark.base := by cases mark <;> decide

private theorem digitValue?_ascii : ∀ n < 128, ∀ base ∈ [10, 16],
    Text.digitValue? base (Char.ofNat n) =
      if IsDigit base (Char.ofNat n) then some (digitValue (Char.ofNat n)) else none := by
  decide +kernel

/-- Every digit is an ASCII character. -/
theorem IsDigit.toNat_lt {base : Nat} {c : Char} (h : IsDigit base c) : c.toNat < 128 := by
  have hall : digitChars.all (·.toNat < 128) = true := by decide
  have hlower : c.toLower.toNat < 128 :=
    of_decide_eq_true (List.all_eq_true.mp hall _ (List.mem_of_mem_take h))
  unfold Char.toLower at hlower
  split at hlower
  · next hupper =>
    have hZ : c.toNat ≤ 90 := UInt32.le_iff_toNat_le.mp hupper.2
    omega
  · exact hlower

private theorem digitValue?_of_le {c : Char} (h : 128 ≤ c.toNat) (base : Nat) :
    Text.digitValue? base c = none := by
  have hle : ∀ d : Char, d.toNat < 128 → ¬c ≤ d := by
    intro d hd hc
    have hcd : c.toNat ≤ d.toNat := hc
    omega
  simp only [Text.digitValue?, hle '9' (by decide), hle 'z' (by decide), hle 'Z' (by decide),
    and_false, ite_false, Option.filter_none]

/-- A character is read as a digit exactly if it is one. -/
theorem digitValue?_base (mark : BaseMark) (c : Char) :
    Text.digitValue? mark.base c =
      if IsDigit mark.base c then some (digitValue c) else none := by
  by_cases h : c.toNat < 128
  · have hc := digitValue?_ascii c.toNat h mark.base mark.base_mem
    rwa [Char.ofNat_toNat] at hc
  · rw [digitValue?_of_le (Nat.le_of_not_lt h), if_neg fun hd ↦ h hd.toNat_lt]

/-! ## Reading -/

/-- The number that digits denote after a number read before. -/
def continued (base n : Nat) (digits : List Char) : Nat :=
  digits.foldl (fun n c ↦ base * n + digitValue c) n

/-- More digits denote no smaller number. -/
theorem le_continued {base : Nat} (hb : 0 < base) (n : Nat) (digits : List Char) :
    n ≤ continued base n digits := by
  induction digits generalizing n with
  | nil => exact Nat.le_refl n
  | cons c rest ih =>
    calc n ≤ base * n := Nat.le_mul_of_pos_left n hb
      _ ≤ base * n + digitValue c := Nat.le_add_right _ _
      _ ≤ continued base (base * n + digitValue c) rest := ih _

/-- Digits are read as the number they denote, unless that is too large for a word. -/
theorem scanDigits_of_isDigit {mark : BaseMark} {digits : List Char}
    (hd : ∀ c ∈ digits, IsDigit mark.base c) {n : Nat} (hn : n < 2 ^ 64) :
    scanDigits mark.base n digits =
      if continued mark.base n digits < 2 ^ 64 then .ok (continued mark.base n digits)
      else .error .overflow := by
  induction digits generalizing n with
  | nil => exact (if_pos hn).symm
  | cons c rest ih =>
    obtain ⟨hc, hrest⟩ := List.forall_mem_cons.mp hd
    have hle := le_continued mark.base_pos (mark.base * n + digitValue c) rest
    have hcons : continued mark.base n (c :: rest) =
        continued mark.base (mark.base * n + digitValue c) rest := rfl
    simp only [scanDigits, digitValue?_base, if_pos hc, hcons]
    split
    -- A number that is too large stays so, whatever digits follow.
    · next hlarge => rw [if_neg (by omega)]
    · next hsmall => exact ih hrest (by omega)

/-- Nothing but digits is read as a number. -/
theorem isDigit_of_scanDigits {mark : BaseMark} {digits : List Char} {n m : Nat}
    (h : scanDigits mark.base n digits = .ok m) : ∀ c ∈ digits, IsDigit mark.base c := by
  induction digits generalizing n with
  | nil => simp
  | cons c rest ih =>
    simp only [scanDigits, digitValue?_base] at h
    by_cases hc : IsDigit mark.base c
    · rw [if_pos hc] at h
      dsimp only at h
      split at h
      · cases h
      · exact List.forall_mem_cons.mpr ⟨hc, ih h⟩
    · rw [if_neg hc] at h
      cases h

/-- No sign is a digit. -/
theorem IsDigit.ne_sign {mark : BaseMark} {c : Char} (h : IsDigit mark.base c) :
    c ≠ '+' ∧ c ≠ '-' := by
  constructor <;> rintro rfl <;> cases mark <;> revert h <;> decide

namespace IntegerSpelling

variable (s : IntegerSpelling)

/-- The digits in the order of the text, first the most significant one. -/
theorem magnitude_eq_continued : s.magnitude = continued s.mark.base 0 s.digits := by
  simp only [magnitude, continued, Nat.ofDigits_eq_foldr, List.map_reverse, List.foldr_reverse,
    List.foldl_map, Nat.cast_id, Nat.add_comm]

/-- The outcome of reading a spelled integer as some value: the value, or a refusal if the magnitude
is no word. -/
def reading {α : Type} (a : α) : Except IntegerTextError α :=
  if s.magnitude < 2 ^ 64 then .ok a else .error .overflow

/-- The digits of a spelling, with their plus sign, are read as its magnitude. -/
theorem readMagnitude_unmarked : readMagnitude s.mark.base s.unmarked = s.reading s.magnitude := by
  have hscan := scanDigits_of_isDigit s.isDigit (show 0 < 2 ^ 64 by decide)
  rw [← magnitude_eq_continued] at hscan
  rw [reading, ← hscan, unmarked]
  obtain ⟨c, rest, hcs⟩ := List.exists_cons_of_ne_nil s.digits_ne_nil
  have hc := (s.isDigit c (by simp [hcs])).ne_sign.1
  rw [hcs]
  cases s.plus
  · simp [readMagnitude, hc]
  · simp [readMagnitude]

/-- A text without a mark does not begin like one with a mark. -/
theorem readUnsigned_unmarked (h : s.mark = .none) :
    readUnsigned s.unmarked = readMagnitude 10 s.unmarked := by
  have hx : ∀ x, (x = 'x' ∨ x = 'X') → ∀ rest, s.unmarked ≠ '0' :: x :: rest := by
    intro x hx rest heq
    have hdigits : s.digits = '0' :: x :: rest := by
      cases hp : s.plus <;> simp_all [unmarked]
    -- The letter of a mark would have to be a decimal digit.
    have hd := s.isDigit x (by simp [hdigits])
    rw [h] at hd
    rcases hx with rfl | rfl <;> revert hd <;> decide
  unfold readUnsigned
  split
  · next rest heq => exact absurd heq (hx 'x' (.inl rfl) rest)
  · next rest heq => exact absurd heq (hx 'X' (.inr rfl) rest)
  · rfl

/-- What follows the minus sign is read as the magnitude. -/
theorem readUnsigned_unsigned : readUnsigned s.unsigned = s.reading s.magnitude := by
  rw [← readMagnitude_unmarked, unsigned]
  cases h : s.mark with
  | none => exact readUnsigned_unmarked s h
  | lower => rfl
  | upper => rfl

/-- What follows the minus sign does not begin with another. -/
theorem unsigned_ne_minus (rest : List Char) : s.unsigned ≠ '-' :: rest := by
  obtain ⟨c, cs, hcs⟩ := List.exists_cons_of_ne_nil s.digits_ne_nil
  have hc := (s.isDigit c (by simp [hcs])).ne_sign.2
  cases hm : s.mark <;> cases hp : s.plus <;>
    simp [unsigned, unmarked, BaseMark.chars, hm, hp, hcs, hc]

/-- A text that spells an integer is read as that integer, modulo a word. -/
theorem readInteger_of_toList_eq {text : String} (h : text.toList = s.chars) :
    readInteger text = s.reading (BitVec.ofInt 64 s.value) := by
  have hmap : ∀ f : Nat → Word,
      (readUnsigned s.unsigned).map f = s.reading (f s.magnitude) := by
    intro f
    rw [readUnsigned_unsigned, reading, reading]
    split <;> rfl
  rw [readInteger, h, chars, value]
  cases s.negative with
  | true =>
    rw [if_pos rfl, if_pos rfl, BitVec.ofInt_neg, BitVec.ofInt_natCast]
    exact hmap _
  | false =>
    rw [if_neg Bool.false_ne_true, if_neg Bool.false_ne_true, BitVec.ofInt_natCast,
      List.nil_append]
    split
    · next rest heq => exact absurd heq (s.unsigned_ne_minus rest)
    · exact hmap _

end IntegerSpelling

/-- What is read as a number after the mark of a base has digits. -/
theorem exists_digits_of_readMagnitude {mark : BaseMark} {cs : List Char} {n : Nat}
    (h : readMagnitude mark.base cs = .ok n) :
    ∃ (plus : Bool) (digits : List Char), digits ≠ [] ∧ (∀ c ∈ digits, IsDigit mark.base c) ∧
      cs = (if plus then ['+'] else []) ++ digits := by
  unfold readMagnitude at h
  split at h
  · cases h
  · cases h
  · next digits hne => exact ⟨true, digits, hne, isDigit_of_scanDigits h, rfl⟩
  · next hnil _ _ => exact ⟨false, cs, hnil, isDigit_of_scanDigits h, rfl⟩

/-- What is read as a number without its sign is a spelling without its sign. -/
theorem exists_unsigned_of_readUnsigned {cs : List Char} {n : Nat} (h : readUnsigned cs = .ok n)
    (negative : Bool) :
    ∃ s : IntegerSpelling, s.negative = negative ∧ cs = s.unsigned := by
  have hmark : ∃ (mark : BaseMark) (rest : List Char), cs = mark.chars ++ rest ∧
      readMagnitude mark.base rest = .ok n := by
    unfold readUnsigned at h
    split at h
    · next rest => exact ⟨.lower, rest, rfl, h⟩
    · next rest => exact ⟨.upper, rest, rfl, h⟩
    · exact ⟨.none, cs, rfl, h⟩
  obtain ⟨mark, rest, rfl, hrest⟩ := hmark
  obtain ⟨plus, digits, hne, hd, rfl⟩ := exists_digits_of_readMagnitude hrest
  exact ⟨⟨negative, mark, plus, digits, hne, hd⟩, rfl, rfl⟩

private theorem exists_of_map_eq_ok {α β ε : Type} {x : Except ε α} {f : α → β} {b : β}
    (h : x.map f = .ok b) : ∃ a, x = .ok a := by
  cases x with
  | error e => cases h
  | ok a => exact ⟨a, rfl⟩

/-- Every text that is read as an integer spells one. -/
theorem exists_spelling_of_readInteger {text : String} {word : Word}
    (h : readInteger text = .ok word) : ∃ s : IntegerSpelling, text.toList = s.chars := by
  unfold readInteger at h
  split at h
  · next cs htext =>
    obtain ⟨n, hn⟩ := exists_of_map_eq_ok h
    obtain ⟨s, hs, rfl⟩ := exists_unsigned_of_readUnsigned hn true
    exact ⟨s, by rw [htext, IntegerSpelling.chars, hs, if_pos rfl, List.singleton_append]⟩
  · obtain ⟨n, hn⟩ := exists_of_map_eq_ok h
    obtain ⟨s, hs, htext⟩ := exists_unsigned_of_readUnsigned hn false
    exact ⟨s, by rw [htext, IntegerSpelling.chars, hs, if_neg Bool.false_ne_true,
      List.nil_append]⟩

/-- The texts that are read as integers spell one whose magnitude is a word. -/
theorem readInteger_isOk_iff (text : String) :
    (∃ word, readInteger text = .ok word) ↔
      ∃ s : IntegerSpelling, text.toList = s.chars ∧ s.magnitude < 2 ^ 64 := by
  constructor
  · rintro ⟨word, h⟩
    obtain ⟨s, hs⟩ := exists_spelling_of_readInteger h
    rw [s.readInteger_of_toList_eq hs, IntegerSpelling.reading] at h
    split at h
    · next hlt => exact ⟨s, hs, hlt⟩
    · cases h
  · rintro ⟨s, hs, hlt⟩
    exact ⟨_, (s.readInteger_of_toList_eq hs).trans (if_pos hlt)⟩

/-! ## Printing -/

/-- A signed numeral is the decimal text of its integer. -/
theorem ofList_signedDecimal (z : Int) : String.ofList (Text.signedDecimal z) = toString z := by
  cases z with
  | ofNat n => rfl
  | negSucc n => exact String.ofList_cons

/-- A result of an integer type is printed as the integer that its word holds. -/
theorem printResult_eq_toString {t : Scalar} (h : t.isFloat = false) (raw : Word) :
    printResult raw t = toString (t.value raw) := by
  cases t with
  | f32 => cases h
  | f64 => cases h
  | i8 | i16 | i32 | i64 => exact ofList_signedDecimal raw.toInt
  | u8 | u16 | u32 | u64 => rfl

/-- A parameter of an integer type is read as an integer. -/
theorem readArgument_of_readInteger {text : String} {word : Word}
    (h : readInteger text = .ok word) {t : Scalar} (ht : t.isFloat = false) :
    readArgument text t = .ok word := by
  cases t with
  | f32 => cases ht
  | f64 => cases ht
  | _ => simp only [readArgument, h]; rfl

/-! ## The whole path -/

/-- The texts that are read as integers are those of the grammar whose magnitude is a word. Such a
text, read as an argument of an integer type, brought into its container and printed as a result
of that type, comes back as the decimal text of the one integer in the range of the type that is
congruent to the integer of the text modulo two to the width; an integer in the range comes back
as itself. -/
theorem integer_text_round_trip (text : String) :
    ((∃ word, readInteger text = .ok word) ↔
      ∃ s : IntegerSpelling, text.toList = s.chars ∧ s.magnitude < 2 ^ 64) ∧
    ∀ s : IntegerSpelling, text.toList = s.chars → s.magnitude < 2 ^ 64 →
      ∃ word, readInteger text = .ok word ∧
        ∀ t : Scalar, t.isFloat = false →
          readArgument text t = .ok word ∧
          (∃ n : Int, (∀ m, t.InRange m ∧ m % 2 ^ t.bits = s.value % 2 ^ t.bits ↔ m = n) ∧
            printResult (t.canonical word) t = toString n) ∧
          (t.InRange s.value → printResult (t.canonical word) t = toString s.value) := by
  refine ⟨readInteger_isOk_iff text, fun s hs hlt ↦ ?_⟩
  have hread : readInteger text = .ok (BitVec.ofInt 64 s.value) :=
    (s.readInteger_of_toList_eq hs).trans (if_pos hlt)
  refine ⟨_, hread, fun t ht ↦ ⟨readArgument_of_readInteger hread ht, ?_, fun hrange ↦ ?_⟩⟩
  · exact ⟨_, fun m ↦ (t.eq_value_canonical_ofInt_iff s.value m).symm,
      printResult_eq_toString ht _⟩
  · have hself := (t.eq_value_canonical_ofInt_iff s.value s.value).mpr ⟨hrange, rfl⟩
    rw [printResult_eq_toString ht, ← hself]

/-- A text with every sign and mark, of an integer that eight bits hold only up to its class. -/
theorem integer_text_round_trip_marked :
    ∃ word, readInteger "-0x+1fF" = .ok word ∧
      readArgument "-0x+1fF" .i8 = .ok word ∧
      printResult (Scalar.i8.canonical word) .i8 = "1" ∧
      printResult (Scalar.i64.canonical word) .i64 = "-511" := by
  let s : IntegerSpelling := ⟨true, .lower, true, ['1', 'f', 'F'], by decide,
    fun c hc ↦ of_decide_eq_true (List.all_eq_true.mp
      (by decide : ['1', 'f', 'F'].all (fun d ↦ IsDigit 16 d) = true) c hc)⟩
  have hchars : "-0x+1fF".toList = s.chars := by decide
  have hvalue : s.value = -511 := by decide
  obtain ⟨word, hread, hpath⟩ :=
    (integer_text_round_trip "-0x+1fF").2 s hchars (by decide)
  obtain ⟨harg, ⟨n, hn, hprint⟩, -⟩ := hpath .i8 rfl
  obtain ⟨-, -, hsame⟩ := hpath .i64 rfl
  have hone : 1 = n := (hn 1).mp (by rw [hvalue]; decide)
  rw [hvalue] at hsame
  refine ⟨word, hread, harg, ?_, (hsame (by decide)).trans (by decide)⟩
  rw [hprint, ← hone]
  decide

end ForeignCall.Tool
