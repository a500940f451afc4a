import ForeignCall.Assignment
import ForeignCall.Proofs.Signature.RoundTrip

/-!
# Pointer letters

A signature may leave the width of an integer to the process: `p` and `v` are as wide as a
pointer, and so are the unsigned `P` and `V`. The prototype of an accepted text is written with
the letters of that width in their place, and every other character stays where it was, the
variadic marker among them. What is written has no pointer letters left, so it no longer depends
on the process, and it stands for the same call under every allocator.
-/

namespace ForeignCall

/-- A character of a signature, with a pointer letter replaced by that of the integer with the
width and sign it stands for. -/
def WordSize.resolve : WordSize → Char → Char
  | .w32, 'p' | .w32, 'v' => 'i'
  | .w32, 'P' | .w32, 'V' => 'I'
  | .w64, 'p' | .w64, 'v' => 'l'
  | .w64, 'P' | .w64, 'V' => 'L'
  | _, c => c

/-- The letter of a type is the one it was read from, resolved. -/
theorem Scalar.letter_eq_resolve {word : WordSize} {c : Char} {t : Scalar}
    (h : Scalar.ofLetter? word c = some t) : t.letter = word.resolve c := by
  unfold Scalar.ofLetter? at h
  cases word <;> split at h <;> cases h <;> rfl

/-- A change of letters that leaves the variadic marker alone leaves it in its place. -/
theorem Prototype.map_marked {f : Char → Char} (hf : f '|' = '|') (letters : List Char)
    (marker : Option Nat) : (marked letters marker).map f = marked (letters.map f) marker := by
  cases marker with
  | none => rfl
  | some m => simp only [marked, List.map_append, List.map_cons, List.map_take, List.map_drop, hf]

namespace Signature

variable {word : WordSize}

/-- The letters of types are those they were read from, resolved. -/
theorem map_letter_eq_map_resolve {cs : List Char} {ts : List Scalar}
    (h : cs.map (Scalar.ofLetter? word) = ts.map some) :
    ts.map Scalar.letter = cs.map word.resolve := by
  induction cs generalizing ts with
  | nil =>
    obtain rfl : ts = [] := by simpa using h.symm
    rfl
  | cons c cs ih =>
    cases ts with
    | nil => cases h
    | cons t ts =>
      obtain ⟨hc, hcs⟩ := List.cons.inj h
      rw [List.map_cons, List.map_cons, Scalar.letter_eq_resolve hc, ih hcs]

/-- What a spelling denotes is written as the spelling with its pointer letters resolved. -/
theorem Spelling.Denotes.chars_eq {s : Spelling} {p : Prototype}
    (h : s.Denotes word p.ret p.args p.variadic) : p.chars = s.chars.map word.resolve := by
  have hpunctuation : word.resolve '(' = '(' ∧ word.resolve ')' = ')' ∧ word.resolve '|' = '|' := by
    cases word <;> exact ⟨rfl, rfl, rfl⟩
  obtain ⟨hopening, hclosing, hmarker⟩ := hpunctuation
  rw [← Spelling.chars_ofPrototype]
  simp only [Spelling.chars, Spelling.opened, Spelling.ofPrototype, List.map_append,
    List.map_cons, List.map_nil, Prototype.map_marked hmarker, hopening, hclosing,
    Scalar.letter_eq_resolve h.ret, map_letter_eq_map_resolve h.args, h.variadic]

/-- The prototype of a text is written as the text with its pointer letters resolved. -/
theorem text_of_parse {text : String} {p : Prototype} (h : parse word text = .ok p) :
    p.text = text.map word.resolve := by
  obtain ⟨s, hs, hp⟩ := parse_eq_ok_iff.mp h
  apply String.toList_inj.mp
  rw [Prototype.text, String.toList_ofList, String.toList_map, ← hs, hp.chars_eq]

/-- Texts that are read as one prototype stand for the same call, or for the same failure. -/
theorem ofSignature_eq {a : Allocator} {text other : String} {p : Prototype}
    (h : parse a.wordSize text = .ok p) (hother : parse a.wordSize other = .ok p) :
    a.ofSignature text = a.ofSignature other := by
  rw [Allocator.ofSignature, Allocator.ofSignature, h, hother]

/-- The text of the prototype read from a signature is the signature with its pointer letters
resolved. It is read back as the prototype and written again as it is, whatever the word size, and
every allocator of the word size that the signature was read for makes the same invoker from it, or
fails with the same error. -/
theorem text_resolves_pointers {text : String} {p : Prototype} (h : parse word text = .ok p) :
    p.text = text.map word.resolve ∧
    (∀ w : WordSize, parse w p.text = .ok p ∧ p.text.map w.resolve = p.text) ∧
    ∀ a : Allocator, a.wordSize = word → a.ofSignature text = a.ofSignature p.text := by
  refine ⟨text_of_parse h, fun w ↦ ⟨parse_text w p, (text_of_parse (parse_text w p)).symm⟩, ?_⟩
  rintro a rfl
  exact ofSignature_eq h (parse_text a.wordSize p)

/-- A variadic signature with all four pointer letters, for 32-bit pointers, and one that needs more
stack words than there are: it fails as the resolved one does. -/
theorem text_resolves_pointers_w32 :
    (∃ p, parse .w32 "v(pP|bV)" = .ok p ∧ p.text = "i(iI|bI)" ∧ parse .w64 p.text = .ok p ∧
      p.text.map WordSize.w64.resolve = p.text ∧
      Allocator.x86Cdecl.ofSignature "v(pP|bV)" = Allocator.x86Cdecl.ofSignature p.text) ∧
    ∃ p, parse .w32 "P(llllllllv|)" = .ok p ∧ p.text = "I(lllllllli|)" ∧
      Allocator.x86Stdcall.ofSignature "P(llllllllv|)" = Allocator.x86Stdcall.ofSignature p.text ∧
      Allocator.x86Stdcall.ofSignature p.text =
        .error (.allocation (.capacityExceeded "I(lllllllli|)" .x86Stdcall 8)) := by
  have hmixed : parse .w32 "v(pP|bV)" = .ok ⟨.i32, [.i32, .u32, .i8, .u32], some 2, by decide⟩ :=
    rfl
  have hlong : parse .w32 "P(llllllllv|)" = .ok ⟨.u32, [.i64, .i64, .i64, .i64, .i64, .i64, .i64,
      .i64, .i32], some 9, by decide⟩ := rfl
  refine ⟨⟨_, hmixed, ?_⟩, _, hlong, ?_⟩
  · obtain ⟨-, hread, hsame⟩ := text_resolves_pointers hmixed
    exact ⟨rfl, (hread .w64).1, (hread .w64).2, hsame _ rfl⟩
  · obtain ⟨-, -, hsame⟩ := text_resolves_pointers hlong
    exact ⟨rfl, hsame _ rfl, rfl⟩

end Signature

end ForeignCall
