import ForeignCall.Proofs.Signature.Grammar

/-!
# Reading a written signature

The text of a prototype is a spelling of it: the letters of its types, with the variadic marker at
its index, whether the writer meets that index among the arguments or only behind the last one.
Under either word size it is therefore read back as the same prototype, and no two prototypes have
the same text.
-/

namespace ForeignCall

namespace Prototype

variable {ts : List Scalar}

/-- Without a marker only letters are written. -/
theorem written_none (ts : List Scalar) (i : Nat) :
    written none i ts = ts.map Scalar.letter := by
  induction ts generalizing i with
  | nil => rfl
  | cons t ts ih => simp [written, ih]

/-- Once its index is passed the marker is not written again. -/
theorem written_of_lt {v i : Nat} (h : v < i) :
    written (some v) i ts = ts.map Scalar.letter := by
  induction ts generalizing i with
  | nil => simp [written, Nat.ne_of_lt h]
  | cons t ts ih => simp [written, Nat.ne_of_lt h, ih (Nat.lt_succ_of_lt h)]

/-- The marker is written before the letter that many places on, or behind the last letter. -/
theorem written_add {v : Nat} (h : v ≤ ts.length) (i : Nat) :
    written (some (i + v)) i ts = marked (ts.map Scalar.letter) (some v) := by
  induction v generalizing i ts with
  | zero =>
    cases ts with
    | nil => simp [written, marked]
    | cons t ts => simp [written, marked, written_of_lt (Nat.lt_succ_self i)]
  | succ v ih =>
    cases ts with
    | nil => simp at h
    | cons t ts =>
      have hrest : written (some (i + (v + 1))) (i + 1) ts =
          marked (ts.map Scalar.letter) (some v) := by
        rw [show i + (v + 1) = i + 1 + v by omega]
        exact ih (Nat.le_of_succ_le_succ h) (i + 1)
      have hindex : ¬ i + (v + 1) = i := by omega
      simp only [written, Option.some.injEq, hindex, if_false, hrest]
      rfl

/-- What is written of the arguments is their letters with the marker at its index. -/
theorem written_eq_marked (p : Prototype) :
    written p.variadic 0 p.args = marked (p.args.map Scalar.letter) p.variadic := by
  obtain ⟨ret, args, variadic, hle⟩ := p
  cases variadic with
  | none => exact written_none args 0
  | some v =>
    have h := written_add (hle v rfl) 0
    rwa [Nat.zero_add] at h

end Prototype

namespace Signature

/-- The letter of a type is in the vocabulary. -/
theorem letter_mem (t : Scalar) : t.letter ∈ letters :=
  (exists_ofLetter?_iff .w64 t.letter).mp ⟨t, Scalar.ofLetter?_letter .w64 t⟩

/-- The spelling of a prototype by the letters of its types. -/
def Spelling.ofPrototype (p : Prototype) : Spelling where
  result := p.ret.letter
  arguments := p.args.map Scalar.letter
  marker := p.variadic
  result_mem := letter_mem p.ret
  arguments_mem c hc := by
    obtain ⟨t, -, rfl⟩ := List.mem_map.mp hc
    exact letter_mem t
  marker_le m hm := by
    rw [List.length_map]
    exact p.variadic_le m hm

/-- The text of a prototype is that spelling. -/
theorem Spelling.chars_ofPrototype (p : Prototype) :
    (Spelling.ofPrototype p).chars = p.chars := by
  simp only [Spelling.chars, Spelling.opened, Spelling.ofPrototype, Prototype.chars,
    p.written_eq_marked, List.cons_append]

/-- The spelling of a prototype stands for it under either word size. -/
theorem Spelling.denotes_ofPrototype (word : WordSize) (p : Prototype) :
    (Spelling.ofPrototype p).Denotes word p.ret p.args p.variadic where
  ret := Scalar.ofLetter?_letter word p.ret
  args := by
    simp only [Spelling.ofPrototype, List.map_map]
    apply List.map_congr_left
    intro t _
    exact Scalar.ofLetter?_letter word t
  variadic := rfl

/-- The text of a prototype is read as the prototype. -/
theorem parse_text (word : WordSize) (p : Prototype) : parse word p.text = .ok p := by
  apply parse_eq_ok_iff.mpr
  refine ⟨Spelling.ofPrototype p, ?_, Spelling.denotes_ofPrototype word p⟩
  rw [Prototype.text, String.toList_ofList]
  exact Spelling.chars_ofPrototype p

/-- The text of every prototype, however it was made, is read back as the prototype under either
word size, and different prototypes have different texts. -/
theorem text_round_trip :
    (∀ (word : WordSize) (p : Prototype), parse word p.text = .ok p) ∧
    Function.Injective Prototype.text := by
  refine ⟨parse_text, ?_⟩
  intro p q h
  have hp := parse_text .w64 p
  rw [h, parse_text .w64 q] at hp
  exact (Except.ok.inj hp).symm

/-- A marker behind the last argument is read back as the number of arguments. -/
example : parse .w32 (Prototype.mk .i16 [.u8, .f64] (some 2) (by simp)).text =
    .ok ⟨.i16, [.u8, .f64], some 2, by simp⟩ := rfl

end Signature

end ForeignCall
