import ForeignCall.Invoker
import ForeignCall.Proofs.Text.Readable

/-!
# Texts of moves and invokers

The text of an invoker leaves out what is as usual: shifts by zero, full masks and the
floating-point registers where none is in use. It identifies the invoker all the same. Names and
numerals are words, every part that can be missing has a mark that no part behind it starts with,
and the items of a list are followed by a comma or by the bracket that closes the list.
-/

namespace ForeignCall

open Text

attribute [ext] Move Invoker

/-! ### Names -/

/-- Different types have different names. -/
theorem Scalar.name_inj {s t : Scalar} : s.name = t.name ↔ s = t := by
  refine ⟨fun h ↦ ?_, congrArg _⟩
  have hfound := congrArg ofName? h
  rw [ofName?_name, ofName?_name] at hfound
  exact Option.some.inj hfound

/-- The name of a type is a word and determines the type. -/
theorem Scalar.determines_name : Determines (fun t : Scalar ↦ t.name.toList) (fun t ↦ t) [] := by
  refine .of_word (fun t ↦ ?_) fun _ _ h ↦ name_inj.mp (String.toList_inj.mp h)
  exact List.all_eq_true.mp (by cases t <;> decide)

/-- The name of a type is not empty. -/
theorem Scalar.exists_head?_name (t : Scalar) :
    ∃ c ∈ t.name.toList.head?, isWordChar c = true := by
  cases t <;> exact ⟨_, rfl, by decide⟩

/-- The name of a convention is a word and determines the convention. -/
theorem Convention.determines_name :
    Determines (fun c : Convention ↦ c.name.toList) (fun c ↦ c) [] := by
  refine .of_word (fun c ↦ ?_) fun _ _ h ↦ name_inj.mp (String.toList_inj.mp h)
  exact List.all_eq_true.mp (by cases c <;> decide)

/-! ### Moves -/

namespace Move

/-- Different words of the image have different texts. -/
theorem destChars_inj {d e : Fin 24} : destChars d = destChars e ↔ d = e := by
  refine ⟨fun h ↦ ?_, congrArg _⟩
  unfold destChars at h
  apply Fin.ext
  split at h <;> split at h
  · exact decimal_inj.mp (List.cons.inj h).2
  · cases h
  · cases h
  · have := decimal_inj.mp (List.cons.inj h).2
    omega

/-- The text of a word of the image is a word. -/
theorem isWordChar_of_mem_destChars (d : Fin 24) : ∀ c ∈ destChars d, isWordChar c = true := by
  unfold destChars
  split
  · exact List.forall_mem_cons.mpr
      ⟨by decide, fun _ ↦ isWordChar_of_mem_toDigits (by decide) (by decide)⟩
  · exact List.forall_mem_cons.mpr
      ⟨by decide, fun _ ↦ isWordChar_of_mem_toDigits (by decide) (by decide)⟩

/-- The text of a move determines the move, in front of whatever does not go on with a word. -/
theorem determines_chars : Determines chars (fun m ↦ m) [] := by
  have hsource : Determines (fun m : Move ↦ 'a' :: decimal m.source.val) source [] :=
    (Determines.numeral (by decide) (by decide) fun _ _ ↦ Fin.ext).behind ['a']
  have hdown : Determines (fun m : Move ↦ '>' :: '>' :: decimal m.shiftDown.val) shiftDown [] :=
    (Determines.numeral (by decide) (by decide) fun _ _ ↦ Fin.ext).behind ['>', '>']
  have hmask : Determines (fun m : Move ↦ '&' :: '0' :: 'x' :: hexadecimal m.mask.toNat) mask [] :=
    (Determines.numeral (by decide) (by decide) fun _ _ ↦ BitVec.eq_of_toNat_eq).behind
      ['&', '0', 'x']
  have hup : Determines (fun m : Move ↦ '<' :: '<' :: decimal m.shiftUp.val) shiftUp [] :=
    (Determines.numeral (by decide) (by decide) fun _ _ ↦ Fin.ext).behind ['<', '<']
  have hdest : Determines (fun m : Move ↦ '-' :: '>' :: destChars m.dest) dest [] :=
    (Determines.of_word (fun m : Move ↦ isWordChar_of_mem_destChars m.dest)
      fun _ _ ↦ destChars_inj.mp).behind ['-', '>']
  -- No part starts with the mark of one that stands before it and may be missing.
  have hthree := (hsource.append_leftOut hdown (marked_cons rfl _) (by decide) 0
    ).append_leftOut hmask (marked_cons rfl _) (by decide) (BitVec.allOnes 64)
  have hparts := (hthree.append_leftOut hup (marked_cons rfl _) (by decide) 0
    ).append_marked hdest (marked_cons rfl _) (by decide)
  refine hparts.imp fun m n h ↦ ?_
  simp only [Prod.mk.injEq] at h
  obtain ⟨⟨⟨⟨hsource, hdown⟩, hmask⟩, hup⟩, hdest⟩ := h
  exact Move.ext hsource hdown hmask hup hdest

/-- The text of a move starts with a letter. -/
theorem exists_head?_chars (m : Move) : ∃ c ∈ m.chars.head?, isWordChar c = true :=
  ⟨'a', rfl, by decide⟩

end Move

/-! ### Lists -/

namespace Invoker

/-- Behind its first item, a list goes on with a comma and a space before each item. -/
theorem commaSeparated_cons (item : List Char) (items : List (List Char)) :
    commaSeparated (item :: items) = item ++ items.flatMap fun next ↦ ',' :: ' ' :: next := by
  induction items generalizing item with
  | nil => rw [commaSeparated, List.flatMap_nil, List.append_nil]
  | cons next items ih =>
    calc commaSeparated (item :: next :: items)
        = item ++ ',' :: ' ' :: commaSeparated (next :: items) := rfl
      _ = item ++ ',' :: ' ' :: (next ++ items.flatMap fun next ↦ ',' :: ' ' :: next) := by rw [ih]
      _ = item ++ (next :: items).flatMap fun next ↦ ',' :: ' ' :: next := rfl

/-- A list of items that start with a word determines the items, if no comma follows it. -/
theorem determines_commaSeparated {α : Type} {write : α → List Char}
    (h : Determines write (fun a ↦ a) [])
    (hfirst : ∀ a, ∃ c ∈ (write a).head?, isWordChar c = true) :
    Determines (fun as : List α ↦ commaSeparated (as.map write)) (fun as ↦ as) [','] := by
  have hitems := (h.behind [',', ' ']).flatMap (marked_cons rfl _)
  have hcons (a : α) (as : List α) : commaSeparated ((a :: as).map write) =
      write a ++ as.flatMap fun a ↦ [',', ' '] ++ write a := by
    rw [List.map_cons, commaSeparated_cons, List.flatMap_map]
    rfl
  -- A list without items is followed by a break, and any other starts with a word.
  have hempty {a : α} {as : List α} {rest rest' : List Char} (hrest : Breaks [','] rest) :
      rest ≠ commaSeparated ((a :: as).map write) ++ rest' := by
    rintro rfl
    obtain ⟨c, hc, hword⟩ := hfirst a
    have hhead : c ∈ (commaSeparated ((a :: as).map write) ++ rest').head? := by
      rw [hcons, List.append_assoc, List.head?_append, hc, Option.some_or]
      rfl
    exact Bool.noConfusion ((hrest c hhead).1.symm.trans hword)
  intro as bs rest rest' hrest hrest' heq
  dsimp only at heq
  cases as with
  | nil =>
    cases bs with
    | nil => exact ⟨rfl, heq⟩
    | cons b bs => exact absurd heq (hempty hrest)
  | cons a as =>
    cases bs with
    | nil => exact absurd heq.symm (hempty hrest')
    | cons b bs =>
      -- With a comma and a space before the first item as well, all items are alike.
      refine hitems hrest hrest' ?_
      rw [hcons, hcons] at heq
      simpa only [List.flatMap_cons, List.append_assoc, List.append_cancel_left_eq] using heq

/-- The text of an invoker determines the invoker. -/
theorem determines_chars : Determines chars (fun inv ↦ inv) [] := by
  have hconvention : Determines
      (fun inv : Invoker ↦ 'i' :: 'n' :: 'v' :: '\x7b' :: inv.convention.name.toList)
      convention [] :=
    (Convention.determines_name.field convention).behind ['i', 'n', 'v', '\x7b']
  have hret : Determines (fun inv : Invoker ↦ ' ' :: inv.ret.name.toList) ret [] :=
    (Scalar.determines_name.field ret).behind [' ']
  have hargs : Determines
      (fun inv : Invoker ↦ '(' :: commaSeparated (inv.args.map fun t ↦ t.name.toList))
      args [','] :=
    ((determines_commaSeparated Scalar.determines_name Scalar.exists_head?_name).field
      args).behind ['(']
  have hmoves : Determines
      (fun inv : Invoker ↦ ')' :: ' ' :: '[' :: commaSeparated (inv.moves.map Move.chars))
      moves [','] :=
    ((determines_commaSeparated Move.determines_chars Move.exists_head?_chars).field moves).behind
      [')', ' ', '[']
  have hstack : Determines
      (fun inv : Invoker ↦ ']' :: ' ' :: 's' :: 't' :: 'a' :: 'c' :: 'k' :: '=' ::
        decimal inv.stackWords) stackWords [] :=
    (Determines.numeral (by decide) (by decide) fun _ _ h ↦ h).behind
      [']', ' ', 's', 't', 'a', 'c', 'k', '=']
  have hfloats : Determines
      (fun inv : Invoker ↦ ' ' :: 'f' :: 'p' :: '=' :: '0' :: 'b' ::
        zeroFilled 4 (binary inv.fixedFloats.toNat)) fixedFloats [] :=
    (Determines.of_word (fun _ _ ↦ isWordChar_of_mem_zeroFilled)
      fun _ _ h ↦ BitVec.eq_of_toNat_eq (zeroFilled_binary_inj.mp h)).behind
      [' ', 'f', 'p', '=', '0', 'b']
  have htypes := (hconvention.append_marked hret (marked_cons rfl _) (by decide)
    ).append_marked hargs (marked_cons rfl _) (by decide)
  have hparts := ((htypes.append_marked hmoves (marked_cons rfl _) (by decide)
    ).append_marked hstack (marked_cons rfl _) (by decide)
    ).append_leftOut hfloats (marked_cons rfl _) (by decide) 0
  have hclosed (rest : List Char) : Breaks [' '] (['\x7d'] ++ rest) :=
    breaks_cons_iff.mpr ⟨by decide, by decide⟩
  refine (hparts.closed hclosed).imp fun inv inv' h ↦ ?_
  simp only [Prod.mk.injEq] at h
  obtain ⟨⟨⟨⟨⟨hconvention, hret⟩, hargs⟩, hmoves⟩, hstack⟩, hfloats⟩ := h
  exact Invoker.ext hconvention hret hargs hmoves hstack hfloats

/-- The text of an invoker identifies it, with every field and every move, and so does the text of a
move alone. -/
theorem text_identifies :
    (∀ inv inv' : Invoker, inv.text = inv'.text ↔ inv = inv') ∧
      ∀ m n : Move, m.text = n.text ↔ m = n := by
  refine ⟨fun inv inv' ↦ ?_, fun m n ↦ ?_⟩
  · rw [text, text, String.ofList_inj, determines_chars.inj]
  · rw [Move.text, Move.text, String.ofList_inj, Move.determines_chars.inj]

/-- A call with masks and a shift, and without floats. -/
example :
    Invoker.text ⟨.x86Cdecl, .i32, [.i64],
      [⟨0, 0, 0xFFFFFFFF, 0, 0⟩, ⟨0, 32, 0xFFFFFFFF, 0, 1⟩], 2, 0⟩ =
    "inv\x7bx86_cdecl i32(i64) [a0&0xffffffff->A0, a0>>32&0xffffffff->A1] stack=2\x7d" := by
  decide

end Invoker

end ForeignCall
