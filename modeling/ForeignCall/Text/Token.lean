/-!
# Tokens

A text cut at every occurrence of a separator. There is always one token more than there are
separators, so an empty text has one empty token. What a text starts with can be said of its
tokens: the first goes up to the first separator, and the others are those of the rest.
-/

namespace ForeignCall.Text

/-- The tokens of a text between separators. -/
def tokens (separator : Char) : List Char → List (List Char)
  | [] => [[]]
  | c :: rest =>
    if c = separator then [] :: tokens separator rest
    else
      match tokens separator rest with
      | [] => [[c]]
      | token :: more => (c :: token) :: more

/-- A text has at least one token. -/
theorem tokens_ne_nil (separator : Char) (cs : List Char) : tokens separator cs ≠ [] := by
  cases cs with
  | nil => simp [tokens]
  | cons c rest =>
    simp only [tokens]
    split
    · simp
    · split <;> simp

/-- There is one token more than there are separators. -/
theorem length_tokens (separator : Char) (cs : List Char) :
    (tokens separator cs).length = cs.count separator + 1 := by
  induction cs with
  | nil => rfl
  | cons c rest ih =>
    simp only [tokens, List.count_cons, beq_iff_eq]
    split
    · rename_i h
      simp [ih]
    · rename_i h
      split
      · rename_i hnil
        exact absurd hnil (tokens_ne_nil separator rest)
      · rename_i token more hcons
        rw [hcons] at ih
        simpa using ih

/-- The first token of a text goes up to its first separator, and the other tokens are those of
what follows; without separators the text is its only token. -/
theorem tokens_eq_cons_iff {separator : Char} {cs token : List Char} {more : List (List Char)} :
    tokens separator cs = token :: more ↔ separator ∉ token ∧
      ((cs = token ∧ more = []) ∨
        ∃ rest, cs = token ++ separator :: rest ∧ tokens separator rest = more) := by
  induction cs generalizing token with
  | nil =>
    cases token with
    | nil => simp [tokens, eq_comm]
    | cons d token => simp [tokens]
  | cons c cs ih =>
    rw [tokens]
    by_cases hc : c = separator
    · rw [if_pos hc]
      cases token with
      | nil => simp [hc]
      | cons d token =>
        simp only [List.cons.injEq, reduceCtorEq, false_and, List.mem_cons, not_or, false_iff,
          List.cons_append]
        rintro ⟨⟨hd, -⟩, ⟨⟨hcd, -⟩, -⟩ | ⟨rest, ⟨hcd, -⟩, -⟩⟩
        · exact hd (hc.symm.trans hcd)
        · exact hd (hc.symm.trans hcd)
    · obtain ⟨first, others, hcs⟩ := List.exists_cons_of_ne_nil (tokens_ne_nil separator cs)
      simp only [hcs] at ih
      simp only [if_neg hc, hcs]
      cases token with
      | nil => simp [hc]
      | cons d token =>
        have hcons : (c :: first) :: others = (d :: token) :: more ↔
            c = d ∧ first :: others = token :: more := by
          simp only [List.cons.injEq, and_assoc]
        rw [hcons, ih]
        simp only [List.mem_cons, not_or, List.cons_append, List.cons.injEq]
        grind

/-- A text without separators is its only token. -/
theorem tokens_of_not_mem {separator : Char} {cs : List Char} (h : separator ∉ cs) :
    tokens separator cs = [cs] :=
  tokens_eq_cons_iff.mpr ⟨h, .inl ⟨rfl, rfl⟩⟩

/-- The tokens of two texts with a separator between them are those of the one and of the other. -/
theorem tokens_append_cons (separator : Char) (cs rest : List Char) :
    tokens separator (cs ++ separator :: rest) =
      tokens separator cs ++ tokens separator rest := by
  induction cs with
  | nil => simp [tokens]
  | cons c cs ih =>
    obtain ⟨first, others, hcs⟩ := List.exists_cons_of_ne_nil (tokens_ne_nil separator cs)
    by_cases hc : c = separator
    · simp [tokens, hc, ih]
    · simp [tokens, hc, ih, hcs]

/-- The tokens of texts that each have a separator behind them, and of what follows them. -/
theorem tokens_flatMap (separator : Char) (parts : List (List Char)) (rest : List Char) :
    tokens separator (parts.flatMap (· ++ [separator]) ++ rest) =
      parts.flatMap (tokens separator) ++ tokens separator rest := by
  induction parts with
  | nil => rfl
  | cons part parts ih =>
    rw [List.flatMap_cons, List.flatMap_cons, List.append_assoc, List.append_assoc,
      List.singleton_append, tokens_append_cons, ih, List.append_assoc]

/-- A text is determined by its tokens. -/
theorem tokens_injective (separator : Char) : Function.Injective (tokens separator) := by
  intro cs ds h
  generalize hcs : tokens separator cs = first at h
  induction first generalizing cs ds with
  | nil => exact absurd hcs (tokens_ne_nil separator cs)
  | cons token more ih =>
    obtain ⟨-, hcs⟩ := tokens_eq_cons_iff.mp hcs
    obtain ⟨-, hds⟩ := tokens_eq_cons_iff.mp h.symm
    rcases hcs with ⟨rfl, rfl⟩ | ⟨rest, rfl, hrest⟩
    · rcases hds with ⟨rfl, -⟩ | ⟨rest, -, hnil⟩
      · rfl
      · exact absurd hnil (tokens_ne_nil separator rest)
    · rcases hds with ⟨-, rfl⟩ | ⟨rest', rfl, hrest'⟩
      · exact absurd hrest (tokens_ne_nil separator rest)
      · rw [ih hrest hrest'.symm]

/-- Characters may be changed before or after cutting, as long as the change neither makes nor
removes separators. -/
theorem tokens_map {separator : Char} {f : Char → Char}
    (hf : ∀ c, f c = separator ↔ c = separator) (cs : List Char) :
    tokens separator (cs.map f) = (tokens separator cs).map (List.map f) := by
  induction cs with
  | nil => rfl
  | cons c cs ih =>
    simp only [List.map_cons, tokens, hf, ih]
    split
    · rfl
    · cases tokens separator cs <;> rfl

/-- A text starts with tokens that each have a separator behind them exactly if these are its first
tokens and there are more. -/
theorem flatMap_isPrefix_iff {separator : Char} {start : List (List Char)} {cs : List Char}
    (h : ∀ token ∈ start, separator ∉ token) :
    start.flatMap (· ++ [separator]) <+: cs ↔
      ∃ next more, tokens separator cs = start ++ next :: more := by
  induction start generalizing cs with
  | nil =>
    obtain ⟨next, more, hcs⟩ := List.exists_cons_of_ne_nil (tokens_ne_nil separator cs)
    exact ⟨fun _ ↦ ⟨next, more, hcs⟩, fun _ ↦ List.nil_prefix⟩
  | cons token start ih =>
    obtain ⟨htoken, hstart⟩ := List.forall_mem_cons.mp h
    simp only [List.flatMap_cons, List.append_assoc, List.cons_append, tokens_eq_cons_iff, htoken,
      not_false_eq_true, true_and]
    constructor
    · rintro ⟨rest, rfl⟩
      obtain ⟨next, more, hrest⟩ := (ih hstart).mp (List.prefix_append _ rest)
      exact ⟨next, more, .inr ⟨_, by simp, hrest⟩⟩
    · rintro ⟨next, more, ⟨-, hmore⟩ | ⟨rest, rfl, hrest⟩⟩
      · simp at hmore
      · obtain ⟨tail, rfl⟩ := (ih hstart).mpr ⟨next, more, hrest⟩
        exact ⟨tail, by simp⟩

end ForeignCall.Text
