import ForeignCall.Move

/-!
# Images after a run of moves

What a run of moves leaves in an image: each word holds what it held before, joined with the bits
of all moves onto it. A word no move names is unchanged, and where the destinations of the moves
are apart, each holds what it held joined with the bits of its one move.
-/

namespace ForeignCall.Move

/-- A word of the image after a run is joined from the word before and the bits of the moves onto
it. -/
theorem getElem_run (moves : List Move) (slots : Slots) (image : Image) (i : Nat) (h : i < 24) :
    (run moves slots image)[i] =
      (moves.filter (·.dest.val = i)).foldl (fun word m ↦ word ||| m.value slots) image[i] := by
  induction moves generalizing image with
  | nil => rfl
  | cons m rest ih =>
    change (run rest slots (m.apply slots image))[i] = _
    rw [ih, getElem_apply, List.filter_cons]
    by_cases hd : m.dest.val = i
    · simp only [hd, decide_true, ite_true, List.foldl_cons]
    · simp only [hd, decide_false, ite_false, Bool.false_eq_true]

/-- A word that no move names is unchanged. -/
theorem getElem_run_of_forall_ne {moves : List Move} {i : Nat} (hi : ∀ m ∈ moves, m.dest.val ≠ i)
    (slots : Slots) (image : Image) (h : i < 24) : (run moves slots image)[i] = image[i] := by
  have hn : moves.filter (·.dest.val = i) = [] := by
    rw [List.filter_eq_nil_iff]
    intro m hm
    simpa using hi m hm
  rw [getElem_run, hn, List.foldl_nil]

private theorem filter_dest_eq {moves : List Move} (hd : (moves.map Move.dest).Nodup) {m : Move}
    (hm : m ∈ moves) : moves.filter (·.dest.val = m.dest.val) = [m] := by
  induction moves with
  | nil => cases hm
  | cons n rest ih =>
    rw [List.map_cons, List.nodup_cons] at hd
    rw [List.filter_cons]
    rcases List.mem_cons.mp hm with rfl | hr
    · have hn : rest.filter (·.dest.val = m.dest.val) = [] := by
        rw [List.filter_eq_nil_iff]
        intro k hk he
        have hdest : k.dest = m.dest := Fin.ext (by simpa using he)
        exact hd.1 (List.mem_map.mpr ⟨k, hk, hdest⟩)
      simp only [decide_true, ite_true, hn]
    · have hn : n.dest.val ≠ m.dest.val := by
        intro he
        exact hd.1 (List.mem_map.mpr ⟨m, hr, Fin.ext he.symm⟩)
      simp only [hn, decide_false, Bool.false_eq_true, ite_false]
      exact ih hd.2 hr

/-- Where destinations are apart, the destination of a move receives the bits of that move
alone. -/
theorem getElem_run_of_mem {moves : List Move} (hd : (moves.map Move.dest).Nodup) {m : Move}
    (hm : m ∈ moves) (slots : Slots) (image : Image) :
    getElem (run moves slots image) m.dest.val m.dest.isLt =
      getElem image m.dest.val m.dest.isLt ||| m.value slots := by
  rw [getElem_run, filter_dest_eq hd hm, List.foldl_cons, List.foldl_nil]

/-- Where destinations are apart, moves to one place are one move. -/
theorem eq_of_dest_eq {moves : List Move} (hd : (moves.map Move.dest).Nodup) {m n : Move}
    (hm : m ∈ moves) (hn : n ∈ moves) (he : n.dest.val = m.dest.val) : n = m := by
  have hmem : n ∈ moves.filter (·.dest.val = m.dest.val) :=
    List.mem_filter.mpr ⟨hn, by simpa using he⟩
  rw [filter_dest_eq hd hm] at hmem
  exact List.mem_singleton.mp hmem

/-- A run reads nothing but the bits its moves cut out of the slots. -/
theorem run_congr {moves : List Move} {slots others : Slots}
    (hv : ∀ m ∈ moves, m.value slots = m.value others) (image : Image) :
    run moves slots image = run moves others image := by
  induction moves generalizing image with
  | nil => rfl
  | cons m rest ih =>
    have hm : m.apply slots image = m.apply others image := by
      rw [apply, apply, hv m List.mem_cons_self]
    change run rest slots (m.apply slots image) = run rest others (m.apply others image)
    rw [hm]
    exact ih (fun n hn ↦ hv n (List.mem_cons_of_mem m hn)) _

end ForeignCall.Move

namespace ForeignCall.Image

/-- Every word of the image of zeros is zero. -/
theorem getElem_zero (i : Nat) (h : i < 24) : zero[i] = 0#64 := by
  simp [zero]

end ForeignCall.Image

namespace ForeignCall

/-! ### Files filled up with zeros -/

/-- Zeros at the end do not change what is read at a place. -/
theorem getD_rightpad (n : Nat) (words : List Word) (k : Nat) :
    (words.rightpad n 0)[k]?.getD 0 = words[k]?.getD 0 := by
  rw [List.rightpad, List.getElem?_append]
  split
  · rfl
  · next hk =>
    rw [List.getElem?_eq_none (by omega : words.length ≤ k), List.getElem?_replicate]
    split <;> rfl

/-- Files of one length are equal if they read the same at every place. -/
theorem ext_getD {xs ys : List Word} (hl : xs.length = ys.length)
    (h : ∀ k, k < xs.length → xs[k]?.getD 0 = ys[k]?.getD 0) : xs = ys := by
  apply List.ext_getElem hl
  intro k hx hy
  have hk := h k hx
  rwa [List.getElem?_eq_getElem hx, List.getElem?_eq_getElem hy] at hk

/-- Words that fit a file fill it up to its length. -/
theorem length_rightpad_of_le {n : Nat} {words : List Word} (h : words.length ≤ n) :
    (words.rightpad n 0).length = n := by
  rw [List.length_rightpad]
  exact Nat.max_eq_left h

/-- A file that reads a list of words at its places, and zero beyond them, is the list filled up
with zeros. -/
theorem ofFn_eq_rightpad {n : Nat} {file : Fin n → Word} {words : List Word}
    (hl : words.length ≤ n) (h : ∀ k : Fin n, file k = words[k.val]?.getD 0) :
    List.ofFn file = words.rightpad n 0 := by
  apply ext_getD
  · rw [List.length_ofFn, length_rightpad_of_le hl]
  · intro k hk
    rw [List.length_ofFn] at hk
    rw [List.getElem?_ofFn, dif_pos hk, Option.getD_some, getD_rightpad]
    exact h ⟨k, hk⟩

end ForeignCall
