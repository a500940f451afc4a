import ForeignCall.Proofs.Signature.Grammar

/-!
# Viable texts

A text is viable if it can be continued to a signature. Every point a reader can reach has a
completion, and a reader that has found a fault finds the same fault in every continuation, so the
viable texts are exactly those that are read without a fault. An error is therefore about the first
character that rules out every completion, and a text that is only too short is reported as
incomplete.
-/

namespace ForeignCall.Signature

variable {word : WordSize} {r r' : Reading} {c : Char} {cs us : List Char} {fault : Fault}

/-- A text that is read as a prototype. -/
def Accepted (word : WordSize) (cs : List Char) : Prop :=
  ∃ p, parse word (String.ofList cs) = .ok p

/-- A text with an accepted continuation; the continuation may be empty. -/
def Viable (word : WordSize) (cs : List Char) : Prop := ∃ ds, Accepted word (cs ++ ds)

/-- The longest viable text another one starts with. -/
structure LongestViable (word : WordSize) (us cs : List Char) : Prop where
  starts : us <+: cs
  viable : Viable word us
  longest : ∀ vs, vs <+: cs → Viable word vs → vs.length ≤ us.length

/-- The character a fault is about. -/
def Fault.character : Fault → Char
  | unexpected found _ => found
  | secondMarker => '|'
  | unknownLetter letter => letter

/-- The stage a fault reports. -/
def Fault.stage? : Fault → Option Stage
  | unexpected _ stage => some stage
  | secondMarker => none
  | unknownLetter _ => none

/-! ### Completions -/

/-- A shortest text that completes a reading. -/
def Reading.completion : Reading → List Char
  | start => ['i', '(', ')']
  | result _ => ['(', ')']
  | arguments .. => [')']
  | finished .. => []

/-- The completion of a reading finishes it. -/
theorem Reading.stage_completion (word : WordSize) (r : Reading) :
    ∃ r', r.completion.foldlM (Reading.step word) r = .ok r' ∧ r'.stage = .finished := by
  cases r with
  | start => exact ⟨.finished .i32 [] none, rfl, rfl⟩
  | result ret => exact ⟨.finished ret [] none, rfl, rfl⟩
  | arguments ret args marker => exact ⟨.finished ret args marker, rfl, rfl⟩
  | finished ret args marker => exact ⟨.finished ret args marker, rfl, rfl⟩

/-- A text goes on to be read where its first part ends. -/
theorem read_append_of_ok (h : read word cs = .ok r) (ds : List Char) :
    read word (cs ++ ds) = ds.foldlM (Reading.step word) r := by
  rw [read_append, h]
  rfl

/-- A fault is found again in every continuation. -/
theorem read_append_of_error (h : read word cs = .error fault) (ds : List Char) :
    read word (cs ++ ds) = .error fault := by
  rw [read_append, h]
  rfl

/-- A text is accepted exactly if the reader has finished at its end. -/
theorem accepted_iff : Accepted word cs ↔ ∃ r, read word cs = .ok r ∧ r.stage = .finished := by
  constructor
  · rintro ⟨p, hp⟩
    obtain ⟨s, hs, hdenotes⟩ := parse_eq_ok_iff.mp hp
    rw [String.toList_ofList] at hs
    exact ⟨_, hs ▸ read_chars hdenotes, rfl⟩
  · rintro ⟨r, hr, hstage⟩
    cases r with
    | finished ret args marker =>
      obtain ⟨s, hdenotes, hs⟩ := read_eq_ok_iff.mp hr
      refine ⟨⟨ret, args, marker, hdenotes.variadic_le⟩, parse_eq_ok_iff.mpr ⟨s, ?_, hdenotes⟩⟩
      rw [String.toList_ofList, hs]
    | _ => cases hstage

/-- The viable texts are those that are read without a fault. -/
theorem viable_iff : Viable word cs ↔ ∃ r, read word cs = .ok r := by
  constructor
  · rintro ⟨ds, h⟩
    obtain ⟨r', hr', -⟩ := accepted_iff.mp h
    cases hread : read word cs with
    | ok r => exact ⟨r, rfl⟩
    | error fault =>
      rw [read_append_of_error hread ds] at hr'
      cases hr'
  · rintro ⟨r, hr⟩
    obtain ⟨r', hr', hstage⟩ := r.stage_completion word
    refine ⟨r.completion, accepted_iff.mpr ⟨r', ?_, hstage⟩⟩
    rw [read_append_of_ok hr, hr']

/-- A text is not viable exactly if the reader finds a fault. -/
theorem not_viable_iff : ¬ Viable word cs ↔ ∃ fault, read word cs = .error fault := by
  rw [viable_iff]
  cases read word cs <;> simp

/-- What a viable text starts with is viable. -/
theorem Viable.of_starts (h : us <+: cs) (hcs : Viable word cs) : Viable word us := by
  obtain ⟨ds, rfl⟩ := h
  obtain ⟨es, hes⟩ := hcs
  exact ⟨ds ++ es, by rwa [← List.append_assoc]⟩

/-! ### The first fault -/

/-- A fault of one character is about that character, and a stage it reports is the one the
character was read in. -/
theorem Reading.of_step_eq_error (h : r.step word c = .error fault) :
    fault.character = c ∧ ∀ stage ∈ fault.stage?, stage = r.stage := by
  -- A character that is no letter is a fault outside its stage or in place of a letter.
  have hletter : ∀ {f : Scalar → Reading}, (readLetter word c).map f = .error fault →
      fault = .unknownLetter c := by
    intro f hf
    unfold readLetter at hf
    cases ht : Scalar.ofLetter? word c with
    | some t =>
      rw [ht] at hf
      cases hf
    | none =>
      rw [ht] at hf
      cases hf
      rfl
  cases r with
  | start =>
    simp only [step] at h
    split at h
    · cases h
      simp [Fault.character, Fault.stage?, stage]
    · simp [hletter h, Fault.character, Fault.stage?]
  | result ret =>
    simp only [step] at h
    split at h
    · cases h
    · cases h
      simp [Fault.character, Fault.stage?, stage]
  | arguments ret args marker =>
    simp only [step] at h
    split at h
    · cases h
    · split at h
      · next hc =>
        cases marker with
        | none => cases h
        | some m =>
          cases h
          simp [hc, Fault.character, Fault.stage?]
      · split at h
        · cases h
          simp [Fault.character, Fault.stage?, stage]
        · simp [hletter h, Fault.character, Fault.stage?]
  | finished ret args marker =>
    cases h
    simp [Fault.character, Fault.stage?, stage]

/-- A fault is found at one character, after a part that is read without a fault. -/
theorem exists_of_foldlM_eq_error (h : cs.foldlM (Reading.step word) r = .error fault) :
    ∃ us c ws r', cs = us ++ c :: ws ∧ us.foldlM (Reading.step word) r = .ok r' ∧
      r'.step word c = .error fault := by
  induction cs generalizing r with
  | nil => cases h
  | cons d cs ih =>
    rw [List.foldlM_cons] at h
    cases hstep : r.step word d with
    | error fault' =>
      have heq : fault' = fault := by simpa [hstep, bind, Except.bind] using h
      exact ⟨[], d, cs, r, rfl, rfl, heq ▸ hstep⟩
    | ok r₁ =>
      obtain ⟨us, c, ws, r', rfl, hus, hc⟩ := ih (by simpa [hstep, bind, Except.bind] using h)
      refine ⟨d :: us, c, ws, r', rfl, ?_, hc⟩
      simpa [List.foldlM_cons, hstep, bind, Except.bind] using hus

/-- A character at which a fault is found is read as that fault whatever follows it. -/
theorem read_append_cons (hus : read word us = .ok r) (hc : r.step word c = .error fault)
    (ws : List Char) : read word (us ++ c :: ws) = .error fault := by
  rw [read_append_of_ok hus, List.foldlM_cons, hc]
  rfl

/-- What is read without a fault up to the first fault is the longest viable part. -/
theorem longestViable_of_step (hus : read word us = .ok r) (hc : r.step word c = .error fault)
    (ws : List Char) : LongestViable word us (us ++ c :: ws) where
  starts := List.prefix_append us (c :: ws)
  viable := viable_iff.mpr ⟨r, hus⟩
  longest vs hvs hviable := by
    apply Nat.le_of_not_lt
    intro hlen
    have hnext : us ++ [c] <+: us ++ c :: ws :=
      (List.prefix_append_right_inj us).mpr ⟨ws, rfl⟩
    have hstarts : us ++ [c] <+: vs := by
      apply List.prefix_of_prefix_length_le hnext hvs
      simp only [List.length_append, List.length_singleton]
      omega
    exact not_viable_iff.mpr ⟨fault, read_append_cons hus hc []⟩ (hviable.of_starts hstarts)

/-! ### The errors of a text -/

variable {text : String}

/-- A reading that is not finished ends in the error that says so, and in no other way. -/
theorem Reading.close_eq_incomplete_iff {quoted : String} {stage : Stage} :
    r.close text = .error (.incomplete quoted stage) ↔
      quoted = text ∧ r.stage = stage ∧ r.stage ≠ .finished := by
  cases r with
  | finished ret args marker =>
    simp only [close, Reading.stage, ne_eq, not_true_eq_false, and_false, iff_false]
    unfold Prototype.make
    split
    · simp
    · split <;> simp
  | _ => simp [close, Reading.stage, eq_comm]

/-- A faultless text is not reported for one of its characters. -/
theorem Reading.close_ne_fault (r : Reading) (text : String) (fault : Fault) :
    r.close text ≠ .error (fault.toError text) := by
  cases r with
  | finished ret args marker =>
    simp only [close]
    unfold Prototype.make
    split
    · simp
    · split
      · simp
      · cases fault <;> simp [Fault.toError]
  | _ => cases fault <;> simp [close, Fault.toError]

/-- A text is reported for a character exactly if the reader finds that fault. -/
theorem parse_eq_fault_iff : parse word text = .error (fault.toError text) ↔
    read word text.toList = .error fault := by
  unfold parse
  cases hread : read word text.toList with
  | ok r => simp [r.close_ne_fault text fault]
  | error fault' =>
    simp only [Except.error.injEq]
    cases fault' <;> cases fault <;> simp [Fault.toError]

/-- A text is incomplete exactly if the reader reaches its end and has not finished. -/
theorem parse_eq_incomplete_iff {stage : Stage} :
    parse word text = .error (.incomplete text stage) ↔
      ∃ r, read word text.toList = .ok r ∧ r.stage = stage ∧ r.stage ≠ .finished := by
  unfold parse
  cases hread : read word text.toList with
  | ok r => simp [Reading.close_eq_incomplete_iff]
  | error fault => cases fault <;> simp [Fault.toError]

/-- A text that is not viable has a fault at the first character behind its longest viable part,
and keeps it however it goes on from there. -/
theorem fault_of_not_viable (h : ¬ Viable word text.toList) :
    ∃ us c ws r fault, text.toList = us ++ c :: ws ∧ LongestViable word us text.toList ∧
      read word us = .ok r ∧ Fault.character fault = c ∧
      (∀ stage ∈ fault.stage?, stage = r.stage) ∧
      ∀ vs, parse word (String.ofList (us ++ c :: vs)) =
        .error (fault.toError (String.ofList (us ++ c :: vs))) := by
  obtain ⟨fault, hfault⟩ := not_viable_iff.mp h
  obtain ⟨us, c, ws, r, htext, hus, hc⟩ := exists_of_foldlM_eq_error hfault
  obtain ⟨hcharacter, hstage⟩ := Reading.of_step_eq_error hc
  refine ⟨us, c, ws, r, fault, htext, ?_, hus, hcharacter, hstage, fun vs ↦ ?_⟩
  · rw [htext]
    exact longestViable_of_step hus hc ws
  · apply parse_eq_fault_iff.mpr
    rw [String.toList_ofList]
    exact read_append_cons hus hc vs

/-- A text is incomplete exactly if it is viable and not accepted. -/
theorem parse_eq_incomplete_iff_viable {stage : Stage} :
    parse word text = .error (.incomplete text stage) ↔
      Viable word text.toList ∧ ¬ Accepted word text.toList ∧
        ∃ r, read word text.toList = .ok r ∧ r.stage = stage := by
  rw [parse_eq_incomplete_iff, viable_iff, accepted_iff]
  constructor
  · rintro ⟨r, hr, hstage, hne⟩
    refine ⟨⟨r, hr⟩, ?_, r, hr, hstage⟩
    rintro ⟨r', hr', hfinished⟩
    rw [hr] at hr'
    cases hr'
    exact hne hfinished
  · rintro ⟨-, hnot, r, hr, hstage⟩
    exact ⟨r, hr, hstage, fun hfinished ↦ hnot ⟨r, hr, hfinished⟩⟩

/-- Nothing can follow an accepted text. -/
theorem Accepted.not_viable_append (h : Accepted word cs) {ws : List Char} (hws : ws ≠ []) :
    ¬ Viable word (cs ++ ws) := by
  obtain ⟨r, hr, hfinished⟩ := accepted_iff.mp h
  obtain ⟨c, ws, rfl⟩ := List.exists_cons_of_ne_nil hws
  cases r with
  | finished ret args marker =>
    exact not_viable_iff.mpr ⟨.unexpected c .finished, read_append_cons hr rfl ws⟩
  | start | result | arguments => cases hfinished

/-- A text is reported for one of its characters exactly if it is not viable. The character is the
first behind its longest viable part, the stage that of the reader there, and the error is the same
however the text goes on. A text is incomplete, in the stage reached, exactly if it is viable and
not accepted, and nothing can follow an accepted text. -/
theorem parse_error_at_first_unviable (word : WordSize) (text : String) :
    ((∃ fault : Fault, parse word text = .error (fault.toError text)) ↔
      ¬ Viable word text.toList) ∧
    (¬ Viable word text.toList →
      ∃ us c ws r fault, text.toList = us ++ c :: ws ∧ LongestViable word us text.toList ∧
        read word us = .ok r ∧ Fault.character fault = c ∧
        (∀ stage ∈ fault.stage?, stage = r.stage) ∧
        ∀ vs, parse word (String.ofList (us ++ c :: vs)) =
          .error (fault.toError (String.ofList (us ++ c :: vs)))) ∧
    (∀ stage, parse word text = .error (.incomplete text stage) ↔
      Viable word text.toList ∧ ¬ Accepted word text.toList ∧
        ∃ r, read word text.toList = .ok r ∧ r.stage = stage) ∧
    (Accepted word text.toList → ∀ ws, ws ≠ [] → ¬ Viable word (text.toList ++ ws)) := by
  refine ⟨?_, fault_of_not_viable, fun _ ↦ parse_eq_incomplete_iff_viable,
    fun h _ ↦ h.not_viable_append⟩
  rw [not_viable_iff]
  exact exists_congr fun fault ↦ parse_eq_fault_iff

/-- A second opening parenthesis is the first character that rules out every completion. -/
theorem parse_error_second_opening : ¬ Viable .w64 "i((i)".toList ∧
    ∃ us c ws r fault, "i((i)".toList = us ++ c :: ws ∧
      LongestViable .w64 us "i((i)".toList ∧ read .w64 us = .ok r ∧
      Fault.character fault = c ∧ (∀ stage ∈ fault.stage?, stage = r.stage) ∧
      ∀ vs, parse .w64 (String.ofList (us ++ c :: vs)) =
        .error (fault.toError (String.ofList (us ++ c :: vs))) := by
  have h := parse_error_at_first_unviable .w64 "i((i)"
  have hviable : ¬ Viable .w64 "i((i)".toList := h.1.mp ⟨.unexpected '(' .arguments, rfl⟩
  exact ⟨hviable, h.2.1 hviable⟩

end ForeignCall.Signature
