import ForeignCall.Signature

/-!
# The grammar of signatures

A signature is a result letter and, in parentheses, argument letters with at most one variadic
marker anywhere among them. What a reader has read is at every point such a text, cut off at that
point, so exactly the texts of this form are accepted. Each is read in one way, and the prototype
is that of its letters; a variadic index out of range cannot come out of a text.
-/

namespace ForeignCall

namespace Prototype

/-- A letter at the end is behind the variadic marker. -/
theorem marked_concat {letters : List Char} {marker : Option Nat}
    (h : ∀ m ∈ marker, m ≤ letters.length) (c : Char) :
    marked (letters ++ [c]) marker = marked letters marker ++ [c] := by
  cases marker with
  | none => rfl
  | some m =>
    have hm : m ≤ letters.length := h m rfl
    simp only [marked, List.take_append_of_le_length hm, List.drop_append_of_le_length hm,
      List.append_assoc, List.cons_append]

/-- Letters with a marker at one place are equal if the letters are. -/
theorem marked_inj {xs ys : List Char} {marker : Option Nat} (hx : ∀ m ∈ marker, m ≤ xs.length)
    (hy : ∀ m ∈ marker, m ≤ ys.length) (h : marked xs marker = marked ys marker) : xs = ys := by
  cases marker with
  | none => exact h
  | some m =>
    have hlen : (xs.take m).length = (ys.take m).length := by
      rw [List.length_take_of_le (hx m rfl), List.length_take_of_le (hy m rfl)]
    obtain ⟨htake, hdrop⟩ := List.append_inj h hlen
    rw [← List.take_append_drop m xs, htake, List.tail_eq_of_cons_eq hdrop,
      List.take_append_drop]

end Prototype

namespace Signature

/-! ### Letters -/

/-- The letters that stand for a type. -/
def letters : List Char := ['b', 'B', 's', 'S', 'i', 'I', 'l', 'L', 'f', 'd', 'p', 'P', 'v', 'V']

/-- Under either word size these letters stand for a type and no others do. -/
theorem exists_ofLetter?_iff (word : WordSize) (c : Char) :
    (∃ t, Scalar.ofLetter? word c = some t) ↔ c ∈ letters := by
  constructor
  · rintro ⟨t, h⟩
    unfold Scalar.ofLetter? at h
    split at h <;> first | (cases h; done) | decide
  · intro h
    simp only [letters, List.mem_cons, List.not_mem_nil, or_false] at h
    rcases h with rfl | rfl | rfl | rfl | rfl | rfl | rfl | rfl | rfl | rfl | rfl | rfl | rfl | rfl
      <;> exact ⟨_, rfl⟩

/-- A list of letters stands for a list of types. -/
theorem exists_map_ofLetter? (word : WordSize) {cs : List Char} (h : ∀ c ∈ cs, c ∈ letters) :
    ∃ ts : List Scalar, cs.map (Scalar.ofLetter? word) = ts.map some := by
  induction cs with
  | nil => exact ⟨[], rfl⟩
  | cons c cs ih =>
    obtain ⟨t, ht⟩ := (exists_ofLetter?_iff word c).mpr (h c List.mem_cons_self)
    obtain ⟨ts, hts⟩ := ih fun d hd ↦ h d (List.mem_cons_of_mem c hd)
    exact ⟨t :: ts, by simp [ht, hts]⟩

/-- No letter is a parenthesis or the variadic marker. -/
theorem isPunctuation_of_mem {c : Char} (h : c ∈ letters) : isPunctuation c = false := by
  have hall : letters.all (!isPunctuation ·) = true := by decide
  simpa using List.all_eq_true.mp hall c h

/-- A letter is neither parenthesis and not the marker. -/
theorem ne_of_mem {c : Char} (h : c ∈ letters) : c ≠ '(' ∧ c ≠ ')' ∧ c ≠ '|' := by
  simpa [isPunctuation, and_assoc] using isPunctuation_of_mem h

/-- Reading a letter and going on from its type succeeds exactly for the letter of a type. -/
theorem map_readLetter_eq_ok_iff {word : WordSize} {c : Char} {f : Scalar → Reading}
    {r : Reading} : (readLetter word c).map f = .ok r ↔
      ∃ t, Scalar.ofLetter? word c = some t ∧ f t = r := by
  unfold readLetter
  cases Scalar.ofLetter? word c <;> simp [Except.map]

/-! ### One character -/

/-- All that reading one more character can do. -/
inductive Reading.Advances (word : WordSize) : Reading → Char → Reading → Prop
  | result {c t} (h : Scalar.ofLetter? word c = some t) :
      Advances word .start c (.result t)
  | opening {ret} :
      Advances word (.result ret) '(' (.arguments ret [] none)
  | argument {ret args marker c t} (h : Scalar.ofLetter? word c = some t) :
      Advances word (.arguments ret args marker) c (.arguments ret (args ++ [t]) marker)
  | marker {ret args} :
      Advances word (.arguments ret args none) '|' (.arguments ret args (some args.length))
  | closing {ret args marker} :
      Advances word (.arguments ret args marker) ')' (.finished ret args marker)

/-- The characters a reading accepts are those that advance it, with the same outcome. -/
theorem Reading.step_eq_ok_iff {word : WordSize} {r r' : Reading} {c : Char} :
    r.step word c = .ok r' ↔ r.Advances word c r' := by
  constructor
  · intro h
    cases r with
    | start =>
      simp only [step] at h
      split at h
      · cases h
      · obtain ⟨t, ht, rfl⟩ := map_readLetter_eq_ok_iff.mp h
        exact .result ht
    | result ret =>
      simp only [step] at h
      split at h
      · next hc =>
        cases h
        exact hc ▸ .opening
      · cases h
    | arguments ret args marker =>
      simp only [step] at h
      split at h
      · next hc =>
        cases h
        exact hc ▸ .closing
      · split at h
        · next hc =>
          cases marker with
          | none =>
            cases h
            exact hc ▸ .marker
          | some m => cases h
        · split at h
          · cases h
          · obtain ⟨t, ht, rfl⟩ := map_readLetter_eq_ok_iff.mp h
            exact .argument ht
    | finished ret args marker => cases h
  · intro h
    cases h with
    | result h =>
      have hc := isPunctuation_of_mem ((exists_ofLetter?_iff word c).mp ⟨_, h⟩)
      simpa only [step, hc, Bool.false_eq_true, if_false] using
        map_readLetter_eq_ok_iff.mpr ⟨_, h, rfl⟩
    | opening => rfl
    | argument h =>
      obtain ⟨hopening, hclosing, hmarker⟩ := ne_of_mem ((exists_ofLetter?_iff word c).mp ⟨_, h⟩)
      simpa only [step, hopening, hclosing, hmarker, if_false] using
        map_readLetter_eq_ok_iff.mpr ⟨_, h, rfl⟩
    | marker => rfl
    | closing => rfl

/-! ### Spellings -/

/-- The parts of a signature text. -/
structure Spelling where
  /-- The letter of the result. -/
  result : Char
  /-- The letters of the arguments. -/
  arguments : List Char
  /-- How many argument letters are before the variadic marker, if there is one. -/
  marker : Option Nat
  result_mem : result ∈ letters
  arguments_mem : ∀ c ∈ arguments, c ∈ letters
  marker_le : ∀ m ∈ marker, m ≤ arguments.length

namespace Spelling

/-- The text without the closing parenthesis. -/
def opened (s : Spelling) : List Char :=
  s.result :: '(' :: Prototype.marked s.arguments s.marker

/-- The text. -/
def chars (s : Spelling) : List Char := s.opened ++ [')']

/-- A spelling is determined by its letters and its marker. -/
@[ext] theorem ext {s t : Spelling} (result : s.result = t.result)
    (arguments : s.arguments = t.arguments) (marker : s.marker = t.marker) : s = t := by
  cases s
  cases t
  simp_all

/-- The letters of a spelling stand for these types, and its marker is at this index. -/
structure Denotes (word : WordSize) (s : Spelling) (ret : Scalar) (args : List Scalar)
    (variadic : Option Nat) : Prop where
  ret : Scalar.ofLetter? word s.result = some ret
  args : s.arguments.map (Scalar.ofLetter? word) = args.map some
  variadic : s.marker = variadic

variable {word : WordSize} {s : Spelling} {ret : Scalar} {args : List Scalar}
  {variadic : Option Nat}

/-- There is a type for each letter. -/
theorem Denotes.length_eq (h : s.Denotes word ret args variadic) :
    s.arguments.length = args.length := by
  simpa using congrArg List.length h.args

/-- The index of the marker is within the arguments. -/
theorem Denotes.variadic_le (h : s.Denotes word ret args variadic) :
    ∀ m ∈ variadic, m ≤ args.length :=
  fun m hm ↦ h.length_eq ▸ s.marker_le m (h.variadic ▸ hm)

/-- Every spelling denotes a prototype. -/
theorem exists_denotes (word : WordSize) (s : Spelling) :
    ∃ p : Prototype, s.Denotes word p.ret p.args p.variadic := by
  obtain ⟨ret, hret⟩ := (exists_ofLetter?_iff word s.result).mpr s.result_mem
  obtain ⟨args, hargs⟩ := exists_map_ofLetter? word s.arguments_mem
  have h : s.Denotes word ret args s.marker := ⟨hret, hargs, rfl⟩
  exact ⟨⟨ret, args, s.marker, h.variadic_le⟩, h⟩

/-- A spelling without arguments. -/
def empty (c : Char) (hc : c ∈ letters) : Spelling :=
  ⟨c, [], none, hc, by simp, by simp⟩

/-- A spelling with one more argument. -/
def push (s : Spelling) (c : Char) (hc : c ∈ letters) : Spelling where
  result := s.result
  arguments := s.arguments ++ [c]
  marker := s.marker
  result_mem := s.result_mem
  arguments_mem d hd := by
    rcases List.mem_append.mp hd with hd | hd
    · exact s.arguments_mem d hd
    · exact List.mem_singleton.mp hd ▸ hc
  marker_le m hm := by
    have := s.marker_le m hm
    simp only [List.length_append]
    omega

/-- A spelling with the marker behind its last argument. -/
def mark (s : Spelling) : Spelling :=
  ⟨s.result, s.arguments, some s.arguments.length, s.result_mem, s.arguments_mem, by simp⟩

/-- One more argument is one more letter of the text. -/
theorem opened_push (s : Spelling) (c : Char) (hc : c ∈ letters) :
    (s.push c hc).opened = s.opened ++ [c] := by
  simp only [opened, push, Prototype.marked_concat s.marker_le, List.cons_append]

/-- A marker behind the last argument is one more character of the text. -/
theorem opened_mark {s : Spelling} (h : s.marker = none) : s.mark.opened = s.opened ++ ['|'] := by
  simp [opened, mark, h, Prototype.marked]

/-- A spelling with one more letter denotes the prototype with one more argument. -/
theorem Denotes.push (h : s.Denotes word ret args variadic) {c : Char} {t : Scalar}
    (hc : c ∈ letters) (ht : Scalar.ofLetter? word c = some t) :
    (s.push c hc).Denotes word ret (args ++ [t]) variadic :=
  ⟨h.ret, by simp [Spelling.push, h.args, ht], h.variadic⟩

/-- A spelling with the marker denotes the prototype that is variadic from there on. -/
theorem Denotes.mark (h : s.Denotes word ret args variadic) :
    s.mark.Denotes word ret args (some args.length) :=
  ⟨h.ret, h.args, congrArg some h.length_eq⟩

end Spelling

/-! ### What has been read -/

/-- The texts that lead to a reading: a spelling up to some point. -/
def Reads (word : WordSize) (cs : List Char) : Reading → Prop
  | .start => cs = []
  | .result ret => ∃ c, Scalar.ofLetter? word c = some ret ∧ cs = [c]
  | .arguments ret args marker => ∃ s : Spelling, s.Denotes word ret args marker ∧ cs = s.opened
  | .finished ret args marker => ∃ s : Spelling, s.Denotes word ret args marker ∧ cs = s.chars

variable {word : WordSize} {r r' : Reading} {c : Char} {cs ds : List Char}

/-- One more character read is one more character of a spelling. -/
theorem Reads.concat (h : Reads word cs r) (hstep : r.Advances word c r') :
    Reads word (cs ++ [c]) r' := by
  cases hstep with
  | result hc =>
    cases h
    exact ⟨c, hc, rfl⟩
  | opening =>
    obtain ⟨d, hd, rfl⟩ := h
    exact ⟨.empty d ((exists_ofLetter?_iff word d).mp ⟨_, hd⟩), ⟨hd, rfl, rfl⟩, rfl⟩
  | argument hc =>
    obtain ⟨s, hs, rfl⟩ := h
    have hmem := (exists_ofLetter?_iff word c).mp ⟨_, hc⟩
    exact ⟨s.push c hmem, hs.push hmem hc, (s.opened_push c hmem).symm⟩
  | marker =>
    obtain ⟨s, hs, rfl⟩ := h
    exact ⟨s.mark, hs.mark, (Spelling.opened_mark hs.variadic).symm⟩
  | closing =>
    obtain ⟨s, hs, rfl⟩ := h
    exact ⟨s, hs, rfl⟩

/-- What is read further is the rest of a spelling. -/
theorem Reads.append (h : Reads word cs r) (hrun : ds.foldlM (Reading.step word) r = .ok r') :
    Reads word (cs ++ ds) r' := by
  induction ds generalizing cs r with
  | nil =>
    cases hrun
    simpa using h
  | cons d ds ih =>
    rw [List.foldlM_cons] at hrun
    cases hstep : r.step word d with
    | error fault => simp [hstep, bind, Except.bind] at hrun
    | ok r₁ =>
      have hd : Reads word (cs ++ [d]) r₁ := h.concat (Reading.step_eq_ok_iff.mp hstep)
      simpa using ih hd (by simpa [hstep, bind, Except.bind] using hrun)

/-- Nothing has been read at the start. -/
theorem read_nil (word : WordSize) : read word [] = .ok .start := rfl

/-- A text is read further by a character that advances its reading. -/
theorem read_concat (h : read word cs = .ok r) (hstep : r.Advances word c r') :
    read word (cs ++ [c]) = .ok r' := by
  have hc : r.step word c = .ok r' := Reading.step_eq_ok_iff.mpr hstep
  rw [read_append, h]
  simp [hc, bind, Except.bind, pure, Except.pure]

variable {ret : Scalar} {args ts : List Scalar} {marker : Option Nat}

/-- Letters inside the parentheses add their types to the arguments. -/
theorem read_append_letters (h : read word cs = .ok (.arguments ret args marker))
    (hds : ds.map (Scalar.ofLetter? word) = ts.map some) :
    read word (cs ++ ds) = .ok (.arguments ret (args ++ ts) marker) := by
  induction ds generalizing cs args ts with
  | nil =>
    obtain rfl : ts = [] := by simpa using hds.symm
    simpa using h
  | cons d ds ih =>
    cases ts with
    | nil => cases hds
    | cons t ts =>
      obtain ⟨hd, hds⟩ := List.cons.inj hds
      simpa using ih (read_concat h (.argument hd)) hds

/-- A spelling is read up to its closing parenthesis: the letters before the marker, the marker
and the letters behind it. -/
theorem read_opened {s : Spelling} (h : s.Denotes word ret args marker) :
    read word s.opened = .ok (.arguments ret args marker) := by
  have hresult : read word [s.result] = .ok (.result ret) :=
    read_concat (read_nil word) (.result h.ret)
  have hopening : read word [s.result, '('] = .ok (.arguments ret [] none) :=
    read_concat hresult .opening
  cases marker with
  | none =>
    have hletters := read_append_letters hopening h.args
    simpa [Spelling.opened, h.variadic, Prototype.marked] using hletters
  | some m =>
    have hm : m ≤ args.length := h.variadic_le m rfl
    have htake : (s.arguments.take m).map (Scalar.ofLetter? word) = (args.take m).map some := by
      rw [List.map_take, List.map_take, h.args]
    have hdrop : (s.arguments.drop m).map (Scalar.ofLetter? word) = (args.drop m).map some := by
      rw [List.map_drop, List.map_drop, h.args]
    have hmarker := read_concat (read_append_letters hopening htake) .marker
    have hletters := read_append_letters hmarker hdrop
    simpa [Spelling.opened, h.variadic, Prototype.marked, hm] using hletters

/-- A spelling is read as what it denotes. -/
theorem read_chars {s : Spelling} (h : s.Denotes word ret args marker) :
    read word s.chars = .ok (.finished ret args marker) :=
  read_concat (read_opened h) .closing

/-- A reader has read exactly what leads to its reading. -/
theorem read_eq_ok_iff : read word cs = .ok r ↔ Reads word cs r := by
  constructor
  · intro h
    have hstart : Reads word [] .start := rfl
    exact hstart.append h
  · intro h
    cases r with
    | start =>
      cases h
      rfl
    | result ret =>
      obtain ⟨c, hc, rfl⟩ := h
      exact read_concat (read_nil word) (.result hc)
    | arguments ret args marker =>
      obtain ⟨s, hs, rfl⟩ := h
      exact read_opened hs
    | finished ret args marker =>
      obtain ⟨s, hs, rfl⟩ := h
      exact read_chars hs

/-- A text has one spelling. -/
theorem Spelling.chars_injective : Function.Injective Spelling.chars := by
  intro s t h
  obtain ⟨p, hp⟩ := s.exists_denotes .w64
  obtain ⟨q, hq⟩ := t.exists_denotes .w64
  -- The reader counts the arguments before the marker, so both have it at the same place.
  have hmarker : s.marker = t.marker := by
    have hread := read_chars hp
    rw [h, read_chars hq] at hread
    simp only [Except.ok.injEq, Reading.finished.injEq] at hread
    rw [hp.variadic, hq.variadic, hread.2.2]
  obtain ⟨hresult, hmarked⟩ : s.result = t.result ∧
      Prototype.marked s.arguments s.marker = Prototype.marked t.arguments t.marker := by
    simpa [chars, opened] using h
  have harguments : s.arguments = t.arguments := by
    rw [← hmarker] at hmarked
    exact Prototype.marked_inj s.marker_le (fun m hm ↦ t.marker_le m (hmarker ▸ hm)) hmarked
  exact Spelling.ext hresult harguments hmarker

/-! ### The accepted texts -/

/-- Only a finished reading is a prototype, that of its parts. -/
theorem Reading.close_eq_ok_iff {text : String} {p : Prototype} :
    r.close text = .ok p ↔ r = .finished p.ret p.args p.variadic := by
  cases r with
  | finished ret args marker =>
    simp only [close, Prototype.make_eq_ok_iff, finished.injEq, @eq_comm _ ret, @eq_comm _ args,
      @eq_comm _ marker]
  | _ => simp [close]

/-- A text is accepted for a prototype exactly if it is a spelling that denotes it. -/
theorem parse_eq_ok_iff {text : String} {p : Prototype} : parse word text = .ok p ↔
    ∃ s : Spelling, s.chars = text.toList ∧ s.Denotes word p.ret p.args p.variadic := by
  have hread : read word text.toList = .ok (.finished p.ret p.args p.variadic) ↔
      ∃ s : Spelling, s.chars = text.toList ∧ s.Denotes word p.ret p.args p.variadic := by
    simp only [read_eq_ok_iff, Reads, and_comm, @eq_comm _ text.toList]
  rw [← hread]
  unfold parse
  cases h : read word text.toList with
  | ok r => simp [Reading.close_eq_ok_iff]
  | error fault => simp

/-- The marker of a reading is among the arguments, so its prototype can be made. -/
theorem Reads.close_ne_markerOutOfRange (h : Reads word cs r) (text : String)
    (index count : Nat) : r.close text ≠ .error (.markerOutOfRange index count) := by
  cases r with
  | finished ret args marker =>
    obtain ⟨s, hs, rfl⟩ := h
    let p : Prototype := ⟨ret, args, marker, hs.variadic_le⟩
    have hclose : (Reading.finished ret args marker).close text = .ok p :=
      Reading.close_eq_ok_iff.mpr rfl
    simp [hclose]
  | _ => simp [Reading.close]

/-- The reader accepts exactly the spellings, each for the prototype it denotes. No two spellings
have the same text, and no text has a variadic marker out of range. -/
theorem parse_iff_spelling (word : WordSize) (text : String) :
    (∀ p, parse word text = .ok p ↔
      ∃ s : Spelling, s.chars = text.toList ∧ s.Denotes word p.ret p.args p.variadic) ∧
    ((∃ p, parse word text = .ok p) ↔ ∃ s : Spelling, s.chars = text.toList) ∧
    Function.Injective Spelling.chars ∧
    ∀ index count, parse word text ≠ .error (.markerOutOfRange index count) := by
  refine ⟨fun p ↦ parse_eq_ok_iff, ⟨?_, ?_⟩, Spelling.chars_injective, ?_⟩
  · rintro ⟨p, h⟩
    obtain ⟨s, hs, -⟩ := parse_eq_ok_iff.mp h
    exact ⟨s, hs⟩
  · rintro ⟨s, hs⟩
    obtain ⟨p, hp⟩ := s.exists_denotes word
    exact ⟨p, parse_eq_ok_iff.mpr ⟨s, hs, hp⟩⟩
  · intro index count
    unfold parse
    cases h : read word text.toList with
    | ok r => exact (read_eq_ok_iff.mp h).close_ne_markerOutOfRange text index count
    | error fault => cases fault <;> simp [Fault.toError]

/-- The marker may stand in an empty list, and `v` is as wide as a pointer. -/
example : parse .w32 "v(|)" = .ok ⟨.i32, [], some 0, by simp⟩ := rfl

end Signature

end ForeignCall
