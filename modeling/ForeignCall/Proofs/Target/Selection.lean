import ForeignCall.Signature
import ForeignCall.Target
import Mathlib.Data.List.Basic

/-!
# Selecting an allocator

A target is described by a text, and the text is read twice: once for what the target says about
itself, token by token, and once for its allocators, by how the text starts. Both readings come
down to the tokens of the text in lower case. They agree on which architectures there are
allocators for, and on the width of a pointer. On Windows they do not always agree: a text that
ends with the operating system is taken for one of another system when an allocator is selected.
-/

namespace ForeignCall

/-! ### Lower case -/

namespace Text

/-- A character in lower case stays as it is. -/
theorem toLower_idem (c : Char) : c.toLower.toLower = c.toLower := by
  unfold Char.toLower
  grind

/-- Letters, and no other characters, are letters in lower case. -/
theorem isAlpha_toLower (c : Char) : c.toLower.isAlpha = c.isAlpha := by
  change (c.toLower.isUpper || c.toLower.isLower) = (c.isUpper || c.isLower)
  unfold Char.toLower Char.isUpper Char.isLower
  grind

/-- A character that is no letter is its own lower case. -/
theorem toLower_of_not_isAlpha {c : Char} (h : c.isAlpha = false) : c.toLower = c := by
  have hupper : c.isUpper = false := (Bool.or_eq_false_iff.mp h).1
  exact dif_neg (of_decide_eq_false hupper)

/-- A letter in lower case is a character that is no letter only if it was that character. -/
theorem toLower_eq_iff {c d : Char} (hd : d.isAlpha = false) : c.toLower = d ↔ c = d := by
  constructor
  · intro h
    -- Letters stay letters in lower case, so what turns into no letter was none.
    have hc : c.isAlpha = false := by rw [← isAlpha_toLower, h, hd]
    rw [← h, toLower_of_not_isAlpha hc]
  · rintro rfl
    exact toLower_of_not_isAlpha hd

/-- Characters in lower case are characters that are no letters only if they were these. -/
theorem map_toLower_eq_iff {cs ds : List Char} (hds : ∀ d ∈ ds, d.isAlpha = false) :
    cs.map Char.toLower = ds ↔ cs = ds := by
  induction cs generalizing ds with
  | nil => rfl
  | cons c cs ih =>
    cases ds with
    | nil => simp
    | cons d ds =>
      obtain ⟨hd, hds⟩ := List.forall_mem_cons.mp hds
      simp only [List.map_cons, List.cons.injEq, toLower_eq_iff hd, ih hds]

/-- The tokens between dashes of a text in lower case are its tokens in lower case. -/
theorem tokens_toLower (text : String) :
    tokens '-' (text.map Char.toLower).toList =
      (tokens '-' text.toList).map (List.map Char.toLower) := by
  rw [String.toList_map]
  exact tokens_map (fun _ ↦ toLower_eq_iff rfl) _

/-- A text in lower case stays as it is. -/
theorem map_toLower_idem (text : String) :
    (text.map Char.toLower).map Char.toLower = text.map Char.toLower := by
  apply String.toList_inj.mp
  rw [String.toList_map, String.toList_map, List.map_map]
  exact List.map_congr_left fun c _ ↦ toLower_idem c

end Text

/-! ### How a text starts -/

section Tokens

variable {text start : String} {arch os name system : List Char} {more : List (List Char)}

/-- A text of more than one token starts with a name and a dash exactly if the name is its first
token. -/
theorem startsWith_name_iff (hstart : start.toList = [name].flatMap (· ++ ['-']))
    (hname : '-' ∉ name) (h : Text.tokens '-' text.toList = arch :: os :: more) :
    startsWith start text = true ↔ arch = name := by
  rw [startsWith, List.isPrefixOf_iff_prefix, hstart,
    Text.flatMap_isPrefix_iff (by simpa using hname), h]
  simp

/-- A text starts with two names and a dash behind each exactly if these are its first two tokens
and there are more. -/
theorem startsWith_names_iff (hstart : start.toList = [name, system].flatMap (· ++ ['-']))
    (hname : '-' ∉ name) (hsystem : '-' ∉ system)
    (h : Text.tokens '-' text.toList = arch :: os :: more) :
    startsWith start text = true ↔ arch = name ∧ os = system ∧ more ≠ [] := by
  rw [startsWith, List.isPrefixOf_iff_prefix, hstart,
    Text.flatMap_isPrefix_iff (by simp [hname, hsystem]), h]
  cases more <;> simp

/-- The allocator an attribute stands for, by the tokens of the target text. For x86 and x86-64 it
is that of Windows only if this is the second token and not the last. -/
theorem Allocator.find_eq (h : Text.tokens '-' text.toList = arch :: os :: more)
    (attr : Attribute) :
    Allocator.find text attr =
      if arch = "x86".toList then
        if attr = .stdcall ∨
            (attr = .stdcallOnWindows ∧ os = "windows".toList ∧ more ≠ []) then .ok .x86Stdcall
        else .ok .x86Cdecl
      else if arch = "x86_64".toList then
        if os = "windows".toList ∧ more ≠ [] then .ok .x64Windows else .ok .x64Unix
      else .error (.unknown text) := by
  have hx86 : startsWith "x86-" text = true ↔ arch = "x86".toList :=
    startsWith_name_iff (by decide) (by decide) h
  have hx64 : startsWith "x86_64-" text = true ↔ arch = "x86_64".toList :=
    startsWith_name_iff (by decide) (by decide) h
  have hx86Windows : startsWith "x86-windows-" text = true ↔
      arch = "x86".toList ∧ os = "windows".toList ∧ more ≠ [] :=
    startsWith_names_iff (by decide) (by decide) (by decide) h
  have hx64Windows : startsWith "x86_64-windows-" text = true ↔
      arch = "x86_64".toList ∧ os = "windows".toList ∧ more ≠ [] :=
    startsWith_names_iff (by decide) (by decide) (by decide) h
  have hapart : "x86".toList ≠ "x86_64".toList := by decide
  simp only [Allocator.find, hx86, hx64, hx86Windows, hx64Windows]
  -- A text that starts with an architecture and Windows also starts with the architecture, so the
  -- tests can be sorted by architecture.
  by_cases harch : arch = "x86".toList
  · by_cases hwindows : os = "windows".toList ∧ more ≠ []
    · rw [if_pos ⟨harch, hwindows⟩, if_pos harch]
      cases attr with
      | plain => rfl
      | stdcall => rfl
      | stdcallOnWindows => exact (if_pos (.inr ⟨rfl, hwindows⟩)).symm
    · rw [if_neg fun h ↦ hwindows h.2, if_pos harch, if_pos harch]
      cases attr with
      | plain => rfl
      | stdcall => rfl
      | stdcallOnWindows => exact (if_neg fun h ↦ h.elim nofun fun h ↦ hwindows h.2).symm
  · rw [if_neg fun h ↦ harch h.1, if_neg harch, if_neg harch]
    by_cases harch64 : arch = "x86_64".toList
    · simp only [harch64, true_and, if_true]
    · simp only [harch64, false_and, if_false]

/-- There is an allocator exactly for x86 and x86-64, and what the text of another architecture is
refused with is the text. -/
theorem Allocator.exists_find_iff (h : Text.tokens '-' text.toList = arch :: os :: more)
    (attr : Attribute) :
    ((∃ a, Allocator.find text attr = .ok a) ↔
      arch = "x86".toList ∨ arch = "x86_64".toList) ∧
    (¬(arch = "x86".toList ∨ arch = "x86_64".toList) →
      Allocator.find text attr = .error (.unknown text)) := by
  rw [Allocator.find_eq h]
  split
  · next harch =>
    refine ⟨iff_of_true ?_ (.inl harch), fun hnot ↦ absurd (.inl harch) hnot⟩
    split <;> exact ⟨_, rfl⟩
  · next harch =>
    split
    · next harch64 =>
      refine ⟨iff_of_true ?_ (.inr harch64), fun hnot ↦ absurd (.inr harch64) hnot⟩
      split <;> exact ⟨_, rfl⟩
    · next harch64 =>
      refine ⟨iff_of_false ?_ (not_or.mpr ⟨harch, harch64⟩), fun _ ↦ rfl⟩
      rintro ⟨a, ha⟩
      cases ha

/-- An allocator has the word size that the name of the architecture says. -/
theorem Allocator.wordSize_of_find (h : Text.tokens '-' text.toList = arch :: os :: more)
    {attr : Attribute} {a : Allocator} (ha : Allocator.find text attr = .ok a) :
    a.wordSize = if Target.is64Bit arch then .w64 else .w32 := by
  rw [Allocator.find_eq h] at ha
  split at ha
  · next harch =>
    rw [harch]
    split at ha <;> cases ha <;> decide
  · split at ha
    · next harch =>
      rw [harch]
      split at ha <;> cases ha <;> decide
    · cases ha

end Tokens

namespace Target

/-! ### What a text describes -/

variable {text : String} {t : Target}

/-- A text describes a target exactly if it has a first and a second token and neither is empty. -/
theorem ofText_eq_ok_iff : ofText text = .ok t ↔
    ∃ arch os more, Text.tokens '-' text.toList = arch :: os :: more ∧ arch ≠ [] ∧ os ≠ [] ∧
      t = ⟨text.map Char.toLower, if is64Bit arch then .w64 else .w32, .little⟩ := by
  unfold ofText
  split
  · next arch os more h =>
    split
    · next hempty =>
      simp only [reduceCtorEq, false_iff, not_exists]
      rintro arch' os' more' ⟨heq, harch, hos, -⟩
      cases h.symm.trans heq
      exact hempty.elim harch hos
    · next hfull =>
      simp only [Except.ok.injEq]
      constructor
      · rintro rfl
        exact ⟨arch, os, more, h, fun hnil ↦ hfull (.inl hnil), fun hnil ↦ hfull (.inr hnil), rfl⟩
      · rintro ⟨arch', os', more', heq, -, -, rfl⟩
        cases h.symm.trans heq
        rfl
  · next hshort =>
    simp only [reduceCtorEq, false_iff, not_exists]
    rintro arch os more ⟨heq, -⟩
    exact hshort arch os more heq

/-- Whether pointers have 64 bits shows in digits, so the case of letters does not matter. -/
theorem is64Bit_map_toLower (arch : List Char) :
    is64Bit (arch.map Char.toLower) = is64Bit arch := by
  have hdigits : ∀ d ∈ "64".toList, d.isAlpha = false := by simp
  rw [Bool.eq_iff_iff, is64Bit, is64Bit, List.isSuffixOf_iff_suffix, List.isSuffixOf_iff_suffix]
  constructor
  · intro h
    obtain ⟨digits, hsuffix, hmap⟩ := List.suffix_map_iff.mp h
    rwa [(Text.map_toLower_eq_iff hdigits).mp hmap.symm] at hsuffix
  · intro h
    have hmap := h.map Char.toLower
    rwa [(Text.map_toLower_eq_iff hdigits).mpr rfl] at hmap

/-- What a text describes, with the tokens of the text in lower case. -/
theorem tokens_archOs (h : ofText text = .ok t) : ∃ arch os more,
    Text.tokens '-' text.toList = arch :: os :: more ∧
      Text.tokens '-' t.archOs.toList =
        arch.map Char.toLower :: os.map Char.toLower :: more.map (List.map Char.toLower) ∧
      t.archOs = text.map Char.toLower ∧
      t.wordSize = if is64Bit (arch.map Char.toLower) then .w64 else .w32 := by
  obtain ⟨arch, os, more, htext, -, -, rfl⟩ := ofText_eq_ok_iff.mp h
  refine ⟨arch, os, more, htext, ?_, rfl, ?_⟩
  · rw [Text.tokens_toLower, htext, List.map_cons, List.map_cons]
  · rw [is64Bit_map_toLower]

/-- Texts that differ in the case of letters alone describe one target. -/
theorem ofText_eq_of_toLower_eq {other : String} (h : ofText text = .ok t)
    (hother : other.map Char.toLower = text.map Char.toLower) : ofText other = .ok t := by
  obtain ⟨arch, os, more, htext, harch, hos, rfl⟩ := ofText_eq_ok_iff.mp h
  have htokens := Text.tokens_toLower other
  rw [hother, Text.tokens_toLower, htext, List.map_cons, List.map_cons, eq_comm,
    List.map_eq_cons_iff] at htokens
  obtain ⟨arch', rest, htext', harch', hrest⟩ := htokens
  obtain ⟨os', more', rfl, hos', -⟩ := List.map_eq_cons_iff.mp hrest
  refine ofText_eq_ok_iff.mpr ⟨arch', os', more', htext', ?_, ?_, ?_⟩
  · rintro rfl
    exact harch (List.map_eq_nil_iff.mp harch'.symm)
  · rintro rfl
    exact hos (List.map_eq_nil_iff.mp hos'.symm)
  · rw [hother, ← is64Bit_map_toLower arch', harch', is64Bit_map_toLower]

/-- The architecture that a text names with its first token, in lower case. -/
def architecture (text : String) : List Char :=
  ((Text.tokens '-' text.toList).headD []).map Char.toLower

/-- Whether a text names one of the two architectures that there are allocators for. -/
def NamesX86 (text : String) : Prop :=
  architecture text = "x86".toList ∨ architecture text = "x86_64".toList

/-- A target and its allocators agree on the architecture and on the width of a pointer. The text
of the target describes it again, and so does every text that differs in the case of letters alone.
Whatever the attribute, there is an allocator exactly if the first token of the text is x86 or
x86-64, and otherwise the error has the text in lower case; the allocator has the word size of the
target, so both read every signature alike. -/
theorem target_agrees_with_allocator (h : ofText text = .ok t) :
    ofText t.archOs = .ok t ∧
    (∀ other : String, other.map Char.toLower = text.map Char.toLower → ofText other = .ok t) ∧
    ∀ attr, ((∃ a, t.allocator attr = .ok a) ↔ NamesX86 text) ∧
      (¬NamesX86 text → t.allocator attr = .error (.unknown (text.map Char.toLower))) ∧
      ∀ a, t.allocator attr = .ok a → a.wordSize = t.wordSize ∧
        ∀ signature, Signature.parse t.wordSize signature =
          Signature.parse a.wordSize signature := by
  obtain ⟨arch, os, more, htext, htokens, hlower, hword⟩ := tokens_archOs h
  have harch : architecture text = arch.map Char.toLower := by
    rw [architecture, htext, List.headD_cons]
  refine ⟨?_, fun other hother ↦ ofText_eq_of_toLower_eq h hother, fun attr ↦ ?_⟩
  · rw [hlower]
    exact ofText_eq_of_toLower_eq h (Text.map_toLower_idem text)
  · obtain ⟨hexists, hunknown⟩ := Allocator.exists_find_iff htokens attr
    rw [NamesX86, harch, ← hlower]
    refine ⟨hexists, hunknown, fun a ha ↦ ?_⟩
    have hwordSize : a.wordSize = t.wordSize := by
      rw [hword]
      exact Allocator.wordSize_of_find htokens ha
    exact ⟨hwordSize, fun signature ↦ by rw [hwordSize]⟩

/-- A text in mixed case with empty tokens, and one of an architecture whose name only starts like
one of the two. -/
theorem target_agrees_with_allocator_mixed :
    (∃ t, ofText "X86_64-Linux--GNU-" = .ok t ∧ ofText t.archOs = .ok t ∧
      ofText "x86_64-LINUX--gnu-" = .ok t ∧ (∃ a, t.allocator .stdcall = .ok a) ∧
      ∀ a, t.allocator .stdcall = .ok a → a.wordSize = t.wordSize ∧
        Signature.parse t.wordSize "v(Pd|p)" = Signature.parse a.wordSize "v(Pd|p)") ∧
    ∃ t, ofText "x86_64H-MacOS" = .ok t ∧ ¬NamesX86 "x86_64H-MacOS" ∧
      t.allocator .plain = .error (.unknown ("x86_64H-MacOS".map Char.toLower)) := by
  have hlinux : ofText "X86_64-Linux--GNU-" = .ok ⟨"x86_64-linux--gnu-", .w64, .little⟩ := by
    decide +kernel
  have hmac : ofText "x86_64H-MacOS" = .ok ⟨"x86_64h-macos", .w32, .little⟩ := by decide +kernel
  have hnames : NamesX86 "X86_64-Linux--GNU-" := .inr (by decide +kernel)
  have hnot : ¬NamesX86 "x86_64H-MacOS" := not_or.mpr ⟨by decide +kernel, by decide +kernel⟩
  constructor
  · obtain ⟨hself, hcase, hattr⟩ := target_agrees_with_allocator hlinux
    obtain ⟨hexists, -, hword⟩ := hattr .stdcall
    have hother :
        "x86_64-LINUX--gnu-".map Char.toLower = "X86_64-Linux--GNU-".map Char.toLower := by
      apply String.toList_inj.mp
      rw [String.toList_map, String.toList_map]
      decide +kernel
    refine ⟨_, hlinux, hself, hcase _ hother, hexists.mpr hnames, fun a ha ↦ ?_⟩
    exact ⟨(hword a ha).1, (hword a ha).2 "v(Pd|p)"⟩
  · obtain ⟨-, -, hattr⟩ := target_agrees_with_allocator hmac
    exact ⟨_, hmac, hnot, (hattr .plain).2.1 hnot⟩

end Target

/-! ### Windows -/

/-- The allocator of Windows for one of the two architectures. -/
def Allocator.ofWindows (arch : List Char) : Allocator :=
  if arch = "x86".toList then .x86Stdcall else .x64Windows

/-- Under the attribute for Windows only, the allocator is that of Windows if this is the second
token and not the last. -/
theorem Allocator.find_eq_ofWindows_iff {text : String} {arch os : List Char}
    {more : List (List Char)} (h : Text.tokens '-' text.toList = arch :: os :: more)
    (harch : arch = "x86".toList ∨ arch = "x86_64".toList) :
    Allocator.find text .stdcallOnWindows = .ok (.ofWindows arch) ↔
      os = "windows".toList ∧ more ≠ [] := by
  rw [Allocator.find_eq h]
  rcases harch with rfl | rfl
  · have hcdecl : x86Cdecl ≠ x86Stdcall := by decide
    rw [if_pos rfl, ofWindows, if_pos rfl]
    split
    · next hwindows =>
      exact iff_of_true rfl (hwindows.elim nofun And.right)
    · next hother =>
      refine iff_of_false (fun heq ↦ hcdecl (Except.ok.inj heq)) fun hwindows ↦ ?_
      exact hother (.inr ⟨rfl, hwindows⟩)
  · have hunix : x64Unix ≠ x64Windows := by decide
    have hapart : "x86_64".toList ≠ "x86".toList := by decide
    rw [if_neg hapart, if_pos rfl, ofWindows, if_neg hapart]
    split
    · next hwindows => exact iff_of_true rfl hwindows
    · next hother => exact iff_of_false (fun heq ↦ hunix (Except.ok.inj heq)) hother

namespace Target

variable {text : String} {t : Target}

/-- Whether a target is Windows exactly if it has the allocator of Windows where one is asked for on
Windows only. -/
def AgreesOnWindows (t : Target) : Prop :=
  t.isWindows = true ↔
    t.allocator .stdcallOnWindows = .ok (.ofWindows (architecture t.archOs))

/-- A target of two names is described by no other text in lower case than these and a dash. -/
theorem archOs_eq_iff {arch os name system : List Char} {more : List (List Char)} {names : String}
    (hnames : Text.tokens '-' names.toList = [name, system])
    (h : Text.tokens '-' t.archOs.toList = arch :: os :: more) :
    t.archOs = names ↔ arch = name ∧ os = system ∧ more = [] := by
  rw [← String.toList_inj, ← (Text.tokens_injective '-').eq_iff, hnames, h]
  simp

/-- For x86 and x86-64 a target agrees with its allocators on Windows, unless its text ends with the
operating system and this is Windows. -/
theorem agreesOnWindows_iff (h : ofText text = .ok t) (hx86 : NamesX86 text) :
    t.AgreesOnWindows ↔ t.archOs ≠ "x86-windows" ∧ t.archOs ≠ "x86_64-windows" := by
  obtain ⟨arch, os, more, htext, htokens, -, -⟩ := tokens_archOs h
  have harch : arch.map Char.toLower = "x86".toList ∨ arch.map Char.toLower = "x86_64".toList := by
    rwa [NamesX86, architecture, htext, List.headD_cons] at hx86
  have hself : architecture t.archOs = arch.map Char.toLower := by
    rw [architecture, htokens, List.headD_cons, List.map_map]
    exact List.map_congr_left fun c _ ↦ Text.toLower_idem c
  have hsays : t.isWindows = true ↔ os.map Char.toLower = "windows".toList := by
    rw [isWindows, htokens, decide_eq_true_iff, List.getElem?_cons_succ, List.getElem?_cons_zero,
      Option.some.injEq]
  have hends32 : t.archOs = "x86-windows" ↔ arch.map Char.toLower = "x86".toList ∧
      os.map Char.toLower = "windows".toList ∧ more.map (List.map Char.toLower) = [] :=
    archOs_eq_iff (by decide) htokens
  have hends64 : t.archOs = "x86_64-windows" ↔ arch.map Char.toLower = "x86_64".toList ∧
      os.map Char.toLower = "windows".toList ∧ more.map (List.map Char.toLower) = [] :=
    archOs_eq_iff (by decide) htokens
  have hends : (t.archOs ≠ "x86-windows" ∧ t.archOs ≠ "x86_64-windows") ↔
      ¬(os.map Char.toLower = "windows".toList ∧ more.map (List.map Char.toLower) = []) := by
    rw [ne_eq, ne_eq, ← not_or, hends32, hends64, ← or_and_right, and_iff_right harch]
  rw [AgreesOnWindows, hsays, allocator, hself, Allocator.find_eq_ofWindows_iff htokens harch,
    hends, not_and, iff_self_and]

/-- A text with an environment behind the operating system, for each architecture: the target agrees
with its allocators that it is Windows. -/
theorem agreesOnWindows_with_environment :
    (∃ t, ofText "x86-Windows-" = .ok t ∧ t.archOs ≠ "x86-windows" ∧ t.isWindows = true ∧
      t.AgreesOnWindows ∧ t.allocator .stdcallOnWindows = .ok .x86Stdcall) ∧
    ∃ t, ofText "X86_64-windows-msvc" = .ok t ∧ t.archOs ≠ "x86_64-windows" ∧
      t.isWindows = true ∧ t.AgreesOnWindows ∧
      t.allocator .stdcallOnWindows = .ok .x64Windows := by
  have h32 : ofText "x86-Windows-" = .ok ⟨"x86-windows-", .w32, .little⟩ := by decide +kernel
  have h64 : ofText "X86_64-windows-msvc" = .ok ⟨"x86_64-windows-msvc", .w64, .little⟩ := by
    decide +kernel
  have hnames32 : NamesX86 "x86-Windows-" := .inl (by decide +kernel)
  have hnames64 : NamesX86 "X86_64-windows-msvc" := .inr (by decide +kernel)
  have hagrees32 := (agreesOnWindows_iff h32 hnames32).mpr ⟨by decide, by decide⟩
  have hagrees64 := (agreesOnWindows_iff h64 hnames64).mpr ⟨by decide, by decide⟩
  exact ⟨⟨_, h32, by decide, rfl, hagrees32, rfl⟩, _, h64, by decide, rfl, hagrees64, rfl⟩

/-- Texts that end with Windows as the operating system: the target says that it is Windows, and is
given the allocator of another system. -/
theorem exists_not_agreesOnWindows :
    (∃ t, ofText "x86-windows" = .ok t ∧ NamesX86 "x86-windows" ∧ t.isWindows = true ∧
      t.allocator .stdcallOnWindows = .ok .x86Cdecl ∧ ¬t.AgreesOnWindows) ∧
    ∃ t, ofText "x86_64-windows" = .ok t ∧ NamesX86 "x86_64-windows" ∧ t.isWindows = true ∧
      t.allocator .stdcallOnWindows = .ok .x64Unix ∧ ¬t.AgreesOnWindows := by
  have h32 : ofText "x86-windows" = .ok ⟨"x86-windows", .w32, .little⟩ := by decide +kernel
  have h64 : ofText "x86_64-windows" = .ok ⟨"x86_64-windows", .w64, .little⟩ := by decide +kernel
  have hnames32 : NamesX86 "x86-windows" := .inl (by decide +kernel)
  have hnames64 : NamesX86 "x86_64-windows" := .inr (by decide +kernel)
  refine ⟨⟨_, h32, hnames32, rfl, rfl, fun hagrees ↦ ?_⟩, _, h64, hnames64, rfl, rfl,
    fun hagrees ↦ ?_⟩
  · exact absurd (hagrees.mp rfl) (by decide +kernel)
  · exact absurd (hagrees.mp rfl) (by decide +kernel)

end Target

end ForeignCall
