import ForeignCall.Proofs.Text.Utf8
import ForeignCall.Tool.Call

/-!
# Searching for a library

Of several names the first that can be opened is taken. A name with a zero byte cannot be, and it is
passed over like one the system does not find: the search goes on with the next name, and if there
is none left, all of them are reported. The system is not asked about any name behind the one that
opens. A call searches one list of names only, whatever comes of it.
-/

namespace ForeignCall

namespace Loader

/-- Whether a library can be opened by a name: the system can be asked about it and finds it. -/
def CanOpen (loader : Loader) (name : String) : Prop :=
  '\x00' ∉ name.toList ∧ loader.opens (some name) = .ok ()

/-- Whether the system opens a library is found out by asking. -/
instance (loader : Loader) (name? : Option String) : Decidable (loader.opens name? = .ok ()) :=
  match loader.opens name? with
  | .ok () => isTrue rfl
  | .error _ => isFalse nofun

/-- Whether a library can be opened by a name is decided by looking for zero bytes and asking. -/
instance (loader : Loader) (name : String) : Decidable (loader.CanOpen name) :=
  inferInstanceAs (Decidable (_ ∧ _))

/-- The answers of a loader, with a note of everything it is asked about. -/
def noted (loader : Loader) (name? : Option String) :
    StateM (List (Option String)) (Except String Unit) := do
  modify (· ++ [name?])
  return loader.opens name?

/-- What the system is asked about when names are tried in order: those without a zero byte. -/
def asks (names : List String) : List (Option String) :=
  (names.filter ('\x00' ∉ ·.toList)).map some

/-- What comes of a search among candidates, together with what the system is asked about. Either
the first candidate that can be opened is, and the candidates up to it have been tried, or none can
be opened and all have been tried. -/
inductive Searched (loader : Loader) (candidates : List String) :
    Except LoadError Library × List (Option String) → Prop where
  | found (before : List String) (name : String) (after : List String)
      (hsplit : candidates = before ++ name :: after)
      (hbefore : ∀ n ∈ before, ¬loader.CanOpen n) (hname : loader.CanOpen name) :
      Searched loader candidates (.ok ⟨some name⟩, asks (before ++ [name]))
  | failed (hnone : ∀ n ∈ candidates, ¬loader.CanOpen n) :
      Searched loader candidates (.error (.noCandidate candidates), asks candidates)

/-- What follows a question goes on with its answer and the note of it. -/
theorem run_noted_bind {α : Type} (loader : Loader) (name? : Option String)
    (f : Except String Unit → StateM (List (Option String)) α) (asked : List (Option String)) :
    (loader.noted name? >>= f).run asked = (f (loader.opens name?)).run (asked ++ [name?]) := rfl

/-- Without names the system is asked about nothing. -/
theorem asks_nil : asks [] = [] := rfl

/-- What the system is asked about does not depend on the names before. -/
theorem asks_append (names more : List String) :
    asks (names ++ more) = asks names ++ asks more := by
  rw [asks, List.filter_append, List.map_append]
  rfl

/-- The system is not asked about a name with a zero byte. -/
theorem asks_cons_of_nul {name : String} (h : '\x00' ∈ name.toList) (names : List String) :
    asks (name :: names) = asks names := by
  rw [asks, List.filter_cons_of_neg (by simpa using h)]
  rfl

/-- It is asked about any other name. -/
theorem asks_cons_of_not_nul {name : String} (h : '\x00' ∉ name.toList) (names : List String) :
    asks (name :: names) = some name :: asks names := by
  rw [asks, List.filter_cons_of_pos (by simpa using h)]
  rfl

end Loader

/-- A name without a zero byte passes. -/
theorem checkName_of_not_nul {name : String} (h : '\x00' ∉ name.toList) :
    checkName name = .ok () := by
  rw [checkName, nulPosition?, Text.Utf8.findIdx?_zero_eq_none h]

/-- A name with a zero byte is refused. -/
theorem exists_checkName_eq_error {name : String} (h : '\x00' ∈ name.toList) :
    ∃ e, checkName name = .error e := by
  obtain ⟨before, after, hsplit, hbefore⟩ := List.eq_append_cons_of_mem h
  rw [checkName, nulPosition?, hsplit, Text.Utf8.findIdx?_zero_append hbefore]
  exact ⟨_, rfl⟩

namespace Library

variable {loader : Loader} {name : String} {tried names rest : List String}
  {asked : List (Option String)}

/-! ### One candidate -/

section Actions

variable {m : Type → Type} [Monad m] [LawfulMonad m] (opens : Option String → m (Except String Unit))

/-- A candidate with a zero byte is passed over, and the system is not asked about it. -/
theorem openAfterM_cons_of_nul (h : '\x00' ∈ name.toList) :
    openAfterM opens tried (name :: rest) = openAfterM opens (tried ++ [name]) rest := by
  obtain ⟨e, he⟩ := exists_checkName_eq_error h
  simp only [openAfterM, openNamedM, he, pure_bind]

/-- About any other candidate the system is asked; if it does not open, the next ones are tried. -/
theorem openAfterM_cons_of_not_nul (h : '\x00' ∉ name.toList) :
    openAfterM opens tried (name :: rest) = (do
      match ← opens (some name) with
      | .ok () => pure (.ok ⟨some name⟩)
      | .error _ => openAfterM opens (tried ++ [name]) rest) := by
  simp only [openAfterM, openNamedM, checkName_of_not_nul h, bind_assoc]
  refine bind_congr fun opened ↦ ?_
  cases opened <;> simp only [pure_bind]

end Actions

/-- A candidate that can be opened ends a search. -/
theorem run_openAfterM_of_canOpen (h : loader.CanOpen name) :
    (openAfterM loader.noted tried (name :: rest)).run asked =
      (.ok ⟨some name⟩, asked ++ Loader.asks [name]) := by
  rw [openAfterM_cons_of_not_nul _ h.1, Loader.run_noted_bind, h.2, Loader.asks_cons_of_not_nul h.1]
  rfl

/-- After any other candidate the search goes on. -/
theorem run_openAfterM_of_not_canOpen (h : ¬loader.CanOpen name) :
    (openAfterM loader.noted tried (name :: rest)).run asked =
      (openAfterM loader.noted (tried ++ [name]) rest).run (asked ++ Loader.asks [name]) := by
  by_cases hnul : '\x00' ∈ name.toList
  · rw [openAfterM_cons_of_nul _ hnul, Loader.asks_cons_of_nul hnul]
    simp [Loader.asks]
  · rw [openAfterM_cons_of_not_nul _ hnul, Loader.run_noted_bind, Loader.asks_cons_of_not_nul hnul]
    cases hanswer : loader.opens (some name) with
    | ok => exact absurd ⟨hnul, hanswer⟩ h
    | error reason => rfl

/-! ### All candidates -/

/-- Candidates that cannot be opened are all tried. -/
theorem run_openAfterM_append (h : ∀ n ∈ names, ¬loader.CanOpen n) :
    (openAfterM loader.noted tried (names ++ rest)).run asked =
      (openAfterM loader.noted (tried ++ names) rest).run (asked ++ Loader.asks names) := by
  induction names generalizing tried asked with
  | nil => rw [List.nil_append, List.append_nil, Loader.asks_nil, List.append_nil]
  | cons name names ih =>
    obtain ⟨hname, hnames⟩ := List.forall_mem_cons.mp h
    rw [List.cons_append, run_openAfterM_of_not_canOpen hname, ih hnames, List.append_assoc,
      List.append_assoc, List.singleton_append, ← Loader.asks_append, List.singleton_append]

/-- A search among candidates opens the first it can, or reports them all. -/
theorem searched_openFirstM (loader : Loader) (candidates : List String) :
    loader.Searched candidates ((openFirstM loader.noted candidates).run []) := by
  cases hfind : candidates.find? (loader.CanOpen ·) with
  | none =>
    have hnone : ∀ n ∈ candidates, ¬loader.CanOpen n := by simpa using hfind
    have hrun : (openAfterM loader.noted [] (candidates ++ [])).run [] = _ :=
      run_openAfterM_append hnone
    rw [List.append_nil] at hrun
    rw [openFirstM, hrun]
    exact .failed hnone
  | some name =>
    obtain ⟨hname, before, after, hsplit, hbefore⟩ := List.find?_eq_some_iff_append.mp hfind
    have hname : loader.CanOpen name := by simpa using hname
    have hbefore : ∀ n ∈ before, ¬loader.CanOpen n := by simpa using hbefore
    rw [openFirstM, hsplit, run_openAfterM_append hbefore, run_openAfterM_of_canOpen hname,
      List.nil_append, ← Loader.asks_append]
    exact .found before name after rfl hbefore hname

/-! ### Results without notes -/

/-- Taking notes does not change what comes of a search. -/
theorem fst_run_openAfterM (loader : Loader) (tried names : List String)
    (asked : List (Option String)) :
    ((openAfterM loader.noted tried names).run asked).1 =
      Id.run (openAfterM (fun name? ↦ pure (loader.opens name?)) tried names) := by
  induction names generalizing tried asked with
  | nil => rfl
  | cons name names ih =>
    by_cases hnul : '\x00' ∈ name.toList
    · rw [openAfterM_cons_of_nul _ hnul, openAfterM_cons_of_nul _ hnul, ih]
    · rw [openAfterM_cons_of_not_nul _ hnul, openAfterM_cons_of_not_nul _ hnul,
        Loader.run_noted_bind, pure_bind]
      cases loader.opens (some name) with
      | ok => rfl
      | error reason => exact ih _ _

/-- A search is what a search with notes comes to. -/
theorem fst_run_openFirstM (loader : Loader) (candidates : List String) :
    ((openFirstM loader.noted candidates).run []).1 = openFirst loader candidates :=
  fst_run_openAfterM loader [] candidates []

/-- The system is asked for the running process alone. -/
theorem run_openProcessM (loader : Loader) :
    (openProcessM loader.noted).run [] = (openProcess loader, [none]) := by
  rw [openProcess, openProcessM, openProcessM, Loader.run_noted_bind, pure_bind]
  cases loader.opens none <;> rfl

/-- The running process is opened if the system gives it, and the reason is reported if not. -/
theorem openProcess_eq (loader : Loader) :
    openProcess loader =
      match loader.opens none with
      | .ok () => .ok ⟨none⟩
      | .error reason => .error (.notFound s!"<process>: {reason}") := by
  rw [openProcess, openProcessM, pure_bind]
  cases loader.opens none <;> rfl

end Library

/-! ### The library of a call -/

namespace Tool

variable {m : Type → Type} [Monad m] (opens : Option String → m (Except String Unit))
  {settings : Settings} {libs : List String}

/-- Libraries on the command line are searched first. -/
theorem openLibraryM_of_libs (settings : Settings) (h : libs ≠ []) :
    openLibraryM opens settings libs = Library.openFirstM opens libs :=
  if_pos h

/-- Without them the ones in the settings are. -/
theorem openLibraryM_of_search (h : settings.search ≠ []) :
    openLibraryM opens settings [] = Library.openFirstM opens settings.search :=
  (if_neg fun hlibs ↦ hlibs rfl).trans (if_pos h)

/-- Without either the running process is opened. -/
theorem openLibraryM_of_neither (h : settings.search = []) :
    openLibraryM opens settings [] = Library.openProcessM opens :=
  (if_neg fun hlibs ↦ hlibs rfl).trans (if_neg fun hsearch ↦ hsearch h)

/-- Taking notes does not change what comes of the search for the library of a call. -/
theorem fst_run_openLibraryM (loader : Loader) (settings : Settings) (libs : List String) :
    ((openLibraryM loader.noted settings libs).run []).1 = openLibrary loader settings libs := by
  rw [openLibrary]
  by_cases hlibs : libs = []
  · subst hlibs
    by_cases hsearch : settings.search = []
    · rw [openLibraryM_of_neither _ hsearch, openLibraryM_of_neither _ hsearch,
        Library.run_openProcessM]
      rfl
    · rw [openLibraryM_of_search _ hsearch, openLibraryM_of_search _ hsearch]
      exact Library.fst_run_openFirstM loader settings.search
  · rw [openLibraryM_of_libs _ _ hlibs, openLibraryM_of_libs _ _ hlibs]
    exact Library.fst_run_openFirstM loader libs

end Tool

namespace Loader

open Library Tool

/-- Of any candidates, the earliest that the system can be asked about and finds is opened, and the
system is asked about none behind it; if there is none, all candidates are reported in order, those
with a zero byte like the others. The library of a call is searched among the names on the command
line alone if there are any, else among those in the settings alone if there are any, and it is the
process itself if there are neither. -/
theorem search_opens_earliest (loader : Loader) (settings : Settings)
    (libs candidates : List String) :
    ((openFirstM loader.noted candidates).run []).1 = openFirst loader candidates ∧
    loader.Searched candidates ((openFirstM loader.noted candidates).run []) ∧
    (∀ l, openFirst loader candidates = .ok l → ∃ before after,
      candidates = before ++ l.path :: after ∧ loader.CanOpen l.path ∧
        ∀ n ∈ before, ¬loader.CanOpen n) ∧
    ((openLibraryM loader.noted settings libs).run []).1 = openLibrary loader settings libs ∧
    (libs ≠ [] → loader.Searched libs ((openLibraryM loader.noted settings libs).run [])) ∧
    (libs = [] → settings.search ≠ [] →
      loader.Searched settings.search ((openLibraryM loader.noted settings libs).run [])) ∧
    (libs = [] → settings.search = [] → (openLibraryM loader.noted settings libs).run [] =
      (match loader.opens none with
        | .ok () => .ok ⟨none⟩
        | .error reason => .error (.notFound s!"<process>: {reason}"), [none])) := by
  have hfirst := fst_run_openFirstM loader candidates
  have hsearched := searched_openFirstM loader candidates
  refine ⟨hfirst, hsearched, ?_, fst_run_openLibraryM loader settings libs, ?_, ?_, ?_⟩
  · intro l hl
    rw [hl] at hfirst
    generalize (openFirstM loader.noted candidates).run [] = outcome at hfirst hsearched
    cases hsearched with
    | found before name after hsplit hbefore hname =>
      cases hfirst
      exact ⟨before, after, hsplit, hname, hbefore⟩
    | failed hnone => cases hfirst
  · intro hlibs
    rw [openLibraryM_of_libs _ _ hlibs]
    exact searched_openFirstM loader libs
  · rintro rfl hsearch
    rw [openLibraryM_of_search _ hsearch]
    exact searched_openFirstM loader settings.search
  · rintro rfl hsearch
    rw [openLibraryM_of_neither _ hsearch, run_openProcessM, openProcess_eq]

/-- A loader that finds two libraries and the process. -/
def twoLibraries : Loader where
  opens name? :=
    if name? ∈ [none, some "b", some "c"] then .ok () else .error "cannot open shared object file"
  address _ name := .error ("undefined symbol: " ++ name)

/-- Of names among which one has a zero byte, one is empty and one occurs twice, the earliest that
is found is opened. None of the names on the command line is found, and neither the one in the
settings nor the process is tried. -/
theorem search_opens_earliest_two :
    (openFirstM twoLibraries.noted ["b\x00", "", "a", "b", "c", "b"]).run [] =
      (.ok ⟨some "b"⟩, [some "", some "a", some "b"]) ∧
    twoLibraries.Searched ["b\x00", "", "a", "b", "c", "b"]
      ((openFirstM twoLibraries.noted ["b\x00", "", "a", "b", "c", "b"]).run []) ∧
    ["a", "b\x00", "a"] ≠ [] ∧
    twoLibraries.Searched ["a", "b\x00", "a"]
      ((openLibraryM twoLibraries.noted { Settings.default with search := ["b"] }
        ["a", "b\x00", "a"]).run []) ∧
    (openLibraryM twoLibraries.noted { Settings.default with search := ["b"] }
      ["a", "b\x00", "a"]).run [] =
        (.error (.noCandidate ["a", "b\x00", "a"]), [some "a", some "a"]) := by
  obtain ⟨-, hfound, -, -, hfailed, -, -⟩ := search_opens_earliest twoLibraries
    { Settings.default with search := ["b"] } ["a", "b\x00", "a"] ["b\x00", "", "a", "b", "c", "b"]
  exact ⟨rfl, hfound, by decide, hfailed (by decide), rfl⟩

end Loader

end ForeignCall
