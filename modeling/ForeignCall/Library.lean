import ForeignCall.Code
import ForeignCall.Text.Quoted

/-!
# Libraries

Opening libraries by name, looking up symbols and binding them. What the system can open and find
is a parameter, a `Loader`, and so are its reasons where it cannot; names with a zero byte never
reach it. Of several candidates the first
that opens is taken, and if none does, all of them are reported in order. Opening is an action of
any kind, so that it shows which names the system is asked about.
-/

namespace ForeignCall

/-- The answers of the system about libraries and symbols, with its reason where it has to refuse.
Without a name the running process itself is meant. -/
structure Loader where
  /-- Opens a library. -/
  opens : Option String → Except String Unit
  /-- Looks up the address of a symbol in an open library. -/
  address : Option String → String → Except String CodeAddress

/-- An open library, or the running process. -/
structure Library where
  name? : Option String
  deriving DecidableEq, Repr

/-- The byte position of the first zero byte of a text. -/
def nulPosition? (text : String) : Option Nat :=
  (Text.Utf8.encode text.toList).findIdx? (· = 0)

/-- Refuses a name that the system cannot be asked about. -/
def checkName (name : String) : Except LoadError Unit :=
  match nulPosition? name with
  | some position => .error (.invalidName (Text.Quoted.ofString name) position)
  | none => .ok ()

namespace Library

/-- The path of the library. -/
def path (l : Library) : String := l.name?.getD "<process>"

/-- The library in diagnostics. -/
def text (l : Library) : String :=
  "Library \x7b path: " ++ Text.Quoted.ofString l.path ++ " \x7d"

section Actions

variable {m : Type → Type} [Monad m] (opens : Option String → m (Except String Unit))

/-- Opens a library by name, where asking the system to open one is an action. A name that the
system cannot be asked about is refused without it. -/
def openNamedM (name : String) : m (Except LoadError Library) :=
  match checkName name with
  | .error e => pure (.error e)
  | .ok () => do
    match ← opens (some name) with
    | .ok () => pure (.ok ⟨some name⟩)
    | .error reason => pure (.error (.notFound s!"{name}: {reason}"))

/-- Opens the running process, where asking the system for it is an action. -/
def openProcessM : m (Except LoadError Library) := do
  match ← opens none with
  | .ok () => pure (.ok ⟨none⟩)
  | .error reason => pure (.error (.notFound s!"<process>: {reason}"))

/-- Tries candidates in order after others that did not open. -/
def openAfterM (tried : List String) : List String → m (Except LoadError Library)
  | [] => pure (.error (.noCandidate tried))
  | name :: rest => do
    match ← openNamedM opens name with
    | .ok l => pure (.ok l)
    | .error _ => openAfterM (tried ++ [name]) rest

/-- Opens the first candidate that opens. -/
def openFirstM (candidates : List String) : m (Except LoadError Library) :=
  openAfterM opens [] candidates

end Actions

/-- Opens a library by name. -/
def openNamed (loader : Loader) (name : String) : Except LoadError Library :=
  Id.run (openNamedM (fun name? => pure (loader.opens name?)) name)

/-- Opens a library by a path of bytes, which must be UTF-8. -/
def openPath (loader : Loader) (path : List UInt8) : Except LoadError Library :=
  match Text.Utf8.decode? path with
  | some name => openNamed loader (String.ofList name)
  | none => .error (.invalidPath (Text.Quoted.ofBytes path))

/-- The running process and everything it has loaded. -/
def openProcess (loader : Loader) : Except LoadError Library :=
  Id.run (openProcessM fun name? => pure (loader.opens name?))

/-- Opens the first candidate that opens. -/
def openFirst (loader : Loader) (candidates : List String) : Except LoadError Library :=
  Id.run (openFirstM (fun name? => pure (loader.opens name?)) candidates)

/-- The address of a symbol. -/
def symbol (l : Library) (loader : Loader) (name : String) : Except LoadError CodeAddress :=
  match checkName name with
  | .error e => .error e
  | .ok () =>
    match loader.address l.name? name with
    | .ok address => .ok address
    | .error reason => .error (.symbolNotFound name s!"{l.path}: {reason}")

/-- Looks up a symbol and compiles a signature for it; the invoker gets the identity it is
given. -/
def bind (l : Library) (loader : Loader) (name : String) (key : CacheKey) (identity : Nat) :
    Except Failure BoundFunction :=
  match l.symbol loader name with
  | .error e => .error (.loading e)
  | .ok code =>
    match key.compile with
    | .error e => .error e
    | .ok inv => .ok ⟨code, ⟨identity, inv⟩⟩

/-- Looks up a symbol and takes the invoker for it from a cache. -/
def bindCached (l : Library) (loader : Loader) (name : String) (key : CacheKey) (cache : Cache) :
    Except Failure BoundFunction × Cache :=
  match l.symbol loader name with
  | .error e => (.error (.loading e), cache)
  | .ok code =>
    match cache.get key with
    | (.error e, cache) => (.error e, cache)
    | (.ok shared, cache) => (.ok ⟨code, shared⟩, cache)

end Library

end ForeignCall
