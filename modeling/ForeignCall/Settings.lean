import ForeignCall.Convention
import ForeignCall.Text.Utf8
import ForeignCall.Toml.Document

/-!
# Settings

The settings of the command line, a TOML document with the sections `abi`, `loader` and `log`. All
of it is optional. Only the keys named here may stand in a document, each with a value of its own
kind; a section may also be an array of its values in the order of its keys, where later items are
not looked at. Values are checked in the order convention, log level, library list.
-/

namespace ForeignCall

/-- How much is logged. -/
inductive LogLevel where
  | off | error | warn | info | debug | trace
  deriving DecidableEq, Repr

namespace LogLevel

/-- Every level once. -/
def all : List LogLevel := [off, error, warn, info, debug, trace]

/-- The name of a level. -/
def name : LogLevel → String
  | off => "OFF"
  | error => "ERROR"
  | warn => "WARN"
  | info => "INFO"
  | debug => "DEBUG"
  | trace => "TRACE"

/-- The level with a name in any case of ASCII letters. -/
def ofName? (text : String) : Option LogLevel :=
  all.find? (·.name = text.map Char.toUpper)

end LogLevel

/-- Errors of settings. -/
inductive SettingsError where
  /-- A file that is missing or not UTF-8. -/
  | unreadable (path : String)
  /-- A text that is no document, or one with other keys or kinds of values. -/
  | malformed
  /-- A convention that is none. -/
  | unknownAttribute (error : UnknownAttribute)
  /-- A log level that is none. -/
  | unknownLevel (text : String)
  /-- A library without a name. -/
  | emptyLibrary
  deriving DecidableEq, Repr

/-- The wording of the error. -/
def SettingsError.message : SettingsError → String
  | unreadable path => s!"Failed to read {path}"
  | malformed => "Failed to parse config: "
  | unknownAttribute e => s!"Invalid config: {e.message}"
  | unknownLevel text => s!"Invalid config: unknown log level '{text}'"
  | emptyLibrary => "Invalid config: loader.search entries cannot be empty"

/-- The settings as written. -/
structure Settings where
  /-- Convention attribute. -/
  convention : Option String
  /-- Target text. -/
  archOs : Option String
  /-- Libraries to search. -/
  search : List String
  /-- Log level. -/
  level : Option String
  deriving DecidableEq, Repr

namespace Settings

open Toml (Item Entries)

/-- The settings of an empty document. -/
def default : Settings := ⟨none, none, [], none⟩

/-- A text value. -/
def text? : Item → Option String
  | .string text => some text
  | _ => none

/-- A list of texts. -/
def texts? : Item → Option (List String)
  | .array items => items.mapM text?
  | _ => none

/-- Puts a value into its place among settings. -/
abbrev Setter := Item → Settings → Option Settings

/-- The keys of a section in order, each with its setter. -/
abbrev Section := List (String × Setter)

/-- The keys of `abi`. -/
def abiSection : Section := [
  ("convention", fun item s => (text? item).map fun t => { s with convention := some t }),
  ("arch_os", fun item s => (text? item).map fun t => { s with archOs := some t })]

/-- The keys of `loader`. -/
def loaderSection : Section := [
  ("search", fun item s => (texts? item).map fun ts => { s with search := ts })]

/-- The keys of `log`. -/
def logSection : Section := [
  ("level", fun item s => (text? item).map fun t => { s with level := some t })]

/-- Sets values by key; a key outside the section is refused. -/
def setByKey (keys : Section) : Entries → Settings → Option Settings
  | [], s => some s
  | (key, item) :: rest, s =>
    match keys.lookup key with
    | some set => (set item s).bind (setByKey keys rest)
    | none => none

/-- Sets values by their order; values beyond the keys are passed over. -/
def setInOrder : Section → List Item → Settings → Option Settings
  | (_, set) :: keys, item :: rest, s => (set item s).bind (setInOrder keys rest)
  | _, _, s => some s

/-- Sets a section, given as a table or as an array. -/
def setSection (keys : Section) : Item → Settings → Option Settings
  | .table _ entries, s => setByKey keys entries s
  | .array items, s => setInOrder keys items s
  | _, _ => none

/-- The sections of a document. -/
def sections : Section := [
  ("abi", setSection abiSection),
  ("loader", setSection loaderSection),
  ("log", setSection logSection)]

/-- The attribute the settings ask for. -/
def conventionAttr (s : Settings) : Except SettingsError Attribute :=
  match s.convention with
  | none => .ok .plain
  | some text => (Attribute.ofKeyword text).mapError .unknownAttribute

/-- The log level the settings ask for. -/
def logLevel (s : Settings) : Except SettingsError (Option LogLevel) :=
  match s.level with
  | none => .ok none
  | some text =>
    match LogLevel.ofName? text with
    | some level => .ok (some level)
    | none => .error (.unknownLevel text)

/-- Checks the values. -/
def check (s : Settings) : Except SettingsError Unit :=
  match s.conventionAttr with
  | .error e => .error e
  | .ok _ =>
    match s.logLevel with
    | .error e => .error e
    | .ok _ => if s.search.any (· = "") then .error .emptyLibrary else .ok ()

/-- Reads and checks settings. -/
def parse (text : String) : Except SettingsError Settings :=
  match (Toml.document? text).bind fun entries => setByKey sections entries default with
  | none => .error .malformed
  | some s => s.check.map fun () => s

/-- Reads the settings in a file with the given bytes, if there is one. -/
def ofFile (path : String) (bytes? : Option (List UInt8)) : Except SettingsError Settings :=
  match bytes?.bind Text.Utf8.decode? with
  | none => .error (.unreadable path)
  | some cs => parse (String.ofList cs)

/-- Accepted settings passed every check. -/
theorem check_of_parse {text : String} {s : Settings} (h : parse text = .ok s) :
    s.check = .ok () := by
  unfold parse at h
  split at h
  · cases h
  · rename_i t _
    cases hc : t.check with
    | error e => simp [hc, Except.map] at h
    | ok u =>
      simp only [hc, Except.map] at h
      cases h
      exact hc

end Settings

end ForeignCall
