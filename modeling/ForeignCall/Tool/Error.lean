import ForeignCall.Failure
import ForeignCall.Settings
import ForeignCall.Tool.Argument

/-!
# Errors of the command line

An error is a chain of texts: what was being done, and what went wrong in it. The chain is printed
with the first text on its own and the others as causes, numbered if there is more than one.
-/

namespace ForeignCall.Tool

/-- What ends a command. -/
inductive Error where
  | settings (error : SettingsError)
  | unknownAttribute (error : UnknownAttribute)
  | failure (error : Failure)
  /-- Another number of arguments than the signature has. -/
  | arity (signature : String) (expected given : Nat)
  /-- An argument that is none, by its index. -/
  | argument (index : Nat) (error : ArgumentError)
  deriving DecidableEq, Repr

/-- The error and its causes, outermost first. -/
def Error.chain : Error → List String
  | settings e => [e.message]
  | unknownAttribute e => [e.message]
  | failure e => [e.message]
  | arity signature expected given =>
    [s!"{signature} takes {expected} arguments, {given} given"]
  | argument index e => s!"argument {index}" :: e.chain

/-- A text whose lines after the first are indented. -/
def hanging (indent : List Char) : List Char → List Char
  | [] => []
  | '\n' :: rest => '\n' :: indent ++ hanging indent rest
  | c :: rest => c :: hanging indent rest

/-- Causes with their numbers, each on a line of its own. -/
def numberedCauses : Nat → List String → List Char
  | _, [] => []
  | n, text :: rest =>
    let number := Text.decimal n
    '\n' :: List.replicate (5 - number.length) ' ' ++ number ++ ':' :: ' ' ::
      hanging (List.replicate 7 ' ') text.toList ++ numberedCauses (n + 1) rest

/-- The printed form of a chain. -/
def printChain : List String → String
  | [] => "\n"
  | [text] => text ++ "\n"
  | [text, cause] =>
    let indent := List.replicate 4 ' '
    text ++ "\n\nCaused by:\n" ++ String.ofList (indent ++ hanging indent cause.toList) ++ "\n"
  | text :: causes =>
    text ++ "\n\nCaused by:" ++ String.ofList (numberedCauses 0 causes) ++ "\n"

/-- What a command leaves: the text it has printed, and the error that ended it, if one did. -/
structure Outcome where
  stdout : String
  error? : Option Error
  deriving DecidableEq, Repr

/-- The outcome of a command that prints only at its end. -/
def Outcome.ofExcept : Except Error String → Outcome
  | .ok text => ⟨text, none⟩
  | .error e => ⟨"", some e⟩

end ForeignCall.Tool
