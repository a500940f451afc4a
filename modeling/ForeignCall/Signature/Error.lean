/-!
# Signature errors

What can be wrong with a signature text or with the parts of a prototype. Each cause is a
constructor; the wording is in `SignatureError.message` alone.
-/

namespace ForeignCall

/-- How far a reader of signatures has come. -/
inductive Stage where
  /-- The result letter is next. -/
  | result
  /-- The result letter has been read, the opening parenthesis is next. -/
  | ready
  /-- Inside the parentheses. -/
  | arguments
  /-- After the closing parenthesis; nothing may follow. -/
  | finished
  deriving DecidableEq, Repr

/-- The stage in diagnostics. -/
def Stage.name : Stage → String
  | result => "RETURN"
  | ready => "AREADY"
  | arguments => "ARGS"
  | finished => "END"

/-- Errors about signatures and prototypes. -/
inductive SignatureError where
  /-- A character that its stage does not allow. -/
  | unexpected (signature : String) (found : Char) (stage : Stage)
  /-- A second variadic marker. -/
  | secondMarker (signature : String)
  /-- The text ends before the closing parenthesis. -/
  | incomplete (signature : String) (stage : Stage)
  /-- A letter that stands for no type. -/
  | unknownLetter (letter : Char)
  /-- A variadic index beyond the end of the argument list. -/
  | markerOutOfRange (index count : Nat)
  deriving DecidableEq, Repr

/-- The wording of the error. -/
def SignatureError.message : SignatureError → String
  | unexpected signature found stage =>
    s!"signature \"{signature}\": '{found}' is not allowed in {stage.name} stage"
  | secondMarker signature => s!"signature \"{signature}\": '|' can only be used once"
  | incomplete signature stage =>
    s!"signature \"{signature}\": incomplete, ended in {stage.name} stage"
  | unknownLetter letter => s!"unknown type specifier '{letter}'"
  | markerOutOfRange index count =>
    s!"variadic index {index} out of range for {count} arguments"

end ForeignCall
