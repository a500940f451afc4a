/-!
# Options and values

Arguments are read from left to right into options and plain values. An option stands as
`--name value`, `--name=value`, `-n value`, `-nvalue` or `-n=value`; after `--` everything is a
plain value. An option is looked up in a level, which says what may stand there, so the same reader
serves the tool as a whole and each of its commands.
-/

namespace ForeignCall.Tool

/-- An option of the tool. -/
inductive Flag where
  | config | logLevel | convention | archOs | lib | help | version
  deriving DecidableEq, Repr

namespace Flag

/-- The name after two dashes. -/
def long : Flag → String
  | config => "config"
  | logLevel => "log-level"
  | convention => "convention"
  | archOs => "arch-os"
  | lib => "lib"
  | help => "help"
  | version => "version"

/-- The letter after one dash. -/
def letter? : Flag → Option Char
  | lib => some 'l'
  | help => some 'h'
  | version => some 'V'
  | config | logLevel | convention | archOs => none

/-- The values of a log level. -/
def levels : List String := ["error", "warn", "info", "debug", "trace"]

/-- Whether the option takes a value, and this is one. -/
def accepts : Flag → String → Bool
  | config, text => text ≠ ""
  | logLevel, text => text ∈ levels
  | convention, _ | archOs, _ | lib, _ => true
  | help, _ | version, _ => false

end Flag

/-- What may stand among the arguments. -/
structure Level where
  flags : List Flag
  /-- How many plain values there may be, if there is a limit. -/
  limit? : Option Nat
  /-- How many plain values must be there before a negative number is one as well, if it ever
  is. -/
  numbersAfter? : Option Nat
  /-- Whether the first plain value is the name of a command, which ends the level. -/
  commands : Bool
  deriving Repr

/-- What ends the reading before its end. -/
inductive Stop where
  /-- The arguments are not those of the tool. -/
  | usage
  /-- Help is asked for. -/
  | help
  /-- The version is asked for. -/
  | version
  deriving DecidableEq, Repr

/-- What has been read. -/
structure Seen where
  /-- Options with their values, in order. -/
  values : List (Flag × String)
  /-- Plain values, in order. -/
  plain : List String
  /-- An option whose value is the next argument. -/
  pending? : Option Flag
  deriving DecidableEq, Repr

namespace Seen

/-- Nothing has been read. -/
def none : Seen := ⟨[], [], Option.none⟩

/-- The values of an option, in order. -/
def all (s : Seen) (flag : Flag) : List String :=
  s.values.filterMap fun (f, text) => if f = flag then some text else Option.none

/-- The value of an option, if it was given. -/
def value? (s : Seen) (flag : Flag) : Option String := (s.all flag).head?

/-- Takes a value for an option. Only a library may be given again. -/
def accept (s : Seen) (flag : Flag) (text : String) : Except Stop Seen :=
  if flag.accepts text ∧ (flag = .lib ∨ s.value? flag = Option.none) then
    .ok { s with values := s.values ++ [(flag, text)], pending? := Option.none }
  else .error .usage

/-- Takes an option, with its value if that is in the same argument. An option that waits for its
value gets none any more. -/
def take (s : Seen) (flag : Flag) (attached? : Option String) : Except Stop Seen :=
  match s.pending?, flag, attached? with
  | some _, _, _ => .error .usage
  | Option.none, .help, Option.none => .error .help
  | Option.none, .version, Option.none => .error .version
  | Option.none, flag, some text => s.accept flag text
  | Option.none, flag, Option.none => .ok { s with pending? := some flag }

/-- Takes a plain value: that of the option that waits for one, or one of its own. -/
def takePlain (level : Level) (s : Seen) (text : String) : Except Stop Seen :=
  match s.pending? with
  | some flag => s.accept flag text
  | Option.none =>
    if level.limit?.all (s.plain.length < ·) then .ok { s with plain := s.plain ++ [text] }
    else .error .usage

end Seen

/-- Whether the characters after a minus sign make a number: digits, a point after the first of
them, and an exponent of digits. -/
def isNumber : List Char → Bool
  | [] => false
  | c :: rest =>
    let mantissa := rest.takeWhile fun c => c ≠ 'e' ∧ c ≠ 'E'
    let exponent := rest.dropWhile fun c => c ≠ 'e' ∧ c ≠ 'E'
    c.isDigit && mantissa.all (fun c => c.isDigit || c = '.')
      && mantissa.countP (· = '.') ≤ 1
      && (exponent.isEmpty || (exponent.length ≠ 1 && exponent.tail.all Char.isDigit))

/-- Takes an option by its name. -/
def takeLong (level : Level) (s : Seen) (text : List Char) : Except Stop Seen :=
  let name := String.ofList (text.takeWhile (· ≠ '='))
  let attached? :=
    match text.dropWhile (· ≠ '=') with
    | _ :: value => some (String.ofList value)
    | [] => none
  match level.flags.find? (·.long = name) with
  | some flag => s.take flag attached?
  | none => .error .usage

/-- Takes an option by its letter. What follows the letter of an option with a value is the value;
what follows any other letter is not looked at. -/
def takeLetter (level : Level) (s : Seen) (letter : Char) (rest : List Char) : Except Stop Seen :=
  match level.flags.find? (·.letter? = some letter) with
  | some .lib =>
    match rest with
    | [] => s.take .lib none
    | '=' :: value => s.take .lib (some (String.ofList value))
    | value => s.take .lib (some (String.ofList value))
  | some flag => s.take flag none
  | none => .error .usage

/-- Takes an argument before any double dash that is not one itself. -/
def takeArgument (level : Level) (s : Seen) (arg : String) : Except Stop Seen :=
  match arg.toList with
  | '-' :: '-' :: text => takeLong level s text
  | '-' :: letter :: rest =>
    if level.numbersAfter?.any (· ≤ s.plain.length) && isNumber (letter :: rest) then
      s.takePlain level arg
    else takeLetter level s letter rest
  | _ => s.takePlain level arg

/-- What a level leaves: what was read in it, and the command it ended with, if any, with the
arguments after it. -/
structure Reading where
  seen : Seen
  command? : Option (String × List String)
  deriving DecidableEq, Repr

/-- The end of a level. No option may wait for a value. -/
def Seen.finish (s : Seen) (command? : Option (String × List String)) : Except Stop Reading :=
  if s.pending?.isSome then .error .usage else .ok ⟨s, command?⟩

/-- Takes the arguments after a double dash. -/
def takeTrailing (level : Level) : Seen → List String → Except Stop Reading
  | s, [] => s.finish none
  | s, arg :: rest =>
    if s.pending?.isSome then .error .usage
    else
      match s.takePlain level arg with
      | .ok s => takeTrailing level s rest
      | .error e => .error e

/-- Reads the arguments of a level. -/
def readLevel (level : Level) : Seen → List String → Except Stop Reading
  | s, [] => s.finish none
  | s, arg :: rest =>
    if arg = "--" then takeTrailing level s rest
    else if level.commands ∧ s.pending? = none ∧ arg.toList.head? ≠ some '-' then
      s.finish (some (arg, rest))
    else
      match takeArgument level s arg with
      | .ok s => readLevel level s rest
      | .error e => .error e

end ForeignCall.Tool
