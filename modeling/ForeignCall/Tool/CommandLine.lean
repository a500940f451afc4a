import ForeignCall.Tool.Call
import ForeignCall.Tool.Layout
import ForeignCall.Tool.Options

/-!
# The command line

The command line is read in two levels: the options of the tool up to the name of a command, then
the options and values of the command. The settings file and the log level may be given in either,
and the command has the last word.
-/

namespace ForeignCall.Tool

/-- A command with everything it needs. -/
inductive Command where
  | info
  | selfTest
  | compile (request : LayoutRequest)
  | call (request : CallRequest)
  deriving DecidableEq, Repr

/-- A command line that was read. -/
structure Invocation where
  /-- The settings file, if one is named. -/
  config? : Option String
  /-- The log level, if one is named. -/
  logLevel? : Option String
  command : Command
  deriving DecidableEq, Repr

namespace Level

/-- Options that may stand anywhere. -/
def common : List Flag := [.config, .logLevel, .help]

/-- The level of the tool itself. -/
def tool : Level := ⟨.version :: common, some 0, none, true⟩

/-- The level of a command without values of its own. -/
def bare : Level := ⟨common, some 0, none, false⟩

/-- The level of `compile`. -/
def compile : Level := ⟨[.convention, .archOs] ++ common, some 1, none, false⟩

/-- The level of `call`. -/
def call : Level := ⟨[.lib, .convention] ++ common, none, some 2, false⟩

/-- The level of a command by its name. -/
def ofCommand? : String → Option Level
  | "info" => some bare
  | "selftest" => some bare
  | "compile" => some compile
  | "call" => some call
  | _ => none

end Level

/-- The command of a name, from what was read after it. -/
def commandOf (name : String) (s : Seen) : Option Command :=
  match name, s.plain with
  | "info", [] => some .info
  | "selftest", [] => some .selfTest
  | "compile", [signature] =>
    some (.compile ⟨signature, s.value? .convention, s.value? .archOs⟩)
  | "call", symbol :: signature :: args =>
    some (.call ⟨symbol, signature, args, s.all .lib, s.value? .convention⟩)
  | _, _ => none

/-- What follows the name `help`: nothing or the name of a command. -/
def readHelp : List String → Stop
  | [] => .help
  | [name] => if name = "help" ∨ (Level.ofCommand? name).isSome then .help else .usage
  | _ => .usage

/-- Reads a command after the options before it. -/
def readCommand (before : Seen) (name : String) (args : List String) : Except Stop Invocation :=
  match Level.ofCommand? name with
  | none => .error (if name = "help" then readHelp args else .usage)
  | some level =>
    match readLevel level .none args with
    | .error e => .error e
    | .ok ⟨s, _⟩ =>
      match commandOf name s with
      | none => .error .usage
      | some command =>
        .ok ⟨(s.value? .config).or (before.value? .config),
          (s.value? .logLevel).or (before.value? .logLevel), command⟩

/-- Reads a command line. -/
def readCommandLine (args : List String) : Except Stop Invocation :=
  match readLevel .tool .none args with
  | .error e => .error e
  | .ok ⟨_, none⟩ => .error .usage
  | .ok ⟨before, some (name, rest)⟩ => readCommand before name rest

end ForeignCall.Tool
