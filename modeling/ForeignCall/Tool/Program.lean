import ForeignCall.Tool.CommandLine
import ForeignCall.Tool.Overview

/-!
# The program

A whole run of the tool, from the command line to what it prints. The settings are read before the
command starts; a settings file has to be there only if it was named.
-/

namespace ForeignCall.Tool

namespace Invocation

/-- The file the settings are read from. -/
def settingsPath (i : Invocation) : String := i.config?.getD "una.toml"

/-- The settings, from the bytes of their file if it is there. -/
def settings (i : Invocation) (file? : Option (List UInt8)) : Except SettingsError Settings :=
  if i.config? = none ∧ file? = none then .ok .default
  else Settings.ofFile i.settingsPath file?

/-- Runs the command of a command line. -/
def run (i : Invocation) (host : Host) (logVariable : Option String)
    (file? : Option (List UInt8)) : Outcome :=
  match i.settings file? with
  | .error e => ⟨"", some (.settings e)⟩
  | .ok settings =>
    match i.command with
    | .info => showOverview host.target settings logVariable
    | .selfTest => checkProcess host
    | .compile request => showLayout host.target settings request
    | .call request => callFunction host settings request

end Invocation

/-- How a run ends. -/
inductive Ending where
  /-- The arguments are not those of the tool. -/
  | usage
  /-- A text was asked for instead of a command. -/
  | shown (text : String)
  /-- A command ran. -/
  | ran (outcome : Outcome)
  deriving DecidableEq, Repr

namespace Ending

/-- The exit code. -/
def code : Ending → Nat
  | usage => 2
  | shown _ => 0
  | ran outcome => if outcome.error?.isSome then 1 else 0

/-- The printed text. -/
def stdout : Ending → String
  | usage => ""
  | shown text => text
  | ran outcome => outcome.stdout

/-- The error, as printed. -/
def error? : Ending → Option String
  | usage | shown _ => none
  | ran outcome => outcome.error?.map fun e => printChain e.chain

end Ending

/-- The help of the tool. -/
def helpText : String := String.join [
  "Usage: una [OPTIONS] <COMMAND>\n\n",
  "Commands:\n",
  "  info      Show the process and its conventions\n",
  "  selftest  Run the self-test\n",
  "  compile   Show the layout of a call\n",
  "  call      Call a native function\n\n",
  "Options:\n",
  "      --config <FILE>      Settings file\n",
  "      --log-level <LEVEL>  Log level\n",
  "  -h, --help               Print help\n",
  "  -V, --version            Print version\n"]

/-- Runs the tool. -/
def run (host : Host) (files : String → Option (List UInt8)) (logVariable : Option String)
    (args : List String) : Ending :=
  match readCommandLine args with
  | .error .usage => .usage
  | .error .help => .shown helpText
  | .error .version => .shown s!"una {version}\n"
  | .ok i => .ran (i.run host logVariable (files i.settingsPath))

end ForeignCall.Tool
