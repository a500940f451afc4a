import ForeignCall.Tool.Program

/-!
# The tool

Reads the settings file and the environment, runs the tool in a Linux process with the C library,
prints and ends with the exit code.
-/

namespace ForeignCall.Tool

/-- The bytes of a file, if it can be read. -/
def readFile? (path : String) : IO (Option (List UInt8)) := do
  try
    return some (← IO.FS.readBinFile path).toList
  catch _ =>
    return none

/-- Prints how a run has ended and gives its exit code. -/
def report (ending : Ending) : IO UInt32 := do
  IO.print ending.stdout
  match ending.error? with
  | some text => IO.eprint ("Error: " ++ text)
  | none => pure ()
  return UInt32.ofNat ending.code

/-- Runs the tool on the file system and the environment of the process. -/
def runProcess (args : List String) : IO UInt32 := do
  let path :=
    match readCommandLine args with
    | .ok i => i.settingsPath
    | .error _ => ""
  let file? ← readFile? path
  let logVariable ← IO.getEnv "UNA_LOG"
  report (run Host.linux (fun name => if name = path then file? else none) logVariable args)

end ForeignCall.Tool

/-- Entry point of the tool. -/
def main (args : List String) : IO UInt32 := ForeignCall.Tool.runProcess args
