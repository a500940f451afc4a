import ForeignCall.Target
import ForeignCall.Tool.Error

/-!
# Flags before settings

What a command works with where it can be given on the command line and in the settings: the
command line wins, and without either the process itself, as it has been detected, and the plain
attribute are taken.
-/

namespace ForeignCall.Tool

/-- The target of a command. -/
def resolveTarget (detected : Target) (settings : Settings) (flag : Option String) :
    Except Error Target :=
  (detected.resolve (flag.or settings.archOs)).mapError fun e => .failure (.target e)

/-- The convention attribute of a command. -/
def resolveAttribute (settings : Settings) (flag : Option String) : Except Error Attribute :=
  match flag with
  | some text => (Attribute.ofKeyword text).mapError .unknownAttribute
  | none => settings.conventionAttr.mapError .settings

end ForeignCall.Tool
