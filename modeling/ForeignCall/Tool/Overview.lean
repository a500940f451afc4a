import ForeignCall.Text.Padding
import ForeignCall.Tool.Resolve

/-!
# The overview

What the tool knows about the target: its word size and byte order, the allocator each attribute
stands for, the library search list and the environment.
-/

namespace ForeignCall.Tool

/-- The version of the tool. -/
def version : String := "0.2.0"

/-- The line of an attribute. -/
def attributeLine (target : Target) (attr : Attribute) : String :=
  "  " ++ Text.padRight 20 attr.keyword ++ " " ++
    match target.allocator attr with
    | .ok a =>
      s!"{a.convention.name} ({a.generalCount} GP, {a.floatCount} FP, {a.policy.name})"
    | .error e => s!"unavailable: {e.message}"

/-- The lines about a target, the settings and the environment. -/
def overviewLines (settings : Settings) (target : Target) (logVariable : Option String) :
    List String :=
  let order :=
    match target.order with
    | .little => "little"
    | .big => "big"
  let search :=
    if settings.search = [] then []
    else "" :: "Library search:" :: settings.search.map ("  " ++ ·)
  let log :=
    match logVariable with
    | some text => s!"  UNA_LOG = {text}"
    | none => "  UNA_LOG   (not set)"
  [s!"Arch/OS:      {target.archOs}",
    s!"Word size:    {target.wordSize.bits}-bit",
    s!"Byte order:   {order}-endian",
    "",
    "Conventions:"] ++ Attribute.all.map (attributeLine target) ++ search
    ++ ["", "Environment:", log]

/-- Shows the overview. The heading is printed before the target is known. -/
def showOverview (detected : Target) (settings : Settings) (logVariable : Option String) :
    Outcome :=
  let heading := s!"UNA v{version}\n\n"
  match resolveTarget detected settings none with
  | .error e => ⟨heading, some e⟩
  | .ok target =>
    ⟨heading ++ String.join ((overviewLines settings target logVariable).map (· ++ "\n")), none⟩

end ForeignCall.Tool
