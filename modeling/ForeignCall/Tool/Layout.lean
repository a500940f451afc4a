import ForeignCall.Text.Padding
import ForeignCall.Tool.Resolve

/-!
# The layout of a call

Where each word of each argument goes under a convention, one line for each move. The places are
named from the slots of the image alone: a floating-point register, an integer register, or a word
of the stack.
-/

namespace ForeignCall.Tool

/-- A named place of the image. -/
inductive Place where
  | float (k : Nat)
  | general (k : Nat)
  | stack (k : Nat)
  deriving DecidableEq, Repr

/-- The name of a slot of the image, where the stack starts at a given slot. -/
def Place.ofSlot (stackStart : Nat) (slot : Fin 24) : Place :=
  if 16 ≤ slot.val then .float (slot.val - 16)
  else if slot.val < stackStart then .general slot.val
  else .stack (slot.val - stackStart)

/-- The text of a place. -/
def Place.text : Place → String
  | float k => s!"fp{k}"
  | general k => s!"gp{k}"
  | stack k => s!"stack[{k}]"

/-- One line of a layout. -/
structure LayoutLine where
  argument : Nat
  /-- The type of the argument, which is there for every compiled move. -/
  type? : Option Scalar
  place : Place
  move : Move
  deriving DecidableEq, Repr

/-- The lines of a compiled prototype. -/
def layout (allocator : Allocator) (p : Prototype) (inv : Invoker) : List LayoutLine :=
  inv.moves.map fun m =>
    ⟨m.source.val, p.args[m.source.val]?, .ofSlot allocator.stackStart m.dest, m⟩

/-- The text of a line. -/
def LayoutLine.text (line : LayoutLine) : String :=
  "  arg" ++ Text.padRight 3 (toString line.argument) ++ " "
    ++ Text.padRight 4 ((line.type?.map Scalar.name).getD "") ++ " -> "
    ++ Text.padRight 10 line.place.text ++ " " ++ line.move.text

/-- A request for the layout of a signature. -/
structure LayoutRequest where
  signature : String
  convention : Option String
  archOs : Option String
  deriving DecidableEq, Repr

/-- A compiled signature with everything it was compiled for. -/
structure Compiled where
  target : Target
  attr : Attribute
  allocator : Allocator
  prototype : Prototype
  invoker : Invoker

/-- Compiles the signature of a request. -/
def compileRequest (detected : Target) (settings : Settings) (request : LayoutRequest) :
    Except Error Compiled :=
  match resolveTarget detected settings request.archOs with
  | .error e => .error e
  | .ok target =>
    match resolveAttribute settings request.convention with
    | .error e => .error e
    | .ok attr =>
      match target.allocator attr with
      | .error e => .error (.failure (.target e))
      | .ok allocator =>
        match Signature.parse allocator.wordSize request.signature with
        | .error e => .error (.failure (.signature e))
        | .ok prototype =>
          match allocator.compile prototype with
          | .error e => .error (.failure (.allocation e))
          | .ok invoker => .ok ⟨target, attr, allocator, prototype, invoker⟩

namespace Compiled

/-- The lines of a report in front of the layout. -/
def head (c : Compiled) : List String := [
  s!"Target:       {c.target.archOs} ({c.attr.label})",
  s!"Convention:   {c.invoker.convention.name}",
  s!"Prototype:    {c.prototype.text}",
  s!"Stack words:  {c.invoker.stackWords}",
  "",
  "Commands:"]

/-- The lines of the layout, as they are printed. -/
def printed (c : Compiled) : List String :=
  (layout c.allocator c.prototype c.invoker).map LayoutLine.text

/-- The report on a compiled signature. -/
def report (c : Compiled) : String :=
  String.join ((c.head ++ c.printed ++ ["", c.invoker.text]).map (· ++ "\n"))

end Compiled

/-- Shows the layout of a signature. -/
def showLayout (detected : Target) (settings : Settings) (request : LayoutRequest) : Outcome :=
  .ofExcept ((compileRequest detected settings request).map Compiled.report)

end ForeignCall.Tool
