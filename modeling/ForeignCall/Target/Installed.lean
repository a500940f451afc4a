import ForeignCall.Target

/-!
# The installed target

A process has one target for all its calls, installed once. Setting up takes the process itself, as
it has been detected, and tests it first; installing takes any target as it is. The test is an action
of any kind, so that it shows whether it is run, and any outcome of it is possible.
-/

namespace ForeignCall

/-- The target of the process, once there is one. -/
structure Installed where
  target? : Option Target
  deriving DecidableEq, Repr

namespace Installed

/-- No target is installed. -/
def none : Installed := ⟨Option.none⟩

/-- Installs the process itself if its self-test passes. An installed target stays, and the test
is not run. -/
def setupM {m : Type → Type} [Monad m] (detected : Target) (selfTest : m (Except Failure Unit))
    (s : Installed) : m (Except Failure Target × Installed) :=
  match s.target? with
  | some t => pure (.ok t, s)
  | .none => do
    match ← selfTest with
    | .ok () => pure (.ok detected, ⟨some detected⟩)
    | .error e => pure (.error e, s)

/-- Sets up with a self-test of known outcome. -/
def setup (detected : Target) (selfTest : Except Failure Unit) (s : Installed) :
    Except Failure Target × Installed :=
  Id.run (s.setupM detected (pure selfTest))

/-- Puts a target where none is. Says whether there was room for it. -/
def place (t : Target) (s : Installed) : Bool × Installed :=
  match s.target? with
  | some _ => (false, s)
  | .none => (true, ⟨some t⟩)

/-- The installed target. -/
def target (s : Installed) : Except TargetError Target :=
  match s.target? with
  | some t => .ok t
  | .none => .error .notSetUp

/-- Installs a target and gives back what is installed then. -/
def install (t : Target) (s : Installed) : Except TargetError Target × Installed :=
  match s.place t with
  | (true, s) => (s.target, s)
  | (false, s) => (.error .alreadySetUp, s)

/-- The word size of the installed target. -/
def wordSize (s : Installed) : Except TargetError WordSize := s.target.map (·.wordSize)

end Installed

end ForeignCall
