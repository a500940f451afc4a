import ForeignCall.Host
import ForeignCall.Tool.Resolve

/-!
# Calling a function

A call from the command line is prepared as a whole before native code runs: the function is bound,
the arguments are counted and converted, and texts for string parameters are put on the heap. A
prepared call has nothing left that could be refused.
-/

namespace ForeignCall.Tool

/-- A request to call a function. -/
structure CallRequest where
  symbol : String
  signature : String
  args : List String
  libs : List String
  convention : Option String
  deriving DecidableEq, Repr

/-- A call that only has to be made. -/
structure PreparedCall where
  function : BoundFunction
  slots : List Word
  heap : Memory.Heap

/-- The library of a call, where asking the system to open one is an action: the first to open of
those on the command line if there are any, else of those in the settings if there are any, else
the process itself. -/
def openLibraryM {m : Type → Type} [Monad m] (opens : Option String → m (Except String Unit))
    (settings : Settings) (libs : List String) : m (Except LoadError Library) :=
  if libs ≠ [] then Library.openFirstM opens libs
  else if settings.search ≠ [] then Library.openFirstM opens settings.search
  else Library.openProcessM opens

/-- The library of a call. -/
def openLibrary (loader : Loader) (settings : Settings) (libs : List String) :
    Except LoadError Library :=
  Id.run (openLibraryM (fun name? => pure (loader.opens name?)) settings libs)

/-- Converts one argument. A text after an at sign becomes a string on the heap. -/
def convert (system : Memory.Heap.System) (index : Nat) (text : String) (t : Scalar)
    (h : Memory.Heap) : Except Error (Word × Memory.Heap) :=
  match text.toList with
  | '@' :: string =>
    match Memory.Heap.strdup system string h with
    | (.ok base, h) => .ok (BitVec.ofNat 64 base, h)
    | (.error e, _) => .error (.failure (.memory e))
  | _ =>
    match readArgument text t with
    | .ok w => .ok (w, h)
    | .error e => .error (.argument index e)

/-- Converts arguments in order, up to the first that cannot be converted. -/
def convertAll (system : Memory.Heap.System) :
    Nat → List (String × Scalar) → Memory.Heap → Except Error (List Word × Memory.Heap)
  | _, [], h => .ok ([], h)
  | index, (text, t) :: rest, h =>
    match convert system index text t h with
    | .error e => .error e
    | .ok (w, h) =>
      match convertAll system (index + 1) rest h with
      | .error e => .error e
      | .ok (ws, h) => .ok (w :: ws, h)

/-- Prepares a call. -/
def prepare (host : Host) (settings : Settings) (request : CallRequest) :
    Except Error PreparedCall :=
  match host.setup with
  | .error e => .error (.failure e)
  | .ok target =>
    match resolveAttribute settings request.convention with
    | .error e => .error e
    | .ok attr =>
      match target.allocator attr with
      | .error e => .error (.failure (.target e))
      | .ok allocator =>
        match openLibrary host.loader settings request.libs with
        | .error e => .error (.failure (.loading e))
        | .ok library =>
          match library.bind host.loader request.symbol ⟨allocator, request.signature⟩ 0 with
          | .error e => .error (.failure e)
          | .ok function =>
            let types := function.invoker.value.args
            if request.args.length ≠ types.length then
              .error (.arity request.signature types.length request.args.length)
            else
              match convertAll host.system 0 (request.args.zip types) .empty with
              | .error e => .error e
              | .ok (slots, heap) => .ok ⟨function, slots, heap⟩

/-- Makes a prepared call. -/
def PreparedCall.run (host : Host) (call : PreparedCall) : Except InvocationError Word :=
  call.function.call (host.machine call.heap) call.slots

/-- The report on a result. -/
def resultReport (raw : Word) (t : Scalar) : String :=
  s!"raw:    {raw.hex}\nvalue:  {printResult raw t}\n"

/-- Calls a function and shows its result. -/
def callFunction (host : Host) (settings : Settings) (request : CallRequest) : Outcome :=
  .ofExcept <|
    match prepare host settings request with
    | .error e => .error e
    | .ok call =>
      match call.run host with
      | .error e => .error (.failure (.invocation e))
      | .ok raw => .ok (resultReport raw call.function.invoker.value.ret)

/-- Runs the self-test of the process. -/
def checkProcess (host : Host) : Outcome :=
  .ofExcept <|
    match host.setup with
    | .error e => .error (.failure e)
    | .ok target =>
      .ok s!"Self-test passed on {target.archOs} ({Target.selfTestSignature})\n"

end ForeignCall.Tool
