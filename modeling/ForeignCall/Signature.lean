import ForeignCall.Convention
import ForeignCall.Prototype

/-!
# Signatures

A call shape written as a short text, one letter per type: `i(ppip)` is a function of four
arguments with a 32-bit result, and `i(pp|id)` calls a variadic one with two extra arguments.
A reader goes through the text once, character by character; what it has read so far is a
`Reading`. A text is accepted exactly if the reading ends after the closing parenthesis.
-/

namespace ForeignCall

/-- The type a signature letter stands for. The letters `p` and `v` are the signed integer as
wide as a pointer, `P` and `V` the unsigned one. -/
def Scalar.ofLetter? (word : WordSize) : Char → Option Scalar
  | 'b' => some .i8
  | 'B' => some .u8
  | 's' => some .i16
  | 'S' => some .u16
  | 'i' => some .i32
  | 'I' => some .u32
  | 'l' => some .i64
  | 'L' => some .u64
  | 'f' => some .f32
  | 'd' => some .f64
  | 'p' | 'v' => some word.signedPointer
  | 'P' | 'V' => some word.unsignedPointer
  | _ => none

/-- A letter is read back as the type it is the letter of, under either word size. -/
theorem Scalar.ofLetter?_letter (word : WordSize) (t : Scalar) :
    Scalar.ofLetter? word t.letter = some t := by cases t <;> rfl

namespace Signature

/-- What has been read of a signature. -/
inductive Reading where
  | start
  | result (ret : Scalar)
  | arguments (ret : Scalar) (args : List Scalar) (marker : Option Nat)
  | finished (ret : Scalar) (args : List Scalar) (marker : Option Nat)
  deriving DecidableEq, Repr

/-- The stage a reading is in. -/
def Reading.stage : Reading → Stage
  | start => .result
  | result _ => .ready
  | arguments .. => .arguments
  | finished .. => .finished

/-- What can be wrong with the next character. -/
inductive Fault where
  | unexpected (found : Char) (stage : Stage)
  | secondMarker
  | unknownLetter (letter : Char)
  deriving DecidableEq, Repr

/-- The error a fault is within a whole text. -/
def Fault.toError (signature : String) : Fault → SignatureError
  | unexpected found stage => .unexpected signature found stage
  | secondMarker => .secondMarker signature
  | unknownLetter letter => .unknownLetter letter

/-- Whether a character is one of the three that are not letters. -/
def isPunctuation (c : Char) : Bool := c = '(' || c = ')' || c = '|'

/-- Reads a type letter. -/
def readLetter (word : WordSize) (c : Char) : Except Fault Scalar :=
  match Scalar.ofLetter? word c with
  | some t => .ok t
  | none => .error (.unknownLetter c)

/-- Reads one more character. -/
def Reading.step (word : WordSize) (r : Reading) (c : Char) : Except Fault Reading :=
  match r with
  | start =>
    if isPunctuation c then .error (.unexpected c .result)
    else (readLetter word c).map .result
  | result ret =>
    if c = '(' then .ok (.arguments ret [] none)
    else .error (.unexpected c .ready)
  | arguments ret args marker =>
    if c = ')' then .ok (.finished ret args marker)
    else if c = '|' then
      match marker with
      | none => .ok (.arguments ret args (some args.length))
      | some _ => .error .secondMarker
    else if c = '(' then .error (.unexpected c .arguments)
    else (readLetter word c).map fun t => .arguments ret (args ++ [t]) marker
  | finished .. => .error (.unexpected c .finished)

/-- Reads a list of characters. -/
def read (word : WordSize) (cs : List Char) : Except Fault Reading :=
  cs.foldlM (Reading.step word) .start

/-- The prototype of a reading at the end of the text. -/
def Reading.close (signature : String) : Reading → Except SignatureError Prototype
  | finished ret args marker => Prototype.make ret args marker
  | r => .error (.incomplete signature r.stage)

/-- Reads a signature text for a process with the given word size. -/
def parse (word : WordSize) (signature : String) : Except SignatureError Prototype :=
  match read word signature.toList with
  | .ok r => r.close signature
  | .error fault => .error (fault.toError signature)

/-- Reading goes on from where the first part of a text ends. -/
theorem read_append (word : WordSize) (cs ds : List Char) :
    read word (cs ++ ds) = read word cs >>= fun r => ds.foldlM (Reading.step word) r := by
  simp [read, List.foldlM_append]

end Signature

end ForeignCall
