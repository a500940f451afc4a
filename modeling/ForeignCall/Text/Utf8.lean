/-!
# UTF-8

Bytes are read as text piece by piece. A piece is either a character in its only well-formed
encoding, or an ill-formed run: the longest run of bytes that begins a character and is not
continued to one, or a single byte that begins none. Reading text with replacement puts one
U+FFFD for each ill-formed run; strict reading refuses them.
-/

namespace ForeignCall.Text.Utf8

/-- The bytes of a text. -/
def encode (cs : List Char) : List UInt8 := cs.flatMap String.utf8EncodeChar

/-- The bytes of two texts are those of the first and then those of the second. -/
theorem encode_append (cs ds : List Char) : encode (cs ++ ds) = encode cs ++ encode ds := by
  simp [encode]

/-- A piece of a byte string. -/
inductive Piece where
  | char (c : Char)
  | illFormed (bytes : List UInt8)
  deriving DecidableEq

/-- A character whose first bytes have been read. -/
structure Pending where
  /-- The bytes read. -/
  bytes : List UInt8
  /-- The bits they contribute. -/
  value : Nat
  /-- Number of bytes still to come, less one. -/
  further : Nat
  /-- Least next byte. -/
  low : UInt8
  /-- Greatest next byte. -/
  high : UInt8

/-- What a byte at the start of a piece can be. -/
inductive Lead where
  | char (c : Char)
  | pending (p : Pending)
  | illFormed

/-- Reads the first byte of a piece. The bounds of the second byte leave out longer encodings than
needed, surrogates and numbers beyond the last code point. -/
def Lead.of (b : UInt8) : Lead :=
  if b < 0x80 then .char (Char.ofNat b.toNat)
  else if b < 0xC2 then .illFormed
  else if b < 0xE0 then .pending ⟨[b], b.toNat - 0xC0, 0, 0x80, 0xBF⟩
  else if b < 0xF0 then
    .pending ⟨[b], b.toNat - 0xE0, 1, if b = 0xE0 then 0xA0 else 0x80,
      if b = 0xED then 0x9F else 0xBF⟩
  else if b < 0xF5 then
    .pending ⟨[b], b.toNat - 0xF0, 2, if b = 0xF0 then 0x90 else 0x80,
      if b = 0xF4 then 0x8F else 0xBF⟩
  else .illFormed

/-- Whether a byte goes on with a pending character. -/
def Pending.accepts (p : Pending) (b : UInt8) : Bool := p.low ≤ b && b ≤ p.high

/-- A pending character with one more byte that is not the last. -/
def Pending.push (p : Pending) (b : UInt8) (further : Nat) : Pending :=
  ⟨p.bytes ++ [b], 64 * p.value + (b.toNat - 0x80), further, 0x80, 0xBF⟩

/-- The character that a last byte completes. -/
def Pending.finish (p : Pending) (b : UInt8) : Char :=
  Char.ofNat (64 * p.value + (b.toNat - 0x80))

/-- The pieces of bytes after those of a pending character. -/
def piecesFrom : Option Pending → List UInt8 → List Piece
  | none, [] => []
  | some p, [] => [.illFormed p.bytes]
  | none, b :: rest =>
    match Lead.of b with
    | .char c => .char c :: piecesFrom none rest
    | .pending p => piecesFrom (some p) rest
    | .illFormed => .illFormed [b] :: piecesFrom none rest
  | some p, b :: rest =>
    if p.accepts b then
      match p.further with
      | 0 => .char (p.finish b) :: piecesFrom none rest
      | further + 1 => piecesFrom (some (p.push b further)) rest
    else
      .illFormed p.bytes ::
        match Lead.of b with
        | .char c => .char c :: piecesFrom none rest
        | .pending p => piecesFrom (some p) rest
        | .illFormed => .illFormed [b] :: piecesFrom none rest

/-- The pieces of a byte string. -/
def pieces (bytes : List UInt8) : List Piece := piecesFrom none bytes

/-- The text of a byte string, with U+FFFD for each ill-formed run. -/
def decodeLossy (bytes : List UInt8) : List Char :=
  (pieces bytes).map fun
    | .char c => c
    | .illFormed _ => '\uFFFD'

/-- The text of a byte string without ill-formed runs. -/
def decode? (bytes : List UInt8) : Option (List Char) :=
  (pieces bytes).mapM fun
    | .char c => some c
    | .illFormed _ => none

end ForeignCall.Text.Utf8
