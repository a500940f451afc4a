import ForeignCall.Text.GraphemeExtend
import ForeignCall.Text.Numeral
import ForeignCall.Text.Unprintable
import ForeignCall.Text.Utf8

/-!
# Quoted texts

A text between double quotes in which every character can be told: quotes, backslashes and the
common controls have short escapes, unprintable and attached characters are written by their code
points. A byte string is quoted in the same way, and each byte of an ill-formed run is written by
its value.
-/

namespace ForeignCall.Text.Quoted

/-- A character within quotes. -/
def escape (c : Char) : List Char :=
  if c = '\x00' then ['\\', '0']
  else if c = '\t' then ['\\', 't']
  else if c = '\n' then ['\\', 'n']
  else if c = '\r' then ['\\', 'r']
  else if c = '"' then ['\\', '"']
  else if c = '\\' then ['\\', '\\']
  else if isAttached c || isUnprintable c then
    '\\' :: 'u' :: '\x7b' :: hexadecimal c.toNat ++ ['\x7d']
  else [c]

/-- A byte that belongs to no character. -/
def escapeByte (b : UInt8) : List Char :=
  '\\' :: 'x' :: zeroFilled 2 ((hexadecimal b.toNat).map Char.toUpper)

/-- A quoted text. -/
def ofString (text : String) : String :=
  String.ofList ('"' :: text.toList.flatMap escape ++ ['"'])

/-- A quoted byte string. -/
def ofBytes (bytes : List UInt8) : String :=
  let inner := (Utf8.pieces bytes).flatMap fun
    | .char c => escape c
    | .illFormed bs => bs.flatMap escapeByte
  String.ofList ('"' :: inner ++ ['"'])

end ForeignCall.Text.Quoted
