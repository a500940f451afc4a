import ForeignCall.Word

/-!
# Numerals

Positional numerals as lists of characters, without a sign or leading zeros unless a width asks
for them. The digits themselves are those of `Nat.toDigits`, whose laws the core library proves.
-/

namespace ForeignCall.Text

/-- The decimal numeral of a number. -/
def decimal (n : Nat) : List Char := Nat.toDigits 10 n

/-- The hexadecimal numeral of a number, in lower case. -/
def hexadecimal (n : Nat) : List Char := Nat.toDigits 16 n

/-- The binary numeral of a number. -/
def binary (n : Nat) : List Char := Nat.toDigits 2 n

/-- A numeral filled up on the left with zeros to a least width. -/
def zeroFilled (width : Nat) (digits : List Char) : List Char :=
  List.replicate (width - digits.length) '0' ++ digits

/-- The decimal numeral of an integer, with a minus sign before negative ones. -/
def signedDecimal : Int → List Char
  | .ofNat n => decimal n
  | .negSucc n => '-' :: decimal (n + 1)

/-- The value of a digit in a base up to 36; letters are digits in either case. -/
def digitValue? (base : Nat) (c : Char) : Option Nat :=
  let value :=
    if '0' ≤ c ∧ c ≤ '9' then some (c.toNat - '0'.toNat)
    else if 'a' ≤ c ∧ c ≤ 'z' then some (c.toNat - 'a'.toNat + 10)
    else if 'A' ≤ c ∧ c ≤ 'Z' then some (c.toNat - 'A'.toNat + 10)
    else none
  value.filter (· < base)

/-- Reads at least one digit, with an optional plus sign before it. -/
def readNatural (base : Nat) (cs : List Char) : Option Nat :=
  let digits :=
    match cs with
    | '+' :: rest => rest
    | _ => cs
  if digits = [] then none
  else digits.foldlM (fun n c => (digitValue? base c).map (base * n + ·)) 0

/-- A numeral filled with zeros is at least as wide as asked. -/
theorem le_length_zeroFilled (width : Nat) (digits : List Char) :
    width ≤ (zeroFilled width digits).length := by
  simp only [zeroFilled, List.length_append, List.length_replicate]
  omega

/-- A number that is not negative is written without a sign. -/
theorem signedDecimal_natCast (n : Nat) : signedDecimal n = decimal n := rfl

end ForeignCall.Text

namespace ForeignCall.Word

/-- A word as `0x` and sixteen hexadecimal digits. -/
def hex (w : Word) : String :=
  "0x" ++ String.ofList (Text.zeroFilled 16 (Text.hexadecimal w.toNat))

/-- A word as `0x` and no more hexadecimal digits than it needs. -/
def shortHex (w : Word) : String :=
  "0x" ++ String.ofList (Text.hexadecimal w.toNat)

end ForeignCall.Word
