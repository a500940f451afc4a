import ForeignCall.Decimal.Reading

/-!
# TOML tokens

Readers for the parts of a TOML text that do not nest: blanks, comments, line ends, keys, strings
and plain scalars. A reader gives what it has read together with the rest of the text, or nothing
where the text does not fit.
-/

namespace ForeignCall.Toml

/-- A reader of a text. -/
abbrev Reader (α : Type) := List Char → Option (α × List Char)

/-- Whether a character is a space or a tab. -/
def isBlank (c : Char) : Bool := c = ' ' || c = '\t'

/-- Whether a character may stand in a comment: no control but the tab. -/
def isPlain (c : Char) : Bool := c = '\t' || (' ' ≤ c && c ≤ '~') || '\u0080' ≤ c

/-- Whether a character may stand in a key without quotes. -/
def isBare (c : Char) : Bool := c.isAlphanum || c = '_' || c = '-'

/-- The text after blanks. -/
def skipBlanks (cs : List Char) : List Char := cs.dropWhile isBlank

/-- The text after the comment it starts with, if it does. -/
def skipComment : List Char → List Char
  | '#' :: rest => rest.dropWhile isPlain
  | cs => cs

/-- The text after a line end. -/
def lineEnd? : List Char → Option (List Char)
  | '\n' :: rest => some rest
  | '\r' :: '\n' :: rest => some rest
  | _ => none

/-- The text after the blanks, the comment and the line end that close an expression. -/
def closeLine? (cs : List Char) : Option (List Char) :=
  match skipComment (skipBlanks cs) with
  | [] => some []
  | rest => lineEnd? rest

/-- The text after blanks, comments and line ends, as they may stand within an array. -/
def skipLines : Nat → List Char → Option (List Char)
  | 0, cs => some cs
  | n + 1, cs =>
    match skipBlanks cs with
    | '#' :: rest => do skipLines n (← lineEnd? (rest.dropWhile isPlain))
    | '\n' :: rest => skipLines n rest
    | '\r' :: rest => do skipLines n (← lineEnd? ('\r' :: rest))
    | rest => some rest

/-- The character with a hexadecimal code point; surrogates are none. -/
def charOfHex? (digits : List Char) : Option Char := do
  let n ← digits.foldlM (fun n c => (Text.digitValue? 16 c).map (16 * n + ·)) 0
  if n.isValidChar then some (Char.ofNat n) else none

/-- The character of a short escape. -/
def shortEscape? : Char → Option Char
  | 'b' => some '\x08'
  | 't' => some '\t'
  | 'n' => some '\n'
  | 'f' => some '\x0c'
  | 'r' => some '\r'
  | '"' => some '"'
  | '\\' => some '\\'
  | _ => none

/-- Puts a character before what a reader gives. -/
def prepend (c : Char) : Option (List Char × List Char) → Option (List Char × List Char) :=
  Option.map fun (text, rest) => (c :: text, rest)

/-- The rest of a string between double quotes. -/
def basicBody : Reader (List Char)
  | '"' :: rest => some ([], rest)
  | '\\' :: 'u' :: a :: b :: c :: d :: rest =>
    (charOfHex? [a, b, c, d]).bind fun x => prepend x (basicBody rest)
  | '\\' :: 'U' :: a :: b :: c :: d :: e :: f :: g :: h :: rest =>
    (charOfHex? [a, b, c, d, e, f, g, h]).bind fun x => prepend x (basicBody rest)
  | '\\' :: c :: rest => (shortEscape? c).bind fun x => prepend x (basicBody rest)
  | c :: rest => if isPlain c && c ≠ '\\' then prepend c (basicBody rest) else none
  | [] => none

/-- The rest of a string between apostrophes. -/
def literalBody : Reader (List Char)
  | '\'' :: rest => some ([], rest)
  | c :: rest => if isPlain c then prepend c (literalBody rest) else none
  | [] => none

/-- Whether only blanks stand before the next line end. -/
def endsLine (cs : List Char) : Bool := (lineEnd? (skipBlanks cs)).isSome

/-- The rest of a string between three double quotes. After a backslash at the end of a line,
blanks and line ends are left out up to the next other character. -/
def longBasicBody (trimming : Bool) : Reader (List Char)
  | '"' :: '"' :: '"' :: '"' :: '"' :: rest => some (['"', '"'], rest)
  | '"' :: '"' :: '"' :: '"' :: rest => some (['"'], rest)
  | '"' :: '"' :: '"' :: rest => some ([], rest)
  | '\r' :: '\n' :: rest =>
    if trimming then longBasicBody true rest else prepend '\n' (longBasicBody false rest)
  | '\n' :: rest =>
    if trimming then longBasicBody true rest else prepend '\n' (longBasicBody false rest)
  | '\\' :: 'u' :: a :: b :: c :: d :: rest =>
    (charOfHex? [a, b, c, d]).bind fun x => prepend x (longBasicBody false rest)
  | '\\' :: 'U' :: a :: b :: c :: d :: e :: f :: g :: h :: rest =>
    (charOfHex? [a, b, c, d, e, f, g, h]).bind fun x => prepend x (longBasicBody false rest)
  | '\\' :: c :: rest =>
    match shortEscape? c with
    | some x => prepend x (longBasicBody false rest)
    | none =>
      if endsLine (c :: rest) && (isBlank c || c = '\n' || c = '\r') then longBasicBody true rest
      else none
  | c :: rest =>
    if trimming && isBlank c then longBasicBody true rest
    else if isPlain c && c ≠ '\\' then prepend c (longBasicBody false rest)
    else none
  | [] => none

/-- The rest of a string between three apostrophes. -/
def longLiteralBody : Reader (List Char)
  | '\'' :: '\'' :: '\'' :: '\'' :: '\'' :: rest => some (['\'', '\''], rest)
  | '\'' :: '\'' :: '\'' :: '\'' :: rest => some (['\''], rest)
  | '\'' :: '\'' :: '\'' :: rest => some ([], rest)
  | '\r' :: '\n' :: rest => prepend '\n' (longLiteralBody rest)
  | '\n' :: rest => prepend '\n' (longLiteralBody rest)
  | c :: rest => if isPlain c then prepend c (longLiteralBody rest) else none
  | [] => none

/-- The text after a line end that may follow opening quotes. -/
def skipFirstLineEnd (cs : List Char) : List Char := (lineEnd? cs).getD cs

/-- A string in any of the four forms. -/
def string? : Reader (List Char)
  | '"' :: '"' :: '"' :: rest => longBasicBody false (skipFirstLineEnd rest)
  | '"' :: rest => basicBody rest
  | '\'' :: '\'' :: '\'' :: rest => longLiteralBody (skipFirstLineEnd rest)
  | '\'' :: rest => literalBody rest
  | _ => none

/-- One part of a key. -/
def simpleKey? : Reader (List Char)
  | '"' :: rest => basicBody rest
  | '\'' :: rest => literalBody rest
  | cs =>
    let bare := cs.takeWhile isBare
    if bare = [] then none else some (bare, cs.dropWhile isBare)

/-- The parts of a key, with dots between them, and the blanks around them. -/
def keyParts? : Nat → Reader (List String)
  | 0, _ => none
  | n + 1, cs => do
    let (part, rest) ← simpleKey? (skipBlanks cs)
    match skipBlanks rest with
    | '.' :: rest =>
      let (parts, rest) ← keyParts? n rest
      return (String.ofList part :: parts, rest)
    | rest => return ([String.ofList part], rest)

/-- The greatest number of parts of a key and of nested values. -/
def depthLimit : Nat := 79

/-- A key as the path to its table and its last part. -/
def key? : Reader (List String × String) := fun cs => do
  let (parts, rest) ← keyParts? depthLimit cs
  let last ← parts.getLast?
  return ((parts.dropLast, last), rest)

/-- The text after digits, each of which but the first may have an underscore before it. -/
def moreDigits? (isDigit : Char → Bool) : List Char → Option (List Char)
  | '_' :: c :: rest => if isDigit c then moreDigits? isDigit rest else none
  | ['_'] => none
  | c :: rest => if isDigit c then moreDigits? isDigit rest else some (c :: rest)
  | [] => some []

/-- The text after at least one digit. -/
def digits? (isDigit : Char → Bool) : List Char → Option (List Char)
  | c :: rest => if isDigit c then moreDigits? isDigit rest else none
  | [] => none

/-- The text after a sign, if there is one. -/
def skipSign : List Char → List Char
  | '+' :: rest => rest
  | '-' :: rest => rest
  | cs => cs

/-- What of a text stands before its rest, without underscores. -/
def consumed (cs rest : List Char) : List Char :=
  (cs.take (cs.length - rest.length)).filter (· ≠ '_')

/-- The text after an unsigned decimal integer without leading zeros. -/
def wholePart? : List Char → Option (List Char)
  | '0' :: rest => some rest
  | cs => digits? Char.isDigit cs

/-- The text after an exponent. -/
def exponent? : List Char → Option (List Char)
  | c :: rest => if c = 'e' ∨ c = 'E' then digits? Char.isDigit (skipSign rest) else none
  | [] => none

/-- The text after an integer with a base prefix that fits into 63 bits. -/
def radixInteger? (base : Nat) (isDigit : Char → Bool) (cs : List Char) : Option (List Char) := do
  let rest ← digits? isDigit cs
  let value := (consumed cs rest).foldl (fun n c => base * n + (Text.digitValue? 16 c).getD 0) 0
  if value < 1 <<< 63 then some rest else none

/-- The text after a float written with a point or an exponent, whose value is no positive
infinity. -/
def float? (cs : List Char) : Option (List Char) := do
  let rest ← wholePart? (skipSign cs)
  let rest ←
    match rest with
    | '.' :: rest => do
      let rest ← digits? Char.isDigit rest
      match rest with
      | 'e' :: _ => exponent? rest
      | 'E' :: _ => exponent? rest
      | _ => some rest
    | _ => exponent? rest
  match Decimal.readFloat .double (String.ofList (consumed cs rest)) with
  | .ok pattern => if pattern = Decimal.BinaryFormat.double.infinityPattern then none else some rest
  | .error _ => none

/-- The text after a decimal integer of 64 bits. -/
def integer? (cs : List Char) : Option (List Char) := do
  let rest ← wholePart? (skipSign cs)
  let value := Decimal.ofDigits (skipSign (consumed cs rest))
  let bound := if cs.head? = some '-' then 1 <<< 63 else 1 <<< 63 - 1
  if value ≤ bound then some rest else none

/-- The text after the name of infinity or of not-a-number. -/
def namedFloat? (cs : List Char) : Option (List Char) :=
  match skipSign cs with
  | 'i' :: 'n' :: 'f' :: rest => some rest
  | 'n' :: 'a' :: 'n' :: rest => some rest
  | _ => none

/-- The text after a number. -/
def number? (cs : List Char) : Option (List Char) :=
  match cs with
  | '0' :: 'x' :: rest => radixInteger? 16 (fun c => (Text.digitValue? 16 c).isSome) rest
  | '0' :: 'o' :: rest => radixInteger? 8 (fun c => '0' ≤ c && c ≤ '7') rest
  | '0' :: 'b' :: rest => radixInteger? 2 (fun c => c = '0' || c = '1') rest
  | _ =>
    match float? cs with
    | some rest => some rest
    | none =>
      match namedFloat? cs with
      | some rest => some rest
      | none => integer? cs

/-- A number of exactly so many digits within bounds. -/
def field? (width low high : Nat) (cs : List Char) : Option (Nat × List Char) :=
  let digits := cs.take width
  let value := Decimal.ofDigits digits
  if digits.length = width ∧ digits.all Char.isDigit ∧ low ≤ value ∧ value ≤ high then
    some (value, cs.drop width)
  else none

/-- The text after a given character. -/
def expect? (c : Char) : List Char → Option (List Char)
  | d :: rest => if d = c then some rest else none
  | [] => none

/-- The number of days of a month. -/
def daysInMonth (year month : Nat) : Nat :=
  if month = 2 then
    if year % 4 = 0 ∧ (year % 100 ≠ 0 ∨ year % 400 = 0) then 29 else 28
  else if month = 4 ∨ month = 6 ∨ month = 9 ∨ month = 11 then 30
  else 31

/-- The text after a date. -/
def date? (cs : List Char) : Option (List Char) := do
  let (year, rest) ← field? 4 0 9999 cs
  let (month, rest) ← field? 2 1 12 (← expect? '-' rest)
  let (_, rest) ← field? 2 1 (daysInMonth year month) (← expect? '-' rest)
  return rest

/-- The text after a time of day. -/
def time? (cs : List Char) : Option (List Char) := do
  let (_, rest) ← field? 2 0 23 cs
  let (_, rest) ← field? 2 0 59 (← expect? ':' rest)
  let (_, rest) ← field? 2 0 60 (← expect? ':' rest)
  match rest with
  | '.' :: rest =>
    let fraction := rest.takeWhile Char.isDigit
    if fraction = [] then none else some (rest.dropWhile Char.isDigit)
  | _ => some rest

/-- The text after the distance from universal time, if there is one. -/
def offset? : List Char → Option (List Char)
  | 'Z' :: rest => some rest
  | 'z' :: rest => some rest
  | c :: rest =>
    if c = '+' ∨ c = '-' then do
      let (_, rest) ← field? 2 0 23 rest
      let (_, rest) ← field? 2 0 59 (← expect? ':' rest)
      return rest
    else some (c :: rest)
  | [] => some []

/-- Whether so many digits and then a given character come next. -/
def startsField (width : Nat) (mark : Char) (cs : List Char) : Bool :=
  (cs.take width).length = width && (cs.take width).all Char.isDigit
    && (cs.drop width).head? = some mark

/-- The text after a date, a time, or both. -/
def dateTime? (cs : List Char) : Option (List Char) :=
  if startsField 4 '-' cs then do
    let rest ← date? cs
    match rest with
    | c :: more =>
      if (c = 'T' ∨ c = 't' ∨ c = ' ') ∧ startsField 2 ':' more then do
        offset? (← time? more)
      else some rest
    | [] => some []
  else time? cs

/-- The text after a number, a truth value, a date or a time. -/
def scalar? (cs : List Char) : Option (List Char) :=
  match cs with
  | 't' :: 'r' :: 'u' :: 'e' :: rest => some rest
  | 'f' :: 'a' :: 'l' :: 's' :: 'e' :: rest => some rest
  | c :: _ =>
    if c = '+' ∨ c = '-' ∨ c.isDigit then
      if startsField 4 '-' cs || startsField 2 ':' cs then dateTime? cs else number? cs
    else namedFloat? cs
  | [] => none

end ForeignCall.Toml
