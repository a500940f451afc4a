import ForeignCall.Toml.Item
import ForeignCall.Toml.Lexical

/-!
# TOML documents

A document is a list of lines, each a header, a key with a value, or nothing. Reading goes line by
line and adds to the table of the last header. Values nest at most `depthLimit` deep; the number of
steps is bounded by the length of the text.
-/

namespace ForeignCall.Toml

mutual

/-- Reads a value within so many levels of nesting. -/
def value? : Nat → Nat → Reader Item
  | 0, _, _ => none
  | steps + 1, depth, cs =>
    match cs with
    | '"' :: _ => (string? cs).map fun (text, rest) => (.string (String.ofList text), rest)
    | '\'' :: _ => (string? cs).map fun (text, rest) => (.string (String.ofList text), rest)
    | '[' :: rest =>
      match depth with
      | 0 => none
      | depth + 1 => (arrayItems? steps depth rest).map fun (items, rest) => (.array items, rest)
    | '\x7b' :: rest =>
      match depth with
      | 0 => none
      | depth + 1 =>
        match skipBlanks rest with
        | '\x7d' :: rest => some (.table .inline [], rest)
        | rest =>
          (inlineEntries? steps depth [] rest).map fun (entries, rest) =>
            (.table .inline entries, rest)
    | _ => (scalar? cs).map fun rest => (.scalar, rest)

/-- Reads the items of an array up to its closing bracket. -/
def arrayItems? : Nat → Nat → Reader (List Item)
  | 0, _, _ => none
  | steps + 1, depth, cs =>
    match skipLines cs.length cs with
    | none => none
    | some (']' :: rest) => some ([], rest)
    | some cs =>
      match value? steps depth cs with
      | none => none
      | some (item, rest) =>
        match skipLines rest.length rest with
        | some (',' :: rest) =>
          (arrayItems? steps depth rest).map fun (items, rest) => (item :: items, rest)
        | some (']' :: rest) => some ([item], rest)
        | _ => none

/-- Reads the entries of an inline table up to its closing brace. -/
def inlineEntries? : Nat → Nat → Entries → Reader Entries
  | 0, _, _, _ => none
  | steps + 1, depth, entries, cs =>
    match key? cs with
    | some ((path, key), '=' :: rest) =>
      match value? steps depth (skipBlanks rest) with
      | none => none
      | some (item, rest) =>
        match addAt path key item .inline entries with
        | none => none
        | some entries =>
          match skipBlanks rest with
          | ',' :: rest => inlineEntries? steps depth entries rest
          | '\x7d' :: rest => some (entries, rest)
          | _ => none
    | _ => none

end

/-- A document that is being read: its entries and the path of the last header. -/
structure Progress where
  entries : Entries
  path : List String

/-- Reads a header between single brackets, after the opening one. -/
def Progress.header? (d : Progress) (cs : List Char) : Option (Progress × List Char) := do
  let ((path, key), rest) ← key? cs
  let rest ← closeLine? (← expect? ']' rest)
  let entries ← descend .onTheWay (openTable key) path .header d.entries
  return (⟨entries, path ++ [key]⟩, rest)

/-- Reads a header between double brackets, after the opening ones. -/
def Progress.elementHeader? (d : Progress) (cs : List Char) : Option (Progress × List Char) := do
  let ((path, key), rest) ← key? cs
  let rest ← closeLine? (← expect? ']' (← expect? ']' rest))
  let entries ← descend .onTheWay (openElement key) path .header d.entries
  return (⟨entries, path ++ [key]⟩, rest)

/-- Reads a key and its value. -/
def Progress.entry? (d : Progress) (cs : List Char) : Option (Progress × List Char) := do
  let ((path, key), rest) ← key? cs
  let rest := skipBlanks (← expect? '=' rest)
  let (item, rest) ← value? (2 * rest.length + 2) depthLimit rest
  let rest ← closeLine? rest
  let entries ← descend .onTheWay (addAt path key item) d.path .header d.entries
  return (⟨entries, d.path⟩, rest)

/-- Reads line by line, in so many steps at most. -/
def Progress.lines? : Nat → Progress → List Char → Option Entries
  | 0, _, _ => none
  | steps + 1, d, cs =>
    match skipBlanks cs with
    | [] => some d.entries
    | '#' :: rest =>
      match closeLine? ('#' :: rest) with
      | none => none
      | some rest => Progress.lines? steps d rest
    | '[' :: '[' :: rest =>
      match d.elementHeader? rest with
      | none => none
      | some (d, rest) => Progress.lines? steps d rest
    | '[' :: rest =>
      match d.header? rest with
      | none => none
      | some (d, rest) => Progress.lines? steps d rest
    | '\n' :: rest => Progress.lines? steps d rest
    | '\r' :: rest =>
      match lineEnd? ('\r' :: rest) with
      | none => none
      | some rest => Progress.lines? steps d rest
    | cs =>
      match d.entry? cs with
      | none => none
      | some (d, rest) => Progress.lines? steps d rest

/-- Reads a document. A byte order mark at its start is passed over. -/
def document? (text : String) : Option Entries :=
  let cs :=
    match text.toList with
    | '\uFEFF' :: rest => rest
    | cs => cs
  Progress.lines? (cs.length + 1) ⟨[], []⟩ cs

end ForeignCall.Toml
