/-!
# TOML items

The values of a TOML document and how a table grows. A table remembers how it came to be, because
that decides what may still be added to it: a table with a header is complete once the next header
starts, one that only lies on the way to a header can still get a header of its own, one made by
dotted keys grows only by dotted keys, and an inline table never grows.
-/

namespace ForeignCall.Toml

/-- How a table came to be. -/
inductive TableForm where
  /-- By a header of its own; also the document itself. -/
  | header
  /-- By a header below it. -/
  | onTheWay
  /-- By dotted keys. -/
  | dotted
  /-- Between braces. -/
  | inline
  deriving DecidableEq, Repr

/-- An item of a document. What numbers, truth values and dates are does not matter here. -/
inductive Item where
  | string (text : String)
  | scalar
  | array (items : List Item)
  | table (form : TableForm) (entries : List (String × Item))
  /-- Tables under one repeated header, in order. -/
  | tables (elements : List (List (String × Item)))

/-- The entries of a table, in the order of their first mention. -/
abbrev Entries := List (String × Item)

/-- The entries with the item of one key replaced, or added at the end. -/
def setEntry (key : String) (item : Item) : Entries → Entries
  | [] => [(key, item)]
  | (k, old) :: rest =>
    if k = key then (k, item) :: rest else (k, old) :: setEntry key item rest

/-- The key that was set is found with its item. -/
theorem lookup_setEntry_self (key : String) (item : Item) (es : Entries) :
    (setEntry key item es).lookup key = some item := by
  induction es with
  | nil => simp [setEntry]
  | cons e rest ih =>
    obtain ⟨k, old⟩ := e
    by_cases h : k = key
    · simp [setEntry, h]
    · have : (key == k) = false := by simpa using fun hk => h hk.symm
      simp only [setEntry, h, ↓reduceIte, List.lookup_cons, this, ih]

/-- A change to the table at the end of a path of keys; none if it is refused. -/
abbrev Change := TableForm → Entries → Option Entries

/-- Goes down a path of keys and changes the table at its end. Missing tables are made on the way,
with a form that says whether the path is that of a header or of dotted keys. Dotted keys do not
enter tables that have a header, and nothing enters an inline table or a value. -/
def descend (made : TableForm) (change : Change) : List String → Change
  | [] => change
  | key :: path => fun _ entries =>
    match entries.lookup key with
    | none => do
      let sub ← descend made change path made []
      return setEntry key (.table made sub) entries
    | some (.table form sub) =>
      if form = .inline ∨ (made = .dotted ∧ form = .header) then none
      else do
        let sub ← descend made change path form sub
        return setEntry key (.table form sub) entries
    | some (.tables elements) =>
      match elements.getLast? with
      | some last => do
        let last ← descend made change path .header last
        return setEntry key (.tables (elements.dropLast ++ [last])) entries
      | none => none
    | some _ => none

/-- Starts the table of a header. -/
def openTable (key : String) : Change := fun _ entries =>
  match entries.lookup key with
  | none => some (setEntry key (.table .header []) entries)
  | some (.table .onTheWay sub) => some (setEntry key (.table .header sub) entries)
  | some _ => none

/-- Starts one more table of a repeated header. -/
def openElement (key : String) : Change := fun _ entries =>
  match entries.lookup key with
  | none => some (setEntry key (.tables [[]]) entries)
  | some (.tables elements) => some (setEntry key (.tables (elements ++ [[]])) entries)
  | some _ => none

/-- Adds a value under a key that is not there yet. A table reached by dotted keys must have been
made by dotted keys. -/
def addValue (isDotted : Bool) (key : String) (value : Item) : Change := fun form entries =>
  if isDotted ∧ form ≠ .dotted then none
  else
    match entries.lookup key with
    | none => some (setEntry key value entries)
    | some _ => none

/-- Adds a value under a path of keys and a last key. -/
def addAt (path : List String) (key : String) (value : Item) : Change :=
  descend .dotted (addValue (!path.isEmpty) key value) path

end ForeignCall.Toml
