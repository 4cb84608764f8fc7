import FlightPlanner.Toml.Moment
import FlightPlanner.Toml.Number
import FlightPlanner.Toml.Table
import FlightPlanner.Toml.Text

/-!
# Documents of TOML

A document is a sequence of lines: headers, keys with values, comments. `Document.ofText?` gives the entries of
its outermost table, or nothing where the document is at fault anywhere.
-/

namespace FlightPlanner.Toml

/-- How deep lists and tables in braces may be nested, and how many parts a key may have. -/
def mostNested : Nat := 79

/-- The parts of a key but the last, the last, and what follows the key. -/
def spanPath? (text : List Char) : Option (List String × String × List Char) := do
  let (parts, rest) ← spanKey? (text.length + 1) text
  let last ← parts.getLast?
  if parts.length ≤ mostNested then some (parts.dropLast, last, rest) else none

/-- A value that is a single word, a number, or a day or time, and the rest. -/
def spanSimple? (text : List Char) : Option (Value × List Char) :=
  match text with
  | 't' :: 'r' :: 'u' :: 'e' :: rest => some (.boolean true, rest)
  | 'f' :: 'a' :: 'l' :: 's' :: 'e' :: rest => some (.boolean false, rest)
  | _ =>
    match spanMoment? text with
    | some (moment, rest) => some (.moment moment, rest)
    | none => match spanReal? text with
      | some (x, rest) => some (.real x, rest)
      | none => (spanInteger? text).map fun (n, rest) => (.integer n, rest)

mutual

/-- A value, and the rest; `room` says how many levels of nesting are left. -/
def spanValue? : (steps : Nat) → (room : Nat) → List Char → Option (Value × List Char)
  | 0, _, _ => none
  | steps + 1, room, text =>
    match text with
    | '[' :: rest => match room with
      | 0 => none
      | room + 1 => do
        let (items, rest) ← spanItems? steps room rest
        some (.list items, rest)
    | '\x7b' :: rest => match room with
      | 0 => none
      | room + 1 => match dropBlanks rest with
        | '\x7d' :: rest => some (.table [], rest)
        | _ => do
          let (entries, rest) ← spanPairs? steps room [] rest
          some (.table (entryValues entries), rest)
    | '"' :: _ => (spanText? text).map fun (s, rest) => (.text (String.ofList s), rest)
    | '\'' :: _ => (spanText? text).map fun (s, rest) => (.text (String.ofList s), rest)
    | _ => spanSimple? text

/-- The items of a list up to its closing bracket, and the rest. Items may stand on lines of their own, and a
comma may follow the last. -/
def spanItems? : (steps : Nat) → (room : Nat) → List Char → Option (List Value × List Char)
  | 0, _, _ => none
  | steps + 1, room, text =>
    match dropFiller (text.length + 1) text with
    | ']' :: rest => some ([], rest)
    | text => do
      let (item, rest) ← spanValue? steps room text
      match dropFiller (rest.length + 1) rest with
      | ',' :: rest =>
        let (items, rest) ← spanItems? steps room rest
        some (item :: items, rest)
      | ']' :: rest => some ([item], rest)
      | _ => none

/-- The entries of a table in braces up to its closing brace, added to those before them, and the rest. The
table is written on one line, and no comma follows its last entry. -/
def spanPairs? : (steps : Nat) → (room : Nat) → Entries → List Char → Option (Entries × List Char)
  | 0, _, _, _ => none
  | steps + 1, room, entries, text => do
    let (path, key, rest) ← spanPath? text
    match rest with
    | '=' :: rest =>
      let (value, rest) ← spanValue? steps room (dropBlanks rest)
      let entries ← entries.assign? path key value
      match dropBlanks rest with
      | ',' :: rest => spanPairs? steps room entries rest
      | '\x7d' :: rest => some (entries, rest)
      | _ => none
    | _ => none

end

/-- A document of which some lines have been read. -/
structure Draft where
  /-- The entries of the outermost table. -/
  entries : Entries
  /-- The table that the next keys are set in. -/
  current : List String

/-- The draft before the first line. -/
def Draft.blank : Draft := ⟨[], []⟩

/-- A key set to a value in the current table. -/
def Draft.assign? (draft : Draft) (path : List String) (key : String) (value : Value) : Option Draft := do
  let entries ← Entries.alter? .passed (fun _ inner => inner.assign? path key value) draft.current .written
    draft.entries
  some { draft with entries }

/-- A table opened by its header. -/
def Draft.openTable? (draft : Draft) (path : List String) (key : String) : Option Draft := do
  some ⟨← draft.entries.openTable? path key, path ++ [key]⟩

/-- A further table of a list opened by its header. -/
def Draft.openElement? (draft : Draft) (path : List String) (key : String) : Option Draft := do
  some ⟨← draft.entries.openElement? path key, path ++ [key]⟩

/-- A line that is a header or a key with its value, and what follows its end. -/
def Draft.spanLine? (draft : Draft) : List Char → Option (Draft × List Char)
  | '[' :: '[' :: rest => do
    let (path, key, rest) ← spanPath? rest
    match rest with
    | ']' :: ']' :: rest => some (← draft.openElement? path key, ← endLine? rest)
    | _ => none
  | '[' :: rest => do
    let (path, key, rest) ← spanPath? rest
    match rest with
    | ']' :: rest => some (← draft.openTable? path key, ← endLine? rest)
    | _ => none
  | text => do
    let (path, key, rest) ← spanPath? text
    match rest with
    | '=' :: rest =>
      let (value, rest) ← spanValue? (rest.length + 1) mostNested (dropBlanks rest)
      some (← draft.assign? path key value, ← endLine? rest)
    | _ => none

/-- All lines of a text. -/
def Draft.readLines? : (steps : Nat) → Draft → List Char → Option Draft
  | 0, _, _ => none
  | steps + 1, draft, text =>
    match dropFiller (text.length + 1) text with
    | [] => some draft
    | line => do
      let (draft, rest) ← draft.spanLine? line
      draft.readLines? steps rest

/-- A text without the byte order mark that may stand in front of it. -/
def dropMark : List Char → List Char
  | '\uFEFF' :: rest => rest
  | text => text

/-- The entries of a document's outermost table; nothing, if the text is no document. The outermost table
cannot stand for a moment. -/
def Document.ofText? (text : List Char) : Option (List (String × Value)) := do
  let text := dropMark text
  let draft ← Draft.blank.readLines? (text.length + 1) text
  match ← (Value.table (entryValues draft.entries)).settle? with
  | .table entries => some entries
  | _ => none

end FlightPlanner.Toml
