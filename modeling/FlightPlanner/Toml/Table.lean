import FlightPlanner.Keyed
import FlightPlanner.Toml.Moment

/-!
# Tables of TOML

How keys and headers build tables. A table may be written out under a header or in braces, it may come into
being because a header names a table inside it, or because a key with points does; the three kinds differ in
what may still be added to them. No key is set twice.
-/

namespace FlightPlanner.Toml

/-- A value of a document. -/
inductive Value where
  /-- A text. -/
  | text (value : String)
  /-- A whole number. -/
  | integer (value : Int)
  /-- A double. -/
  | real (value : Float)
  /-- A truth value. -/
  | boolean (value : Bool)
  /-- A day, a time of day or both, in its written form. -/
  | moment (value : String)
  /-- A list. -/
  | list (items : List Value)
  /-- A table. -/
  | table (entries : List (String × Value))

/-- How a table came into being. -/
inductive Standing where
  /-- It was written out. -/
  | written
  /-- A header named a table inside it. -/
  | passed
  /-- A key with points named something inside it. -/
  | dotted
deriving DecidableEq, Repr

/-- What a key stands for while a document is read. -/
inductive Item where
  /-- A value, to which nothing can be added. -/
  | value (value : Value)
  /-- A table. -/
  | table (standing : Standing) (entries : List (String × Item))
  /-- A list of tables, of which the last may still grow. -/
  | tables (elements : List (List (String × Item)))

/-- The entries of a table while a document is read. -/
abbrev Entries := Keyed Item

/-- What a key stands for. -/
def Entries.get? (entries : Entries) (key : String) : Option Item := entries.lookup key

/-- A change inside the table that a path leads to. A table that is not there comes into being in the given
way; a key with points does not lead into a table that was written out, and nothing leads into a value. Into
a list of tables the path leads to its last one. -/
def Entries.alter? (through : Standing) (change : Standing → Entries → Option Entries) :
    List String → Standing → Entries → Option Entries
  | [], standing, entries => change standing entries
  | key :: path, _, entries =>
    match entries.get? key with
    | none => do
      let inner ← Entries.alter? through change path through []
      some (Keyed.set key (.table through inner) entries)
    | some (.value _) => none
    | some (.table standing inner) =>
      if through = .dotted && standing = .written then none
      else do
        let inner ← Entries.alter? through change path standing inner
        some (Keyed.set key (.table standing inner) entries)
    | some (.tables elements) => do
      let last ← elements.getLast?
      let last ← Entries.alter? through change path .written last
      some (Keyed.set key (.tables (elements.dropLast ++ [last])) entries)

/-- A key set to a value in a table in which it is not set yet. -/
def Entries.add? (key : String) (value : Value) (entries : Entries) : Option Entries :=
  match entries.get? key with
  | some _ => none
  | none => some (Keyed.set key (.value value) entries)

/-- A key with points set to a value inside a table; `path` holds its parts but the last. The table that the
last part is in has to have come into being by such a key, too. -/
def Entries.assign? (path : List String) (key : String) (value : Value) (entries : Entries) : Option Entries :=
  Entries.alter? .dotted
    (fun standing inner =>
      if path.isEmpty || standing = .dotted then inner.add? key value else none)
    path .written entries

/-- A table written out under a header; `path` holds the parts of its key but the last. It may have been named
before only by headers of tables inside it; its key then becomes the last one around it. -/
def Entries.openTable? (path : List String) (key : String) (entries : Entries) : Option Entries :=
  Entries.alter? .passed
    (fun _ inner => match inner.get? key with
      | none => some (Keyed.set key (.table .written []) inner)
      | some (.table .passed old) => some (Keyed.erase key inner ++ [(key, .table .written old)])
      | some _ => none)
    path .written entries

/-- A further table in a list of tables. -/
def Entries.openElement? (path : List String) (key : String) (entries : Entries) : Option Entries :=
  Entries.alter? .passed
    (fun _ inner => match inner.get? key with
      | none => some (Keyed.set key (.tables [[]]) inner)
      | some (.tables elements) => some (Keyed.set key (.tables (elements ++ [[]])) inner)
      | some _ => none)
    path .written entries

mutual

/-- The value that a key stands for once a document is read. -/
def Item.toValue : Item → Value
  | .value value => value
  | .table _ entries => .table (entryValues entries)
  | .tables elements => .list (elementValues elements)

/-- The entries of a table once a document is read. -/
def entryValues : List (String × Item) → List (String × Value)
  | [] => []
  | (key, item) :: rest => (key, item.toValue) :: entryValues rest

/-- The tables of a list once a document is read. -/
def elementValues : List (List (String × Item)) → List Value
  | [] => []
  | entries :: rest => .table (entryValues entries) :: elementValues rest

end

/-- The key by which a table stands for a moment. -/
def momentKey : String := "$__toml_private_datetime"

/-- The moment that a value spells. -/
def Value.spelled? : Value → Option Value
  | .text value => (momentOfText? value.toList).map .moment
  | _ => none

mutual

/-- The value with a moment in place of each table that stands for one: its first key is the key of moments,
which has to lead to the text of one, and its other keys do not count. -/
def Value.settle? : Value → Option Value
  | .list items => (settleItems? items).map .list
  | .table [] => some (.table [])
  | .table ((key, value) :: rest) =>
    if key = momentKey then value.spelled?
    else do some (.table ((key, ← value.settle?) :: (← settleEntries? rest)))
  | value => some value

/-- The items of a list with their moments in place. -/
def settleItems? : List Value → Option (List Value)
  | [] => some []
  | item :: rest => do some ((← item.settle?) :: (← settleItems? rest))

/-- The entries of a table with their moments in place. -/
def settleEntries? : List (String × Value) → Option (List (String × Value))
  | [] => some []
  | (key, value) :: rest => do some ((key, ← value.settle?) :: (← settleEntries? rest))

end

end FlightPlanner.Toml
