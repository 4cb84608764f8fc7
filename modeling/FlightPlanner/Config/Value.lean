import FlightPlanner.Config.KeyPath
import FlightPlanner.Keyed

/-!
# Configured values

What a configuration holds, and how one source of values is laid over those before it, key by key: a table
adds its entries to a table that is there already, and everything else takes the place of what was there.
Values remember where they came from; a table that grew from several sources does not.
-/

namespace FlightPlanner.Config

/-- Where a value came from. -/
inductive Origin where
  /-- A file, by its path. -/
  | file (path : String)
  /-- A variable of the environment. -/
  | environment
deriving DecidableEq, Repr

/-- A value without parts. -/
inductive Scalar where
  /-- Nothing at all, in a list with gaps. -/
  | nothing
  /-- A truth value. -/
  | boolean (value : Bool)
  /-- A whole number. -/
  | integer (value : Int)
  /-- A double. -/
  | real (value : Float)
  /-- A text. -/
  | text (value : String)
deriving DecidableEq

/-- A configured value. -/
inductive Value where
  /-- A value without parts. -/
  | leaf (origin : Option Origin) (scalar : Scalar)
  /-- A list. -/
  | list (origin : Option Origin) (items : List Value)
  /-- A table. -/
  | table (origin : Option Origin) (entries : List (String × Value))

/-- Values by key, as one source gives them. -/
abbrev Entries := Keyed Value

namespace Value

/-- A table without entries. -/
def empty : Value := .table none []

/-- A gap in a list. -/
def gap : Value := .leaf none .nothing

/-- What stands at a key; nothing where there is no table. -/
def child? : Value → String → Option Value
  | .table _ entries, key => entries.lookup key
  | _, _ => none

/-- A table with a key set; anything else gives way to a table. -/
def setChild (below : Value) (key : String) (value : Value) : Value :=
  match below with
  | .table origin entries => .table origin (Keyed.set key value entries)
  | _ => .table none [(key, value)]

/-- In what a key was set in, the key leads to its value. -/
theorem child?_setChild (below value : Value) (key : String) :
    (below.setChild key value).child? key = some value := by
  cases below <;> simp [setChild, child?, Keyed.lookup_set]

/-- In a table another key leads to what it led to before. -/
theorem child?_setChild_of_ne (origin : Option Origin) (entries : Entries) (value : Value) {key name : String}
    (h : name ≠ key) :
    ((table origin entries).setChild key value).child? name = (table origin entries).child? name := by
  simp [setChild, child?, Keyed.lookup_set, h]

mutual

/-- A value laid over what may be there already. -/
def overlay (below : Option Value) : Value → Value
  | .table _ entries => overlayEntries (below.getD empty) entries
  | .list origin items => .list origin items
  | .leaf origin scalar => .leaf origin scalar

/-- Entries laid over a value one after the other, under their keys in small letters. -/
def overlayEntries (below : Value) : List (String × Value) → Value
  | [] => below
  | (key, value) :: rest =>
    overlayEntries (below.setChild (foldKey key) (overlay (below.child? (foldKey key)) value)) rest

end

/-- The items of a list and where it came from; anything else gives way to a list without items. -/
def itemsOf : Option Value → Option Origin × List Value
  | some (.list origin items) => (origin, items)
  | _ => (none, [])

/-- The items of a list and the place in it that is counted from its start, or below nought from its end. A
list that is too short grows by gaps at the side where it is. -/
def reach (place : Int) (items : List Value) : List Value × Nat :=
  match place with
  | .ofNat i => (items ++ List.replicate (i + 1 - items.length) gap, i)
  | .negSucc i => (List.replicate (i + 1 - items.length) gap ++ items, items.length - (i + 1))

/-- A value set at the end of a path, below what may be there already. On the way, whatever is no table or no
list gives way to one. A table is laid over what stands at a key, but takes a place in a list for itself. -/
def setAt (value : Value) : List Step → Option Value → Value
  | [], old => overlay old value
  | .child key :: path, old =>
    let table := old.getD empty
    table.setChild (foldKey key) (setAt value path (table.child? (foldKey key)))
  | .index place :: path, old =>
    let (origin, items) := itemsOf old
    let (items, i) := reach place items
    .list origin (items.set i (if path.isEmpty then value else setAt value path items[i]?))

/-- A source of values laid over those before it; its keys are paths. -/
def add (root : Value) (source : Entries) : Value :=
  source.foldl (fun root (key, value) => setAt value (pathOf key) (some root)) root

/-- Sources laid over each other, each over those before it. -/
def ofSources (sources : List Entries) : Value := sources.foldl add empty

/-- What a table holds, as a source of values. -/
def entries : Value → Entries
  | .table _ entries => entries
  | _ => []

end Value

end FlightPlanner.Config
