import FlightPlanner.Binary64.Basic
import FlightPlanner.Config.Error
import FlightPlanner.Decimal.Reading

/-!
# Configured values read as settings

How a value becomes a number or a text, and how the fields of a section are found. Numbers are read
generously: truth values, doubles and texts that spell a number count as whole numbers. A section is a table
with its fields by name, or a list with its fields in order.
-/

namespace FlightPlanner.Config

/-- A value and its path. -/
structure Placed where
  /-- The path. -/
  path : List Step
  /-- The value. -/
  value : Value

/-- Where a value came from. -/
def Value.origin : Value → Option Origin
  | .leaf origin _ => origin
  | .list origin _ => origin
  | .table origin _ => origin

/-- What a value of the wrong kind is called. -/
def Value.found : Value → Found
  | .leaf _ .nothing => .nothing
  | .leaf _ (.boolean value) => .text (toString value)
  | .leaf _ (.integer value) => .integer value
  | .leaf _ (.real value) => .text (Decimal.Layout.plain.write value)
  | .leaf _ (.text value) => .text value
  | .list _ _ => .list
  | .table _ _ => .table

/-- The complaint that a value is not what is wanted. -/
def Placed.complain (part : Placed) (wanted : Wanted) : Except LoadError α :=
  .error (.mismatch part.value.found wanted part.path part.value.origin)

/-- The greatest whole number of sixty-four bits. -/
def mostUnsigned : Nat := 0xFFFFFFFFFFFFFFFF

/-- The whole number that a text spells: the words for yes and no, or digits with an optional plus sign. -/
def countOfText? (text : String) : Option Nat :=
  let word := foldKey text
  if ["true", "on", "yes"].contains word then some 1
  else if ["false", "off", "no"].contains word then some 0
  else (Decimal.readNat? text.toList).filter (· ≤ mostUnsigned)

/-- A value as a whole number of sixty-four bits without a sign. Doubles are rounded to the nearest one, a half
away from zero. -/
def Placed.toCount (part : Placed) : Except LoadError Nat :=
  match part.value with
  | .leaf _ (.boolean value) => .ok (if value then 1 else 0)
  | .leaf _ (.integer value) => if value < 0 then part.complain .unsigned else .ok value.toNat
  | .leaf _ (.real value) => .ok (Binary64.nearestNat mostUnsigned value)
  | .leaf _ (.text value) => match countOfText? value with
    | some n => .ok n
    | none => part.complain .integer
  | _ => part.complain .integer

/-- A value as a limit. -/
def Placed.toLimit (part : Placed) : Except LoadError UInt64 := part.toCount.map .ofNat

/-- A value as a weight. One that is too large is refused without a word on where it came from. -/
def Placed.toWeight (part : Placed) : Except LoadError UInt8 := do
  let n ← part.toCount
  if n < 256 then .ok (.ofNat n) else .error (.mismatch (.unsigned n) .byte part.path none)

/-- A value as a text. -/
def Placed.toText (part : Placed) : Except LoadError String :=
  match part.value with
  | .leaf _ (.boolean value) => .ok (toString value)
  | .leaf _ (.integer value) => .ok (toString value)
  | .leaf _ (.real value) => .ok (Decimal.Layout.plain.write value)
  | .leaf _ (.text value) => .ok value
  | _ => part.complain .text

/-- A field of a section: its place in the order of the fields, and its name. -/
structure Field where
  /-- The place, counted from nought. -/
  place : Nat
  /-- The name. -/
  name : String
deriving DecidableEq, Repr

/-- The value of a field, if it has one. -/
def Placed.field? (part : Placed) (field : Field) : Option Placed :=
  match part.value with
  | .table _ entries => (entries.lookup field.name).map (⟨part.path ++ [.child field.name], ·⟩)
  | .list _ items => items[field.place]?.map (⟨part.path ++ [.index field.place], ·⟩)
  | .leaf _ _ => none

/-- A field of a section, with a value of its own where none is configured. -/
def Placed.read (part : Placed) (field : Field) (convert : Placed → Except LoadError α) (standard : α) :
    Except LoadError α :=
  match part.field? field with
  | some value => convert value
  | none => .ok standard

/-- A section's value: a table or a list. -/
def Placed.asSection (part : Placed) (wanted : Section) : Except LoadError Placed :=
  match part.value with
  | .leaf _ scalar => .error (.noSection scalar wanted)
  | _ => .ok part

end FlightPlanner.Config
