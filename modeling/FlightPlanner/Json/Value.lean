import FlightPlanner.Json.Text

/-!
# Values as they are written

What goes into a document, and its text: no spaces, the members of an object in the order they are given,
doubles in the data form. There is no written form of infinities and of what is not a number; null stands in
their place.
-/

namespace FlightPlanner.Json

/-- A value to be written. -/
inductive Value where
  /-- Null. -/
  | null
  /-- A truth value. -/
  | boolean (value : Bool)
  /-- A whole number. -/
  | integer (value : Int)
  /-- A double. -/
  | real (value : Float)
  /-- A text. -/
  | text (value : String)
  /-- A list. -/
  | list (items : List Value)
  /-- An object. -/
  | object (members : List (String × Value))

/-- Something in front of each of some texts but the first, whose texts have been written already. -/
def writeRest (separator : Char) : List (List Char) → List Char
  | [] => []
  | text :: rest => separator :: text ++ writeRest separator rest

/-- Some texts with a separator between them. -/
def writeSeparated (separator : Char) : List (List Char) → List Char
  | [] => []
  | text :: rest => text ++ writeRest separator rest

mutual

/-- The text of a value. -/
def Value.write : Value → List Char
  | .null => ['n', 'u', 'l', 'l']
  | .boolean true => ['t', 'r', 'u', 'e']
  | .boolean false => ['f', 'a', 'l', 's', 'e']
  | .integer value => (toString value).toList
  | .real value => if value.isFinite then (Decimal.Layout.data.write value).toList else ['n', 'u', 'l', 'l']
  | .text value => writeText value.toList
  | .list items => '[' :: (writeSeparated ',' (writeItems items) ++ [']'])
  | .object members => '{' :: (writeSeparated ',' (writeMembers members) ++ ['}'])

/-- The texts of some values. -/
def writeItems : List Value → List (List Char)
  | [] => []
  | item :: rest => item.write :: writeItems rest

/-- The texts of some members. -/
def writeMembers : List (String × Value) → List (List Char)
  | [] => []
  | (key, value) :: rest => (writeText key.toList ++ ':' :: value.write) :: writeMembers rest

end

end FlightPlanner.Json
