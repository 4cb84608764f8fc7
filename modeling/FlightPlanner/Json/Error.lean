import FlightPlanner.Decimal.Layout
import FlightPlanner.Text.Quoted

/-!
# What can be wrong with a document

A text may break off too early or may be no document at all; these are faults of the text. A document may
also hold something else than what is read from it; that is a mismatch, which says what was found and what
was wanted. Faults have no wording, mismatches have one.
-/

namespace FlightPlanner.Json

/-- What is wrong with a text that is no document. -/
inductive Fault where
  /-- It has a character, a number or an escape where none such may stand, or is nested too deeply. -/
  | malformed
  /-- It ends before the document does. -/
  | truncated
deriving DecidableEq, Repr

/-- What is wrong in one place of a text, for those who want something there. -/
structure Break where
  /-- The fault for one who reads a value. -/
  read : Fault
  /-- The fault for one who passes over a value. -/
  skip : Fault
  /-- The fault for one who reads the name of an alternative. -/
  name : Fault
deriving DecidableEq, Repr

/-- The same fault for everyone. -/
def Break.all (fault : Fault) : Break := ⟨fault, fault, fault⟩

/-- A value as a mismatch shows it. -/
inductive Found where
  /-- Null. -/
  | null
  /-- A truth value. -/
  | boolean (value : Bool)
  /-- A whole number. -/
  | integer (value : Int)
  /-- A number with a fraction or an exponent, or beyond all whole ones. -/
  | real (value : Float)
  /-- A text. -/
  | text (value : String)
  /-- A list, whatever it holds. -/
  | sequence
  /-- An object, whatever it holds. -/
  | map
deriving DecidableEq

/-- The words for a value. -/
def Found.words : Found → String
  | .null => "null"
  | .boolean value => "boolean `" ++ (if value then "true" else "false") ++ "`"
  | .integer value => "integer `" ++ toString value ++ "`"
  | .real value => "floating point `" ++ Decimal.Layout.data.write value ++ "`"
  | .text value => "string " ++ Text.quoted value
  | .sequence => "sequence"
  | .map => "map"

/-- What is wanted at some place of a document. -/
inductive Wanted where
  /-- A double. -/
  | real
  /-- A whole number of one byte. -/
  | byte
  /-- A whole number of four bytes. -/
  | count
  /-- A whole number of eight bytes with a sign. -/
  | signed
  /-- A whole number of eight bytes without a sign. -/
  | size
  /-- A truth value. -/
  | boolean
  /-- A text. -/
  | text
  /-- A list. -/
  | sequence
  /-- A record. -/
  | record (title : String)
  /-- Nothing but null. -/
  | unit
  /-- A name, or an object of which it is the only key. -/
  | nameOrMap
  /-- A moment. -/
  | timestamp
deriving DecidableEq, Repr

/-- The words for what is wanted. -/
def Wanted.words : Wanted → String
  | .real => "f64"
  | .byte => "u8"
  | .count => "u32"
  | .signed => "i64"
  | .size => "usize"
  | .boolean => "a boolean"
  | .text => "a string"
  | .sequence => "a sequence"
  | .record title => "struct " ++ title
  | .unit => "unit"
  | .nameOrMap => "string or map"
  | .timestamp => "an RFC 3339 formatted date and time string"

/-- How a document differs from what is read from it. -/
inductive Mismatch where
  /-- A value of another kind than the wanted one. -/
  | kind (found : Found) (wanted : Wanted)
  /-- A whole number out of the wanted range. -/
  | range (value : Int) (wanted : Wanted)
  /-- A list that ends before the record of so many fields does. -/
  | tooShort (length : Nat) (title : String) (fields : Nat)
  /-- A list that goes on after the record of so many fields. -/
  | tooLong (length fields : Nat)
  /-- A record without a required field. -/
  | missing (name : String)
  /-- A record with one field twice. -/
  | duplicate (name : String)
  /-- A name that none of the alternatives has. -/
  | unknown (name : String) (alternatives : List String)
  /-- An object with none or several keys in the place of a name. -/
  | notOneKey
  /-- A text that denotes no moment. -/
  | badTimestamp
  /-- A text that denotes a moment beyond all that can be held. -/
  | distantTimestamp
deriving DecidableEq

/-- The wording of a mismatch. -/
def Mismatch.message : Mismatch → String
  | .kind found wanted => "invalid type: " ++ found.words ++ ", expected " ++ wanted.words
  | .range value wanted =>
    "invalid value: " ++ (Found.integer value).words ++ ", expected " ++ wanted.words
  | .tooShort length title fields =>
    "invalid length " ++ toString length ++ ", expected struct " ++ title ++ " with " ++ toString fields ++
      (if fields = 1 then " element" else " elements")
  | .tooLong length fields =>
    "invalid length " ++ toString length ++ ", expected " ++ toString fields ++
      (if fields = 1 then " element" else " elements") ++ " in sequence"
  | .missing name => "missing field `" ++ name ++ "`"
  | .duplicate name => "duplicate field `" ++ name ++ "`"
  | .unknown name alternatives =>
    "unknown variant `" ++ name ++ "`, expected one of " ++
      String.intercalate ", " (alternatives.map fun a => "`" ++ a ++ "`")
  | .notOneKey => "invalid value: map, expected map with a single key"
  | .badTimestamp => "bad timestamp"
  | .distantTimestamp => "no possible date and time matching input"

/-- Why nothing could be read from a text. -/
inductive ReadError where
  /-- The text is no document. -/
  | fault (fault : Fault)
  /-- The document holds something else. -/
  | mismatch (mismatch : Mismatch)
deriving DecidableEq

end FlightPlanner.Json
