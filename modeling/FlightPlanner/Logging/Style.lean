import FlightPlanner.Text.Blank
import FlightPlanner.Text.Hexadecimal

/-!
# Styles of the log

In which form events are written. A style is known by its name; any other name means the compact one. Where
events are written as lines, characters that could steer a terminal are shown by their numbers.
-/

namespace FlightPlanner.Logging

/-- The form in which events are written. -/
inductive Style where
  /-- As a document. -/
  | json
  /-- On several lines. -/
  | pretty
  /-- On one line. -/
  | compact
deriving DecidableEq, Repr

/-- The name of a style. -/
def Style.name : Style → String
  | .json => "json"
  | .pretty => "pretty"
  | .compact => "compact"

/-- The style of a name, which may stand between blanks and have letters of either case. -/
def Style.ofName (name : String) : Style :=
  let word := (Text.trim name.toList).map Char.toLower
  if word = "json".toList then .json
  else if word = "pretty".toList then .pretty
  else .compact

/-- Whether a character could steer a terminal: a bell, a step back, the end of a page, an escape, a deletion
or a control beyond ASCII. -/
def isSteering (c : Char) : Bool :=
  c = '\x07' || c = '\x08' || c = '\x0c' || c = '\x1b' || (0x7F ≤ c.toNat && c.toNat ≤ 0x9F)

/-- A character as a line shows it. -/
def lineChar (c : Char) : List Char :=
  if !isSteering c then [c]
  else if c.toNat < 0x80 then ['\\', 'x', Nat.digitChar (c.toNat / 16), Nat.digitChar (c.toNat % 16)]
  else ("\\u\x7b" ++ Text.hexadecimal c.toNat ++ "\x7d").toList

/-- A message as a style shows it. -/
def Style.show (style : Style) (message : String) : String :=
  match style with
  | .json => message
  | .pretty | .compact => String.ofList (message.toList.flatMap lineChar)

/-- The name of a style leads back to it. -/
theorem Style.ofName_name (style : Style) : Style.ofName style.name = style := by
  cases style <;> decide

end FlightPlanner.Logging
