import FlightPlanner.Decimal.Reading
import FlightPlanner.Text.Blank
import FlightPlanner.Text.Bytes

/-!
# Durations

A duration is text for people. What counts of it is the number it starts with, so that `5h 15m` has the
magnitude five; a text that does not start with a number has none. The digits are those up to the first other
character; `magnitudeByPlace?` cuts them off at its place in bytes, where a cut could fail.
-/

namespace FlightPlanner.Duration

/-- The magnitude of a duration without blanks in front: an optional sign and a run of digits, whatever comes
after them. The digits give the nearest double, an infinity where they are too many. -/
def leadingNumber? (text : List Char) : Option Float :=
  let (negative, rest) := Decimal.spanSign text
  let digits := rest.takeWhile Char.isDigit
  if digits.isEmpty then none
  else
    let value := Binary64.ofNat (Decimal.ofDigits digits)
    some (if negative then -1 * value else value)

/-- The magnitude of a duration. -/
def magnitude? (label : String) : Option Float := leadingNumber? (Text.trimStart label.toList)

/-- The same with a cut at the place of the first character that is no digit, or at the end: nothing at all where the
cut fails, and otherwise the magnitude that the digits in front of the place are read as. -/
def leadingNumberByPlace? (text : List Char) : Option (Option Float) :=
  let (negative, rest) := Decimal.spanSign text
  let place := (Text.placeOf? (!Char.isDigit ·) rest).getD (Text.byteCount rest)
  if place = 0 then some none
  else
    (Text.upTo? place rest).map fun digits =>
      (Decimal.readReal? (String.ofList digits)).map ((if negative then -1 else 1) * ·)

/-- The magnitude of a duration, found by places. -/
def magnitudeByPlace? (label : String) : Option (Option Float) :=
  leadingNumberByPlace? (Text.trimStart label.toList)

end FlightPlanner.Duration
