import FlightPlanner.Time.Timestamp

/-!
# Dates and times of TOML

A day, a time of day, or both with or without the offset of the clocks from universal time. Each of them has
one written form, which is all that is kept. A moment may also be spelled in a text.
-/

namespace FlightPlanner.Toml

/-- A number in exactly so many digits in front of a text, and the rest. -/
def spanFixed? (width : Nat) (text : List Char) : Option (Nat × List Char) :=
  let digits := text.take width
  if digits.length = width && digits.all Char.isDigit then some (Decimal.ofDigits digits, text.drop width)
  else none

/-- A number in two digits that is at most as large as given, and the rest. -/
def spanPair? (most : Nat) (text : List Char) : Option (Nat × List Char) := do
  let (n, rest) ← spanFixed? 2 text
  if n ≤ most then some (n, rest) else none

/-- What follows the given character in front of a text. -/
def spanChar? (mark : Char) : List Char → Option (List Char)
  | c :: rest => if c = mark then some rest else none
  | [] => none

/-- The written form of a day in front of a text, and the rest. -/
def spanDay? (text : List Char) : Option (String × List Char) := do
  let (year, rest) ← spanFixed? 4 text
  let (month, rest) ← spanFixed? 2 (← spanChar? '-' rest)
  let (day, rest) ← spanFixed? 2 (← spanChar? '-' rest)
  let date ← Time.Date.ofNumbers? year month day
  some (Time.Timestamp.padded 4 year ++ "-" ++ Time.Timestamp.padded 2 date.month ++ "-" ++
    Time.Timestamp.padded 2 date.day, rest)

/-- The written form of a part of a second, without zeros at its end. -/
def placesText (nanosecond : Nat) : String :=
  if nanosecond = 0 then ""
  else
    let digits := (Time.Timestamp.padded 9 nanosecond).toList
    "." ++ String.ofList (digits.reverse.dropWhile (· = '0')).reverse

/-- The written form of a time of day in front of a text, and the rest. A minute may have a sixty-first
second. -/
def spanClock? (text : List Char) : Option (String × List Char) := do
  let (hour, rest) ← spanPair? 23 text
  let (minute, rest) ← spanPair? 59 (← spanChar? ':' rest)
  let (second, rest) ← spanPair? 60 (← spanChar? ':' rest)
  let (nanosecond, rest) ← Time.Timestamp.spanFraction? rest
  some (Time.Timestamp.padded 2 hour ++ ":" ++ Time.Timestamp.padded 2 minute ++ ":" ++
    Time.Timestamp.padded 2 second ++ placesText nanosecond, rest)

/-- The written form of an offset in hours and minutes behind its sign, and the rest. -/
def spanShift? (negative : Bool) (text : List Char) : Option (String × List Char) := do
  let (hours, rest) ← spanFixed? 2 text
  let (minutes, rest) ← spanFixed? 2 (← spanChar? ':' rest)
  let total := 60 * hours + minutes
  let sign := if negative && total ≠ 0 then "-" else "+"
  if hours ≤ 23 && minutes ≤ 59 then
    some (sign ++ Time.Timestamp.padded 2 (total / 60) ++ ":" ++ Time.Timestamp.padded 2 (total % 60), rest)
  else none

/-- The written form of an offset from universal time in front of a text, and the rest; there need not be
one. -/
def spanZone? : List Char → Option (String × List Char)
  | 'Z' :: rest => some ("Z", rest)
  | 'z' :: rest => some ("Z", rest)
  | '+' :: rest => spanShift? false rest
  | '-' :: rest => spanShift? true rest
  | rest => some ("", rest)

/-- A time of day behind a day, with the letter or the space between them and the offset behind it. -/
def spanTimeOfDay? : List Char → Option (String × List Char)
  | [] => none
  | c :: rest =>
    if c = 'T' || c = 't' || c = ' ' then do
      let (clock, rest) ← spanClock? rest
      let (zone, rest) ← spanZone? rest
      some ("T" ++ clock ++ zone, rest)
    else none

/-- The written form of a day, a time of day or both in front of a text, and the rest. -/
def spanMoment? (text : List Char) : Option (String × List Char) :=
  match spanDay? text with
  | some (day, rest) => match spanTimeOfDay? rest with
    | some (time, rest) => some (day ++ time, rest)
    | none => some (day, rest)
  | none => spanClock? text

/-- The written form of a day or time, if nothing follows it. -/
def whole? : String × List Char → Option String
  | (moment, []) => some moment
  | _ => none

/-- The written form of the day, the time of day or both that a text spells. -/
def momentOfText? (text : List Char) : Option String := do
  match text[2]? with
  | some ':' => whole? (← spanClock? text)
  | _ => match ← spanDay? text with
    | (day, []) => some day
    | (day, rest) => do
      let (time, rest) ← spanTimeOfDay? rest
      whole? (day ++ time, rest)

end FlightPlanner.Toml
