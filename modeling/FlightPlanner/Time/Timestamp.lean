import FlightPlanner.Time.Date
import FlightPlanner.Decimal.Reading
import FlightPlanner.Decimal.Layout
import FlightPlanner.Text.Blank

/-!
# Moments

A moment in universal time to the nanosecond, with room for leap seconds. `Timestamp.text` writes it in the
internet form, with as few of zero, three, six or nine places as lose nothing; `Timestamp.ofText` reads that
form and its relatives: blanks between the parts, a small `t` or a space before the time, any offset from
universal time, years of any length behind a sign. What is read keeps to the years that can be held, by the
clocks of the place and in universal time.
-/

namespace FlightPlanner.Time

/-- A moment in universal time. -/
structure Timestamp where
  /-- The day. -/
  date : Date
  /-- The hour. -/
  hour : Nat
  /-- The minute. -/
  minute : Nat
  /-- The second; the sixtieth is a leap second. -/
  second : Nat
  /-- The nanosecond. -/
  nanosecond : Nat
  /-- The day has such an hour. -/
  hour_lt : hour < 24
  /-- The hour has such a minute. -/
  minute_lt : minute < 60
  /-- The minute may have such a second. -/
  second_le : second ≤ 60
  /-- The second has such a nanosecond. -/
  nanosecond_lt : nanosecond < 1000000000
deriving DecidableEq

namespace Timestamp

/-- The moment with the given numbers, if there is one. -/
def ofNumbers? (date : Date) (hour minute second nanosecond : Nat) : Option Timestamp :=
  if h : (hour < 24 ∧ minute < 60) ∧ second ≤ 60 ∧ nanosecond < 1000000000 then
    some ⟨date, hour, minute, second, nanosecond, h.1.1, h.1.2, h.2.1, h.2.2⟩
  else none

/-- The moment from which seconds are counted. -/
def epoch : Timestamp := ⟨.epoch, 0, 0, 0, 0, by decide, by decide, by decide, by decide⟩

/-- The moment a number of seconds from the epoch, leap seconds aside. -/
def ofSeconds (seconds : Int) : Timestamp :=
  let rest := (seconds % 86400).toNat
  (ofNumbers? (.ofDayNumber (seconds / 86400)) (rest / 3600) (rest / 60 % 60) (rest % 60) 0).getD epoch

/-- The number of whole seconds from the epoch; a leap second counts as the one before it. -/
def seconds (t : Timestamp) : Int :=
  t.date.dayNumber * 86400 + t.hour * 3600 + t.minute * 60 + min t.second 59

/-- A number in at least so many digits. -/
def padded (width n : Nat) : String :=
  let digits := toString n
  Decimal.zeros (width - digits.length) ++ digits

/-- A year in four digits, or behind its sign where these do not suffice. -/
def yearText (year : Int) : String :=
  if 0 ≤ year && year ≤ 9999 then padded 4 year.toNat
  else (if year < 0 then "-" else "+") ++ padded 4 year.natAbs

/-- A part of a second in the fewest places that lose nothing, in steps of three. -/
def fractionText (nanosecond : Nat) : String :=
  if nanosecond = 0 then ""
  else if nanosecond % 1000000 = 0 then "." ++ padded 3 (nanosecond / 1000000)
  else if nanosecond % 1000 = 0 then "." ++ padded 6 (nanosecond / 1000)
  else "." ++ padded 9 nanosecond

/-- The written form of a moment. -/
def text (t : Timestamp) : String :=
  yearText t.date.year ++ "-" ++ padded 2 t.date.month ++ "-" ++ padded 2 t.date.day ++ "T" ++
    padded 2 t.hour ++ ":" ++ padded 2 t.minute ++ ":" ++ padded 2 t.second ++
    fractionText t.nanosecond ++ "Z"

/-- A number in front of a text, of one digit up to so many, after any blanks. -/
def spanNumber? (width : Nat) (text : List Char) : Option (Nat × List Char) :=
  let text := Text.trimStart text
  let digits := (text.take width).takeWhile Char.isDigit
  if digits.isEmpty then none else some (Decimal.ofDigits digits, text.drop digits.length)

/-- A year in front of a text, after any blanks: up to four digits, or any number of them behind a sign. -/
def spanYear? (text : List Char) : Option (Int × List Char) :=
  match Text.trimStart text with
  | '-' :: rest =>
    let (digits, rest) := Decimal.spanDigits rest
    if digits.isEmpty then none else some (-(Decimal.ofDigits digits : Int), rest)
  | '+' :: rest =>
    let (digits, rest) := Decimal.spanDigits rest
    if digits.isEmpty then none else some (Decimal.ofDigits digits, rest)
  | rest => (spanNumber? 4 rest).map fun (year, rest) => (year, rest)

/-- A separating character in front of a text, after any blanks. -/
def spanMark? (mark : Char) (text : List Char) : Option (List Char) :=
  match Text.trimStart text with
  | c :: rest => if c = mark then some rest else none
  | [] => none

/-- The part of a second in front of a text, as nanoseconds; nine places count, further ones are passed over. -/
def spanFraction? : List Char → Option (Nat × List Char)
  | '.' :: rest =>
    let (digits, rest) := Decimal.spanDigits rest
    if digits.isEmpty then none
    else
      let counted := digits.take 9
      some (Decimal.ofDigits counted * Nat.pow 10 (9 - counted.length), rest)
  | rest => some (0, rest)

/-- The minutes in an offset of two digits each for hours and minutes, with colons or blanks between them. -/
def spanHoursMinutes? (text : List Char) : Option (Nat × List Char) :=
  match text with
  | h :: i :: rest =>
    if h.isDigit && i.isDigit then
      match rest.dropWhile (fun c => c = ':' || Text.isBlank c) with
      | m :: n :: rest =>
        if m.isDigit && n.isDigit && Decimal.ofDigits [m] < 6 then
          some (60 * Decimal.ofDigits [h, i] + Decimal.ofDigits [m, n], rest)
        else none
      | _ => none
    else none
  | _ => none

/-- The offset from universal time in front of a text, in minutes, after any blanks. -/
def spanOffset? (text : List Char) : Option (Int × List Char) :=
  match Text.trimStart text with
  | c :: rest =>
    if (c :: rest.take 2).map Char.toLower = ['u', 't', 'c'] then some (0, rest.drop 2)
    else if c = 'Z' || c = 'z' then some (0, rest)
    else if c = '+' then (spanHoursMinutes? rest).map fun (n, rest) => ((n : Int), rest)
    else if c = '-' || c = '\u2212' then (spanHoursMinutes? rest).map fun (n, rest) => (-(n : Int), rest)
    else none
  | [] => none

/-- A moment given by the local date and time of a place and the minutes by which its clocks are ahead of
universal time, less than a day. -/
def ofLocal? (date : Date) (hour minute second nanosecond : Nat) (offset : Int) : Option Timestamp :=
  if 24 ≤ hour || 60 ≤ minute || 1440 ≤ offset.natAbs then none
  else
    let minutes := (60 * hour + minute : Int) - offset
    let day := if minutes < 0 then date.previous else if 1440 ≤ minutes then date.next else date
    let rest := (minutes % 1440).toNat
    ofNumbers? day (rest / 60) (rest % 60) second nanosecond

/-- Whether a year lies between the least and the greatest one that can be held. -/
def holdsYear (year : Int) : Bool := -262143 ≤ year && year ≤ 262142

/-- Why a text denotes no moment. -/
inductive Unreadable where
  /-- It has not the form of one, or there is no such day or time in the years that can be held. -/
  | noMoment
  /-- In universal time the moment lies beyond these years. -/
  | distant
deriving DecidableEq, Repr

/-- The mark between date and time in front of a text. -/
def spanTimeMark? : List Char → Option (List Char)
  | c :: rest => if c = 't' || c = 'T' || c = ' ' then some rest else none
  | [] => none

/-- The moment a text denotes, whatever its year in universal time. -/
def read? (text : String) : Option Timestamp := do
  let (year, rest) ← spanYear? text.toList
  let rest ← spanMark? '-' rest
  let (month, rest) ← spanNumber? 2 rest
  let rest ← spanMark? '-' rest
  let (day, rest) ← spanNumber? 2 rest
  let rest ← spanTimeMark? rest
  let (hour, rest) ← spanNumber? 2 rest
  let rest ← spanMark? ':' rest
  let (minute, rest) ← spanNumber? 2 rest
  let rest ← spanMark? ':' rest
  let (second, rest) ← spanNumber? 2 rest
  let (nanosecond, rest) ← spanFraction? rest
  let (offset, rest) ← spanOffset? rest
  if (Text.trimStart rest).isEmpty && holdsYear year then
    ofLocal? (← Date.ofNumbers? year month day) hour minute second nanosecond offset
  else none

/-- The moment a text denotes. -/
def ofText (text : String) : Except Unreadable Timestamp :=
  match read? text with
  | some moment => if holdsYear moment.date.year then .ok moment else .error .distant
  | none => .error .noMoment

end Timestamp

end FlightPlanner.Time
