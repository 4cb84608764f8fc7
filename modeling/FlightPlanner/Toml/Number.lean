import FlightPlanner.Decimal.Reading

/-!
# Numbers of TOML

Whole numbers, in digits of base ten with a sign or without one in base sixteen, eight or two, and doubles.
Single underscores may stand between digits. A whole number has to fit into sixty-four bits with a sign.
-/

namespace FlightPlanner.Toml

/-- Digits with single underscores between them, and the rest. -/
def spanGrouped (accepts : Char → Bool) : List Char → List Char × List Char
  | [] => ([], [])
  | '_' :: c :: rest =>
    if accepts c then
      let (digits, rest) := spanGrouped accepts rest
      (c :: digits, rest)
    else ([], '_' :: c :: rest)
  | c :: rest =>
    if accepts c then
      let (digits, rest) := spanGrouped accepts rest
      (c :: digits, rest)
    else ([], c :: rest)

/-- At least one digit, with single underscores between the digits, and the rest. -/
def spanDigits? (accepts : Char → Bool) : List Char → Option (List Char × List Char)
  | [] => none
  | c :: rest => if accepts c then some (spanGrouped accepts (c :: rest)) else none

/-- The digits of a whole number in base ten, and the rest: no zero stands in front of another digit. -/
def spanWhole? : List Char → Option (List Char × List Char)
  | '0' :: rest => some (['0'], rest)
  | text => spanDigits? Char.isDigit text

/-- The value of a digit of base sixteen, in letters of either case. -/
def digitValue (c : Char) : Nat :=
  if c.isDigit then c.toNat - '0'.toNat else c.toLower.toNat - 'a'.toNat + 10

/-- Whether a character is a digit in the given base, which is at most sixteen. -/
def isDigitOf (base : Nat) (c : Char) : Bool := c.isAlphanum && digitValue c < base

/-- The number that digits of the given base denote. -/
def ofDigitsIn (base : Nat) (digits : List Char) : Nat :=
  digits.foldl (fun n c => base * n + digitValue c) 0

/-- A whole number in digits of the given base, and the rest. -/
def spanBased? (base : Nat) (text : List Char) : Option (Int × List Char) := do
  let (digits, rest) ← spanDigits? (isDigitOf base) text
  some (← Decimal.within64? (ofDigitsIn base digits), rest)

/-- A whole number, and the rest. -/
def spanInteger? : List Char → Option (Int × List Char)
  | '0' :: 'x' :: rest => spanBased? 16 rest
  | '0' :: 'o' :: rest => spanBased? 8 rest
  | '0' :: 'b' :: rest => spanBased? 2 rest
  | text => do
    let (negative, rest) := Decimal.spanSign text
    let (digits, rest) ← spanWhole? rest
    let n : Int := Decimal.ofDigits digits
    some (← Decimal.within64? (if negative then -n else n), rest)

/-- The digits behind a point, none where there is no point, and the rest. -/
def spanPlaces? : List Char → Option (List Char × List Char)
  | '.' :: rest => spanDigits? Char.isDigit rest
  | rest => some ([], rest)

/-- The power of ten behind its mark, and the rest. -/
def spanPower? : List Char → Option (Int × List Char)
  | [] => some (0, [])
  | c :: rest =>
    if c = 'e' || c = 'E' then do
      let (negative, rest) := Decimal.spanSign rest
      let (digits, rest) ← spanDigits? Char.isDigit rest
      let n : Int := Decimal.ofDigits digits
      some (if negative then -n else n, rest)
    else some (0, c :: rest)

/-- Whether what follows some digits makes a double of them. -/
def isRealMark : List Char → Bool
  | c :: _ => c = '.' || c = 'e' || c = 'E'
  | [] => false

/-- A double in digits, and the rest. It has digits after its point or a power of ten; one too large above zero
is refused, one too large below zero is not. -/
def spanDecimal? (text : List Char) : Option (Float × List Char) := do
  let (negative, rest) := Decimal.spanSign text
  let (whole, rest) ← spanWhole? rest
  if isRealMark rest then
    let (places, rest) ← spanPlaces? rest
    let (power, rest) ← spanPower? rest
    let x := Decimal.Numeral.toFloat ⟨negative, whole, places, power⟩
    if x == Binary64.infinity false then none else some (x, rest)
  else none

/-- A double given by the word for infinity or for what is not a number, and the rest. -/
def spanWordReal? (text : List Char) : Option (Float × List Char) :=
  match Decimal.spanSign text with
  | (negative, 'i' :: 'n' :: 'f' :: rest) => some (Binary64.infinity negative, rest)
  | (_, 'n' :: 'a' :: 'n' :: rest) => some (Binary64.nan, rest)
  | _ => none

/-- A double, and the rest. -/
def spanReal? (text : List Char) : Option (Float × List Char) :=
  spanDecimal? text <|> spanWordReal? text

end FlightPlanner.Toml
