import FlightPlanner.Binary64.Basic

/-!
# Decimals read as doubles

`ofDecimal` gives the double nearest to a decimal, of two equally near ones the one with the even mantissa.
`Numeral` is the common written form of a decimal: a sign, digits, digits after a point and a power of ten;
`readReal?` reads the free form in which a point needs digits on one side only and in which infinities and
what is not a number have words.
-/

namespace FlightPlanner.Decimal

/-- The number that a run of digits denotes. -/
def ofDigits (digits : List Char) : Nat :=
  digits.foldl (fun n c => 10 * n + (c.toNat - '0'.toNat)) 0

/-- The double nearest to `digits * 10 ^ exponent`, an infinity where that is out of range. -/
def ofDecimal (digits : Nat) (exponent : Int) : Float := .ofModel (.ofScientific digits exponent)

/-- A double with the given sign put in front. -/
def signed (negative : Bool) (x : Float) : Float := if negative then -x else x

/-- A written decimal: digits, digits after a point, and a power of ten. -/
structure Numeral where
  /-- Whether a minus sign stands in front. -/
  negative : Bool
  /-- The digits before the point. -/
  whole : List Char
  /-- The digits after the point. -/
  fraction : List Char
  /-- The power of ten written behind them. -/
  power : Int
deriving DecidableEq, Repr

/-- The double nearest to a written decimal. -/
def Numeral.toFloat (n : Numeral) : Float :=
  signed n.negative (ofDecimal (ofDigits (n.whole ++ n.fraction)) (n.power - n.fraction.length))

/-- The leading digits of a text, and the rest. -/
def spanDigits (text : List Char) : List Char × List Char :=
  (text.takeWhile Char.isDigit, text.dropWhile Char.isDigit)

/-- The optional sign in front of a text, and the rest. -/
def spanSign : List Char → Bool × List Char
  | '-' :: rest => (true, rest)
  | '+' :: rest => (false, rest)
  | rest => (false, rest)

/-- A power of ten that fills the whole text: nothing, or a mark, an optional sign and digits. -/
def readPower? : List Char → Option Int
  | [] => some 0
  | mark :: rest =>
    if mark = 'e' || mark = 'E' then
      let (negative, digits) := spanSign rest
      if digits.isEmpty || !digits.all Char.isDigit then none
      else some (if negative then -(ofDigits digits : Int) else ofDigits digits)
    else none

/-- A decimal in digits that fills the whole text; it has a digit before the point or after it. -/
def readNumeral? (negative : Bool) (text : List Char) : Option Numeral :=
  let (whole, rest) := spanDigits text
  let (fraction, rest) := match rest with
    | '.' :: rest => spanDigits rest
    | _ => ([], rest)
  if whole.isEmpty && fraction.isEmpty then none
  else (readPower? rest).map (⟨negative, whole, fraction, ·⟩)

/-- A double in its free form: an optional sign in front of a decimal or of a word for an infinity or for
what is not a number, the words in letters of either case. -/
def readReal? (text : String) : Option Float :=
  let (negative, rest) := spanSign text.toList
  let word := rest.map Char.toLower
  if word = "inf".toList || word = "infinity".toList then some (Binary64.infinity negative)
  else if word = "nan".toList then some Binary64.nan
  else (readNumeral? negative rest).map Numeral.toFloat

/-- A whole number that fills the text: an optional sign and digits. -/
def readInt? (text : List Char) : Option Int :=
  let (negative, digits) := spanSign text
  if digits.isEmpty || !digits.all Char.isDigit then none
  else some (if negative then -(ofDigits digits : Int) else ofDigits digits)

/-- A whole number, if it fits into sixty-four bits with a sign. -/
def within64? (n : Int) : Option Int :=
  if -0x8000000000000000 ≤ n && n < 0x8000000000000000 then some n else none

/-- A number without a sign below zero that fills the text: an optional plus sign and digits. -/
def readNat? : List Char → Option Nat
  | '+' :: digits => if digits.isEmpty || !digits.all Char.isDigit then none else some (ofDigits digits)
  | digits => if digits.isEmpty || !digits.all Char.isDigit then none else some (ofDigits digits)

end FlightPlanner.Decimal
