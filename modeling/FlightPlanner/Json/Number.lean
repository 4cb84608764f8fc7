import FlightPlanner.Json.Error
import FlightPlanner.Decimal.Reading

/-!
# Numbers in documents

`Literal.span` finds the end of a written number, `Literal.value` says what it denotes. A number without a
fraction and an exponent is whole as long as eight bytes hold it. Any other number is a double, worked out in
a fixed and simple way: as many leading digits as eight bytes hold, as a double, times or over a power of
ten. Each of the two steps rounds, so numbers with many digits or great exponents can be off by a last place.
-/

namespace FlightPlanner.Json

/-- A written number. -/
structure Literal where
  /-- Whether a minus sign stands in front. -/
  negative : Bool
  /-- The digits before the point. -/
  whole : List Char
  /-- The digits after the point, where there is one. -/
  fraction : Option (List Char)
  /-- The power of ten, where there is one. -/
  power : Option Int
deriving DecidableEq, Repr

/-- A number with a character where none such may stand. -/
def Break.badNumber : Break := .all .malformed

/-- A number without a digit where one must stand, in front of what is left of the text: one who reads the
number sees that the text has ended. -/
def Break.noDigit (rest : List Char) : Break :=
  ⟨if rest.isEmpty then .truncated else .malformed, .malformed, .malformed⟩

/-- The digits before the point, and the rest. A zero stands alone. -/
def spanWhole : List Char → Except Break (List Char × List Char)
  | '0' :: rest =>
    match rest with
    | c :: _ => if c.isDigit then .error .badNumber else .ok (['0'], rest)
    | [] => .ok (['0'], rest)
  | text =>
    let (digits, rest) := Decimal.spanDigits text
    if digits.isEmpty then .error (.noDigit text) else .ok (digits, rest)

/-- The digits after a point, if there is one, and the rest. -/
def spanFraction : List Char → Except Break (Option (List Char) × List Char)
  | '.' :: rest =>
    let (digits, after) := Decimal.spanDigits rest
    if digits.isEmpty then .error (.noDigit rest) else .ok (some digits, after)
  | text => .ok (none, text)

/-- The power of ten behind its mark, if there is one, and the rest. -/
def spanPower : List Char → Except Break (Option Int × List Char)
  | [] => .ok (none, [])
  | mark :: rest =>
    if mark = 'e' || mark = 'E' then
      let (negative, rest) := Decimal.spanSign rest
      let (digits, after) := Decimal.spanDigits rest
      if digits.isEmpty then .error (.noDigit rest)
      else
        let power : Int := Decimal.ofDigits digits
        .ok (some (if negative then -power else power), after)
    else .ok (none, mark :: rest)

/-- The number in front of a text that starts with a digit or a minus sign, and the rest. -/
def Literal.span (text : List Char) : Except Break (Literal × List Char) := do
  let (negative, rest) := match text with
    | '-' :: rest => (true, rest)
    | _ => (false, text)
  let (whole, rest) ← spanWhole rest
  let (fraction, rest) ← spanFraction rest
  let (power, rest) ← spanPower rest
  .ok (⟨negative, whole, fraction, power⟩, rest)

/-- What a written number denotes. -/
inductive Number where
  /-- A whole number. -/
  | whole (value : Int)
  /-- A double. -/
  | real (value : Float)
deriving DecidableEq

/-- The greatest number that eight bytes hold. -/
def greatestSignificand : Nat := 0xFFFFFFFFFFFFFFFF

/-- Digits appended to a number as long as eight bytes hold the result, and the digits that are left. -/
def absorb (significand : Nat) : List Char → Nat × List Char
  | [] => (significand, [])
  | c :: rest =>
    let longer := 10 * significand + (c.toNat - '0'.toNat)
    if longer ≤ greatestSignificand then absorb longer rest else (significand, c :: rest)

/-- A power of ten as a double. -/
def powerOfTen (n : Nat) : Float := Decimal.ofDecimal 1 n

/-- The greatest power of ten that is a double. -/
def greatestPower : Int := 308

/-- A double over a power of ten; beyond the greatest one in several divisions, until nothing is left. -/
def scaleDown (x : Float) (power : Nat) : Float :=
  if power ≤ 308 then x / powerOfTen power
  else if x == 0 then x
  else scaleDown (x / powerOfTen 308) (power - 308)
termination_by power

/-- A double times a power of ten, if that is in range. -/
def scaleUp? (x : Float) (power : Nat) : Option Float :=
  if power ≤ 308 then
    let scaled := x * powerOfTen power
    if scaled.isInf then none else some scaled
  else if x == 0 then some x
  else none

/-- The double of leading digits and a power of ten, if it is in range. -/
def scaled? (significand : Nat) (power : Int) : Option Float :=
  let x := Binary64.ofNat significand
  if 0 ≤ power then scaleUp? x power.toNat else some (scaleDown x (-power).toNat)

/-- The double of a written number that is not whole, if it is in range. Leading digits that eight bytes do
not hold any more only count as places; those after the point do not count at all. -/
def Literal.real? (n : Literal) : Option Float :=
  let (significand, unread) := absorb 0 n.whole
  let fraction := n.fraction.getD []
  let (significand, dropped) := absorb significand fraction
  let places : Int := unread.length - (fraction.length - dropped.length : Nat)
  (scaled? significand (places + n.power.getD 0)).map (Decimal.signed n.negative)

/-- What a written number denotes; beyond the doubles it is a fault. Without a fraction and an exponent it is
whole, except that there is no negative zero among the whole numbers. -/
def Literal.value (n : Literal) : Except Fault Number :=
  let whole := Decimal.ofDigits n.whole
  if n.fraction.isNone && n.power.isNone && !n.negative && whole ≤ greatestSignificand then
    .ok (.whole whole)
  else if n.fraction.isNone && n.power.isNone && n.negative && 0 < whole && whole ≤ 0x8000000000000000 then
    .ok (.whole (-(whole : Int)))
  else
    match n.real? with
    | some x => .ok (.real x)
    | none => .error .malformed

end FlightPlanner.Json
