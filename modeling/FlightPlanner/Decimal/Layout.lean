import FlightPlanner.Decimal.Shortest

/-!
# Written forms of doubles

A `Layout` settles what the fewest digits leave open: which of two equally near decimals is taken, from
which power of ten on the number is written with an exponent, and whether a whole number keeps its point.
`Layout.write` writes any double in a layout; `fixed` writes it with a given number of places, rounding the
exact value and sending a half to the even neighbour. Infinities and what is not a number have words.
-/

namespace FlightPlanner.Decimal

/-- How a double is written with the fewest digits that read back. -/
structure Layout where
  /-- Which of two equally near decimals is taken. -/
  tie : Tie
  /-- The least and the greatest power of ten of the first digit for which the number is written without an
  exponent; without bounds, no number has one. -/
  positional : Option (Int × Int)
  /-- Whether a number without a fraction keeps a point and a zero. -/
  wholePoint : Bool
deriving DecidableEq, Repr

/-- Every digit is written out and a whole number has no point. -/
def Layout.plain : Layout := ⟨.up, none, false⟩

/-- Every digit is written out and a whole number keeps its point. -/
def Layout.pointed : Layout := ⟨.up, none, true⟩

/-- The form of data files: from a hundred-thousandth up to below ten thousand million million the number is
written out with a point, and with an exponent beyond. -/
def Layout.data : Layout := ⟨.even, some (-5, 15), true⟩

/-- A sign in front of a number below zero. -/
def minus (negative : Bool) : String := if negative then "-" else ""

/-- Zeros as many as asked for. -/
def zeros (count : Nat) : String := String.ofList (List.replicate count '0')

/-- The digits written out, for a last digit at the given power of ten. -/
def Layout.writeOut (layout : Layout) (digits : String) (exponent : Int) : String :=
  if 0 ≤ exponent then
    digits ++ zeros exponent.toNat ++ (if layout.wholePoint then ".0" else "")
  else
    let places := (-exponent).toNat
    if digits.length ≤ places then
      "0." ++ zeros (places - digits.length) ++ digits
    else
      String.ofList (digits.toList.take (digits.length - places)) ++ "." ++
        String.ofList (digits.toList.drop (digits.length - places))

/-- The digits with a point after the first one and the power of ten of that one after them. -/
def writeScaled (digits : String) (power : Int) : String :=
  let fraction := digits.toList.drop 1
  String.ofList (digits.toList.take 1) ++
    (if fraction.isEmpty then "" else "." ++ String.ofList fraction) ++
    (if power < 0 then "e-" else "e+") ++ toString power.natAbs

/-- The written form of a double. -/
def Layout.write (layout : Layout) (x : Float) : String :=
  match Binary64.view x with
  | .nan => "NaN"
  | .infinite negative => minus negative ++ "inf"
  | .finite negative mantissa exponent =>
    if mantissa = 0 then minus negative ++ layout.writeOut "0" 0
    else
      let found := shortest layout.tie mantissa exponent
      let digits := toString found.digits
      let power := found.exponent + digits.length - 1
      let scaled := match layout.positional with
        | none => false
        | some (least, greatest) => power < least || greatest < power
      minus negative ++
        (if scaled then writeScaled digits power else layout.writeOut digits found.exponent)

/-- A quotient of natural numbers rounded to a whole number, a half going to the even neighbour. -/
def roundHalfEven (dividend divisor : Nat) : Nat :=
  let quotient := dividend / divisor
  match compare (2 * (dividend % divisor)) divisor with
  | .lt => quotient
  | .gt => quotient + 1
  | .eq => quotient + quotient % 2

/-- A number of units of `10 ^ -places`, written with that many digits after the point. -/
def writeUnits (places units : Nat) : String :=
  let fraction := toString (units % Nat.pow 10 places)
  toString (units / Nat.pow 10 places) ++
    (if places = 0 then "" else "." ++ zeros (places - fraction.length) ++ fraction)

/-- The exact value `mantissa * 2 ^ exponent` in units of `10 ^ -places`, rounded. -/
def unitsOf (places mantissa : Nat) (exponent : Int) : Nat :=
  roundHalfEven (mantissa * Nat.pow 2 exponent.toNat * Nat.pow 10 places) (Nat.pow 2 (-exponent).toNat)

/-- A double with a fixed number of places. -/
def fixed (places : Nat) (x : Float) : String :=
  match Binary64.view x with
  | .nan => "NaN"
  | .infinite negative => minus negative ++ "inf"
  | .finite negative mantissa exponent =>
    minus negative ++ writeUnits places (unitsOf places mantissa exponent)

end FlightPlanner.Decimal
