/-!
# Doubles seen exactly

A double is a sign, a whole mantissa and a power of two, an infinity, or not a number. This module reads
that view off a `Float`, packs an exact value back with one rounding to nearest (ties to the even
mantissa), and defines the few operations of the planner that core keeps opaque: the whole part, the
remainder and the nearest whole number. All of them are integer arithmetic on the exact view; the four
arithmetic operations, the square root and the comparisons are core's own.
-/

namespace FlightPlanner.Binary64

/-- What a double stands for. -/
inductive Value where
  /-- No number at all. -/
  | nan
  /-- An infinity, below all numbers when `negative` and above them otherwise. -/
  | infinite (negative : Bool)
  /-- The number `mantissa * 2 ^ exponent`, negated when `negative`; zero has mantissa zero. -/
  | finite (negative : Bool) (mantissa : Nat) (exponent : Int)
deriving DecidableEq, Repr

/-- The sign bit of a packed double. -/
def signOf (negative : Bool) : Float.Model.UnpackedFloat.Sign :=
  if negative then .negative else .positive

/-- Whether a sign bit is set. -/
def isNegative : Float.Model.UnpackedFloat.Sign → Bool
  | .negative => true
  | .positive => false

/-- The exact view of a double. -/
def view (x : Float) : Value :=
  match x.toModel.unpack with
  | .notANumber => .nan
  | .infinity sign => .infinite (isNegative sign)
  | .zero sign => .finite (isNegative sign) 0 0
  | .finite sign mantissa exponent _ => .finite (isNegative sign) mantissa exponent

/-- The double nearest to `mantissa * 2 ^ exponent`, negated when `negative`; of two equally near ones
the one with the even mantissa, and an infinity beyond the greatest double. -/
def nearest (negative : Bool) (mantissa : Nat) (exponent : Int) : Float :=
  if mantissa = 0 then
    .ofModel (.pack (.zero (signOf negative)))
  else
    .ofModel (.pack (.round .binary64 (signOf negative) mantissa exponent))

/-- The double nearest to a natural number. -/
def ofNat (n : Nat) : Float := nearest false n 0

/-- An infinity of the given sign. -/
def infinity (negative : Bool) : Float := .ofModel (.pack (.infinity (signOf negative)))

/-- The double that is not a number. -/
def nan : Float := .ofModel (.pack .notANumber)

/-- The number of units of size `2 ^ exponent` in one, for a negative exponent. -/
def unitsPerOne (exponent : Int) : Nat := Nat.pow 2 (-exponent).toNat

/-- The part of a double before the point, with its sign; infinities and `nan` are kept. -/
def wholePart (x : Float) : Float :=
  match view x with
  | .finite negative mantissa exponent =>
    if 0 ≤ exponent then x else nearest negative (mantissa / unitsPerOne exponent) 0
  | _ => x

/-- The whole number nearest to a double, halves going up, brought into the range from zero to `limit`;
what is not a number counts as zero. -/
def nearestNat (limit : Nat) (x : Float) : Nat :=
  match view x with
  | .nan => 0
  | .infinite negative => if negative then 0 else limit
  | .finite negative mantissa exponent =>
    if negative then 0
    else if 0 ≤ exponent then min limit (mantissa * Nat.pow 2 exponent.toNat)
    else min limit ((2 * mantissa + unitsPerOne exponent) / (2 * unitsPerOne exponent))

/-- The double itself when it is above zero, and zero otherwise, also for what is not a number. -/
def atLeastZero (x : Float) : Float := if 0 < x then x else 0

/-- The exact remainder of a division that truncates its quotient; it has the sign of the dividend. An
infinite dividend, a zero divisor or an operand that is not a number leaves no number. -/
def remainder (x y : Float) : Float :=
  match view x, view y with
  | .finite negative m e, .finite _ n f =>
    if n = 0 then nan
    else
      let low := min e f
      let dividend := m * Nat.pow 2 (e - low).toNat
      let divisor := n * Nat.pow 2 (f - low).toNat
      nearest negative (dividend % divisor) low
  | .finite .., .infinite _ => x
  | _, _ => nan

/-- Half a turn in radians. -/
def pi : Float := 3.141592653589793

/-- Degrees as radians: one multiplication by the double nearest to the quotient of the doubles. -/
def radians (degrees : Float) : Float := degrees * (pi / 180)

/-- Radians as degrees: one multiplication by the double nearest to the quotient of the doubles. -/
def degrees (radians : Float) : Float := radians * (180 / pi)

end FlightPlanner.Binary64
