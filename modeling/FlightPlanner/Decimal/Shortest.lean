import FlightPlanner.Binary64.Basic

/-!
# The fewest digits that read back

Many decimals round to a given double. This module finds one with the fewest digits and, among those, the
one nearest to the double. The decimals that round to `mantissa * 2 ^ exponent` fill an interval around it;
on each grid of powers of ten only the two neighbours of the number itself have to be tried, so the search
goes from coarse grids to finer ones and stops at the first hit. All comparisons are between natural
numbers. Signs, zero and the texts are left to `Decimal.Layout`.
-/

namespace FlightPlanner.Decimal

/-- The decimal `digits * 10 ^ exponent`. -/
structure Digits where
  /-- The digits, read as one number. -/
  digits : Nat
  /-- The power of ten of the last digit. -/
  exponent : Int
deriving DecidableEq, Repr

/-- Which of two equally near decimals is taken. -/
inductive Tie where
  /-- The greater one. -/
  | up
  /-- The one whose last digit is even. -/
  | even
deriving DecidableEq, Repr

/-- The decimals that round to a double, in units of a quarter of its last place: the double itself, the two
ends of the interval, and whether these belong to it. -/
structure Interval where
  /-- The lower end. -/
  low : Nat
  /-- The double. -/
  middle : Nat
  /-- The upper end. -/
  high : Nat
  /-- Whether the ends round to the double; they do when its mantissa is even. -/
  closed : Bool
  /-- The power of two of the unit. -/
  exponent : Int
deriving DecidableEq, Repr

/-- The interval of a positive double. Below a power of two the neighbouring double is only half as far away
as above it, except at the bottom of the range. -/
def Interval.around (mantissa : Nat) (exponent : Int) : Interval where
  low := if mantissa = 0x10000000000000 ∧ -1074 < exponent then 4 * mantissa - 1 else 4 * mantissa - 2
  middle := 4 * mantissa
  high := 4 * mantissa + 2
  closed := mantissa % 2 = 0
  exponent := exponent - 2

/-- The number of units of the interval times this numerator, over the matching denominator, is that length
in steps of the grid of `10 ^ grid`. -/
def Interval.numerator (i : Interval) (grid : Int) : Nat :=
  Nat.pow 2 i.exponent.toNat * Nat.pow 10 (-grid).toNat

/-- The denominator that belongs to `Interval.numerator`. -/
def Interval.denominator (i : Interval) (grid : Int) : Nat :=
  Nat.pow 2 (-i.exponent).toNat * Nat.pow 10 grid.toNat

/-- Whether `point * 10 ^ grid` rounds to the double. -/
def Interval.contains (i : Interval) (grid : Int) (point : Nat) : Bool :=
  let place := point * i.denominator grid
  let low := i.low * i.numerator grid
  let high := i.high * i.numerator grid
  if i.closed then low ≤ place ∧ place ≤ high else low < place ∧ place < high

/-- The best point of one grid, if any point of it rounds to the double. -/
def Interval.pick? (tie : Tie) (i : Interval) (grid : Int) : Option Nat :=
  let below := i.middle * i.numerator grid / i.denominator grid
  let above := below + 1
  match i.contains grid below, i.contains grid above with
  | false, false => none
  | true, false => some below
  | false, true => some above
  | true, true =>
    match compare (2 * i.middle * i.numerator grid) ((below + above) * i.denominator grid) with
    | .lt => some below
    | .gt => some above
    | .eq => match tie with
      | .up => some above
      | .even => some (if below % 2 = 0 then below else above)

/-- The first hit from the grid of `10 ^ grid` down to finer ones, in at most `steps` steps; where these do
not suffice, the point below the number on the last grid. -/
def Interval.search (tie : Tie) (i : Interval) : (steps : Nat) → (grid : Int) → Digits
  | 0, grid => ⟨i.middle * i.numerator grid / i.denominator grid, grid⟩
  | steps + 1, grid => match i.pick? tie grid with
    | some point => ⟨point, grid⟩
    | none => i.search tie steps (grid - 1)

/-- A power of ten above `mantissa * 2 ^ exponent`, by at most two places too great: a hundred thousand times
the decimal logarithm of two is just below 30103. -/
def gridAbove (mantissa : Nat) (exponent : Int) : Int :=
  (mantissa.log2 + 1 + exponent) * 30103 / 100000 + 1

/-- The fewest digits that read back as the positive double `mantissa * 2 ^ exponent`. Seventeen digits
always do, so the search needs no more steps than it is given. -/
def shortest (tie : Tie) (mantissa : Nat) (exponent : Int) : Digits :=
  (Interval.around mantissa exponent).search tie 24 (gridAbove mantissa exponent)

end FlightPlanner.Decimal
