/-!
# The order of bit patterns

A double is held in sixty-four bits. Patterns are finer than numbers: the two zeros differ, and what is not
a number keeps a sign bit and a payload that arithmetic carries along. This module orders all patterns:
`Pattern.rank` counts along the line of all patterns, from the negative ones that are not numbers through
the numbers in their own order (with negative zero before zero) to the positive ones that are not numbers,
and `Pattern.compareNumbersFirst` puts everything that is not a number after all numbers.
-/

namespace FlightPlanner.Binary64

/-- The sixty-four bits of a double. -/
structure Pattern where
  /-- The bits, the sign being the highest one. -/
  bits : UInt64
deriving DecidableEq, Repr

namespace Pattern

/-- The pattern of a double. -/
def ofFloat (x : Float) : Pattern := ⟨x.toBits⟩

/-- The double that a pattern holds; its sign and payload are lost where it is not a number. -/
def toFloat (p : Pattern) : Float := Float.ofBits p.bits

/-- The number of patterns of one sign. -/
def half : Nat := 0x8000000000000000

/-- The pattern without its sign bit, as a number. -/
def magnitude (p : Pattern) : Nat := p.bits.toNat % half

/-- Whether the sign bit is set. -/
def negative (p : Pattern) : Bool := half ≤ p.bits.toNat

/-- Whether a pattern holds no number: its magnitude is beyond that of infinity. -/
def isNaN (p : Pattern) : Bool := 0x7FF0000000000000 < p.magnitude

/-- The place of a pattern on the line of all patterns. Patterns without a sign bit count upwards from zero
by magnitude, those with one count downwards from minus one. -/
def rank (p : Pattern) : Int :=
  if p.negative then -1 - p.magnitude else p.magnitude

/-- Numbers before what is not a number, and each kind among itself by rank. -/
def compareNumbersFirst (x y : Pattern) : Ordering :=
  (compare x.isNaN y.isNaN).then (compare x.rank y.rank)

/-- What arithmetic leaves for an operation that has no result, such as the difference of two equal
infinities: the quiet pattern with its sign bit set. -/
def invalidOperation : Pattern := ⟨0xFFF8000000000000⟩

/-- What arithmetic carries along from an operand that was not a number to begin with: the quiet pattern
with its sign bit clear. -/
def carriedOver : Pattern := ⟨0x7FF8000000000000⟩

end Pattern

end FlightPlanner.Binary64
