import FlightPlanner.Validation.Tree

/-!
# Ranges

What a field declares about its value: a least one, a greatest one, or both. A value breaks the range only by
being below the least or above the greatest one, so that what is not a number breaks none.
-/

namespace FlightPlanner.Validation

/-- A declared range of a kind of number. -/
structure Range (α : Type) where
  /-- The least allowed value. -/
  least : Option α
  /-- The greatest allowed value. -/
  greatest : Option α

/-- Whether a value is below the least or above the greatest allowed one. -/
def Range.isBroken [LT α] [DecidableRel (LT.lt (α := α))] (range : Range α) (value : α) : Bool :=
  (match range.least with | some least => decide (value < least) | none => false) ||
    (match range.greatest with | some greatest => decide (greatest < value) | none => false)

/-- The complaint about a field whose value breaks its range. -/
def Range.check [LT α] [DecidableRel (LT.lt (α := α))] (amount : α → Amount) (range : Range α)
    (name : String) (value : α) : Forest :=
  if range.isBroken value then
    [(.field name, .leaf ⟨range.least.map amount, range.greatest.map amount, amount value⟩)]
  else []

/-- The complaint about a field with a double. -/
def Range.checkReal (range : Range Float) (name : String) (value : Float) : Forest :=
  range.check .real name value

/-- The complaint about a field with a small whole number. -/
def Range.checkByte (range : Range UInt8) (name : String) (value : UInt8) : Forest :=
  range.check (fun n => .whole n.toNat) name value

end FlightPlanner.Validation
