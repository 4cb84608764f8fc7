/-!
# The functions of a triangle

Distances and bearings need a sine, a cosine, the angle of a pair of sides and a square root. They are taken
as one record, so that a statement can name what it asks of them; `Trig.machine` holds those of the machine.
-/

namespace FlightPlanner.Geo

/-- The functions that distances and bearings are computed with. -/
structure Trig where
  /-- The sine of an angle in radians. -/
  sin : Float → Float
  /-- The cosine of an angle in radians. -/
  cos : Float → Float
  /-- The angle, in radians, of the point whose second coordinate is given first. -/
  atan2 : Float → Float → Float
  /-- The square root. -/
  sqrt : Float → Float

/-- The functions of the machine. -/
def Trig.machine : Trig := ⟨Float.sin, Float.cos, Float.atan2, Float.sqrt⟩

end FlightPlanner.Geo
