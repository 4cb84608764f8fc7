/-!
# Positions

A position on the globe in degrees. Nothing is required of the two numbers here; `Validation.Rules` says
which of them are on the globe, and the functions of the neighbouring modules answer for all.
-/

namespace FlightPlanner.Geo

/-- A position in decimal degrees. -/
structure Coordinate where
  /-- Degrees north of the equator. -/
  latitude : Float
  /-- Degrees east of the prime meridian. -/
  longitude : Float
deriving DecidableEq

/-- Whether two positions have equal numbers, so that the two zeros agree and what is not a number does not
even agree with itself. -/
def Coordinate.sameNumbers (a b : Coordinate) : Bool :=
  a.latitude == b.latitude && a.longitude == b.longitude

end FlightPlanner.Geo
