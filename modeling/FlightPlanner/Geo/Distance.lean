import FlightPlanner.Binary64.Basic
import FlightPlanner.Binary64.Pattern
import FlightPlanner.Geo.Coordinate
import FlightPlanner.Geo.Trig

/-!
# Great-circle distances

The distance of two positions by the haversine formula, on a sphere of the mean radius of the earth. It is
defined for all doubles; positions that are not on the globe have some distance too, and a coordinate that is
infinite or not a number leaves none. `distancePattern` keeps, where there is no distance, how that came
about: whether a coordinate was not a number to begin with, or the arithmetic met an operation without a
result.
-/

namespace FlightPlanner.Geo

/-- The mean radius of the earth in kilometres. -/
def earthRadius : Float := 6371

/-- A number brought into the range from zero to one; what is not a number stays so. -/
def clampToUnit (x : Float) : Float :=
  let atLeast := if x < 0 then 0 else x
  if 1 < atLeast then 1 else atLeast

/-- The square of a number. -/
def square (x : Float) : Float := x * x

/-- The haversine of the angle between two positions. Rounding can take it just past one for opposite points,
so it is brought back. -/
def haversine (trig : Trig) (a b : Coordinate) : Float :=
  let latitudes := Binary64.radians (b.latitude - a.latitude)
  let longitudes := Binary64.radians (b.longitude - a.longitude)
  clampToUnit
    (square (trig.sin (latitudes / 2)) +
      trig.cos (Binary64.radians a.latitude) * trig.cos (Binary64.radians b.latitude) *
        square (trig.sin (longitudes / 2)))

/-- The great-circle distance of two positions in kilometres. -/
def distance (trig : Trig) (a b : Coordinate) : Float :=
  let h := haversine trig a b
  earthRadius * (2 * trig.atan2 (trig.sqrt h) (trig.sqrt (1 - h)))

/-- Whether a distance that is no number comes from a coordinate that was not a number, rather than from an
operation without a result. Arithmetic carries the first operand along that is not a number: it meets the
longitudes first, then the first latitude, then the second one. -/
def carriesCoordinate (a b : Coordinate) : Bool :=
  if a.longitude.isNaN || b.longitude.isNaN then true
  else if !(b.longitude - a.longitude).isFinite then false
  else if a.latitude.isNaN then true
  else if a.latitude.isInf then false
  else b.latitude.isNaN

/-- The bit pattern of the distance of two positions. -/
def distancePattern (trig : Trig) (a b : Coordinate) : Binary64.Pattern :=
  let km := distance trig a b
  if km.isNaN then
    if carriesCoordinate a b then .carriedOver else .invalidOperation
  else .ofFloat km

end FlightPlanner.Geo
