import FlightPlanner.Binary64.Basic
import FlightPlanner.Geo.Coordinate
import FlightPlanner.Geo.Trig

/-!
# Initial bearings

The direction in which the great circle from one position to another sets out, in degrees clockwise from
true north.
-/

namespace FlightPlanner.Geo

/-- The initial bearing from one position to another. A position has no direction to itself; zero stands for
it. -/
def bearing (trig : Trig) (a b : Coordinate) : Float :=
  if a.sameNumbers b then 0
  else
    let start := Binary64.radians a.latitude
    let finish := Binary64.radians b.latitude
    let longitudes := Binary64.radians (b.longitude - a.longitude)
    let east := trig.sin longitudes * trig.cos finish
    let north := trig.cos start * trig.sin finish - trig.sin start * trig.cos finish * trig.cos longitudes
    Binary64.remainder (Binary64.degrees (trig.atan2 east north) + 360) 360

end FlightPlanner.Geo
