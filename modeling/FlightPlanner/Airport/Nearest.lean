import FlightPlanner.Airport.Basic
import FlightPlanner.Geo.Distance
import FlightPlanner.Geo.Bearing

/-!
# The nearest airports

Airports in order of their distance from a position, cut off at a limit. Distances that are no numbers come
last, airports at one distance keep the order in which they came. The order is one of bit patterns, so that
it is total whatever the distances are.
-/

namespace FlightPlanner

/-- What a ranking needs to know of two positions. -/
structure Gauge where
  /-- The bit pattern of the distance in kilometres, by which airports are ordered. -/
  pattern : Geo.Coordinate → Geo.Coordinate → Binary64.Pattern
  /-- The initial bearing in degrees. -/
  bearing : Geo.Coordinate → Geo.Coordinate → Float

/-- The distance in kilometres: what its bit pattern holds. -/
def Gauge.distance (gauge : Gauge) (a b : Geo.Coordinate) : Float := (gauge.pattern a b).toFloat

/-- The gauge of great circles. -/
def Gauge.greatCircle (trig : Geo.Trig) : Gauge := ⟨Geo.distancePattern trig, Geo.bearing trig⟩

/-- An airport as seen from a position. -/
def Gauge.see (gauge : Gauge) (origin : Geo.Coordinate) (airport : Airport) : RankedAirport :=
  ⟨airport, gauge.distance origin airport.location, gauge.bearing origin airport.location⟩

/-- Whether the first of two airports may stand before the second in a ranking around a position. -/
def Gauge.ahead (gauge : Gauge) (origin : Geo.Coordinate) (a b : Airport) : Bool :=
  ((gauge.pattern origin a.location).compareNumbersFirst (gauge.pattern origin b.location)).isLE

/-- The nearest of some airports, at most as many as the limit says. -/
def Gauge.nearest (gauge : Gauge) (origin : Geo.Coordinate) (airports : List Airport) (limit : Nat) :
    List RankedAirport :=
  ((airports.mergeSort (gauge.ahead origin)).take limit).map (gauge.see origin)

/-- As many are listed as the limit allows. -/
theorem Gauge.length_nearest (gauge : Gauge) (origin : Geo.Coordinate) (airports : List Airport) (limit : Nat) :
    (gauge.nearest origin airports limit).length = min limit airports.length := by
  simp [Gauge.nearest]

/-- A limit asked for as a number with a sign: anything below zero asks for nothing. -/
def effectiveLimit (limit : Int64) : UInt64 := .ofNat limit.toInt.toNat

end FlightPlanner
