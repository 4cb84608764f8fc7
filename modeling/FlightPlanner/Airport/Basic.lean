import FlightPlanner.Geo.Coordinate

/-!
# Airports

The airports that a position can be compared with, and the classes by which they are chosen.
-/

namespace FlightPlanner

/-- The size of an airport. -/
inductive AirportClass where
  /-- A major airport. -/
  | major
  /-- A regional airport. -/
  | regional
  /-- An airstrip. -/
  | airstrip
deriving DecidableEq, Repr

/-- All classes, from the greatest to the smallest. -/
def AirportClass.all : List AirportClass := [.major, .regional, .airstrip]

/-- The name of a class. -/
def AirportClass.name : AirportClass → String
  | .major => "major"
  | .regional => "regional"
  | .airstrip => "airstrip"

/-- The class of a name. -/
def AirportClass.ofName? (name : String) : Option AirportClass :=
  AirportClass.all.find? fun c => c.name = name

/-- The name of a class leads back to it. -/
theorem AirportClass.ofName?_name (c : AirportClass) : AirportClass.ofName? c.name = some c := by
  cases c <;> rfl

/-- An airport of a catalog. -/
structure Airport where
  /-- Its code. -/
  code : String
  /-- Its name. -/
  name : String
  /-- Where it is. -/
  location : Geo.Coordinate
  /-- Its class. -/
  airportClass : AirportClass
deriving DecidableEq

/-- Whether an airport is of one of the wanted classes; wanting none in particular accepts all. -/
def Airport.isWanted (classes : List AirportClass) (airport : Airport) : Bool :=
  classes.isEmpty || classes.contains airport.airportClass

/-- An airport as seen from a position. -/
structure RankedAirport where
  /-- The airport. -/
  airport : Airport
  /-- Its distance in kilometres. -/
  distance : Float
  /-- The initial bearing to it in degrees. -/
  bearing : Float
deriving DecidableEq

end FlightPlanner
