import FlightPlanner.Flight.Ranking
import FlightPlanner.Airport.Basic

/-!
# Requests and responses

What the planner is asked and what it answers: the ranking of offered flights, and the airports near a
position.
-/

namespace FlightPlanner

/-- The wish to have flights ranked. -/
structure FlightSearch where
  /-- The offers. -/
  flights : List Flight
  /-- What counts for this traveller; without it the planner's own weights are used. -/
  priorities : Option Weights
  /-- The bounds on the flights. -/
  filters : Filters
deriving DecidableEq

/-- Ranked flights. -/
structure FlightResults where
  /-- The flights that passed the filters, the best first. -/
  flights : List ScoredFlight
  /-- How many flights were offered. -/
  totalCandidates : UInt64
  /-- How many are left. -/
  totalResults : UInt64
deriving DecidableEq

/-- The wish to know the airports near a position. -/
structure AirportSearch where
  /-- The position. -/
  origin : Geo.Coordinate
  /-- How many airports to list; nothing is listed from zero downwards. -/
  limit : Option Int64
  /-- The wanted classes; none in particular means all. -/
  classes : List AirportClass
deriving DecidableEq

/-- The airports near a position. -/
structure AirportResults where
  /-- The position. -/
  origin : Geo.Coordinate
  /-- The label of the position. -/
  originLabel : String
  /-- The airports, the nearest first. -/
  airports : List RankedAirport
deriving DecidableEq

end FlightPlanner
