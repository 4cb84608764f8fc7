import FlightPlanner.Airport.Events
import FlightPlanner.Planning.Planner

/-!
# Events of the planner

What is told when a planner is made of settings and when it answers a search.
-/

namespace FlightPlanner.Planner

open Logging (Event)

/-- What making a planner of settings tells. -/
def settingsEvents (settings : Settings) : List Event := [.plannerReady (ofSettings settings).weights]

/-- What a flight search tells. -/
def searchEvents (planner : Planner) (search : FlightSearch) : List Event :=
  if search.complaints.isEmpty then
    [.flightsRanked (planner.rank search).length search.flights.length (planner.weightsFor search)]
  else [.searchRefused]

/-- What an airport search tells. -/
def nearestEvents (planner : Planner) (search : AirportSearch) (catalog : List Airport) : List Event :=
  if search.complaints.isEmpty then
    rankingEvents search.origin (candidates search catalog) (planner.limitFor search).toNat
  else []

end FlightPlanner.Planner
