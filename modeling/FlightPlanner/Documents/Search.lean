import FlightPlanner.Documents.Airport
import FlightPlanner.Documents.Flight
import FlightPlanner.Planning.Request

/-!
# Searches and results in documents

How the requests to the planner and its responses are written and read.
-/

namespace FlightPlanner

open Json

/-- Flight searches. -/
def FlightSearch.record : Record FlightSearch where
  title := "FlightSearchRequest"
  Parts := List Flight × Option Weights × Filters × Unit
  members :=
    .field (.required "flights" (.list Flight.record.format)) <|
    .field (.optional "priorities" Weights.record.format) <|
    .field (.defaulted "filters" Filters.record.format .none) .none
  make := fun (flights, priorities, filters, ()) => ⟨flights, priorities, filters⟩
  parts search := (search.flights, search.priorities, search.filters, ())

/-- Airport searches. -/
def AirportSearch.record : Record AirportSearch where
  title := "NearestAirportsRequest"
  Parts := Geo.Coordinate × Option Int64 × List AirportClass × Unit
  members :=
    .field (.required "origin" Geo.Coordinate.record.format) <|
    .field (.optional "limit" .signed) <|
    .field (.defaulted "classes" (.list AirportClass.format) []) .none
  make := fun (origin, limit, classes, ()) => ⟨origin, limit, classes⟩
  parts search := (search.origin, search.limit, search.classes, ())

/-- Ranked flights. -/
def FlightResults.record : Record FlightResults where
  title := "FlightSearchResponse"
  Parts := List ScoredFlight × UInt64 × UInt64 × Unit
  members :=
    .field (.required "flights" (.list ScoredFlight.extended.format)) <|
    .field (.required "totalCandidates" .size) <|
    .field (.required "totalResults" .size) .none
  make := fun (flights, candidates, results, ()) => ⟨flights, candidates, results⟩
  parts results := (results.flights, results.totalCandidates, results.totalResults, ())

/-- The airports near a position. -/
def AirportResults.record : Record AirportResults where
  title := "NearestAirportsResponse"
  Parts := Geo.Coordinate × String × List RankedAirport × Unit
  members :=
    .field (.required "origin" Geo.Coordinate.record.format) <|
    .field (.required "originLabel" .text) <|
    .field (.required "airports" (.list RankedAirport.extended.format)) .none
  make := fun (origin, label, airports, ()) => ⟨origin, label, airports⟩
  parts results := (results.origin, results.originLabel, results.airports, ())

end FlightPlanner
