import FlightPlanner.Flight.Ranking
import FlightPlanner.Json.Record

/-!
# Flights in documents

How flights, weights, filters and scored flights are written and read. A flight needs a price, a duration
and a safety rating; weights are complete; filters may leave anything open.
-/

namespace FlightPlanner

open Json

/-- Flights. -/
def Flight.record : Record Flight where
  title := "FlightCandidate"
  Parts := Option String × Option String × Option String × Option String × Float × String × UInt32 × UInt32 ×
    Float × Unit
  members :=
    .field (.optional "flightNumber" .text) <|
    .field (.optional "airline" .text) <|
    .field (.optional "origin" .text) <|
    .field (.optional "destination" .text) <|
    .field (.required "price" .real) <|
    .field (.required "duration" .text) <|
    .field (.defaulted "stopCount" .count 0) <|
    .field (.defaulted "layoverCount" .count 0) <|
    .field (.required "safetyRating" .real) .none
  make := fun (number, airline, origin, destination, price, duration, stops, layovers, rating, ()) =>
    ⟨number, airline, origin, destination, price, duration, stops, layovers, rating⟩
  parts flight := (flight.number, flight.airline, flight.origin, flight.destination, flight.price,
    flight.duration, flight.stops, flight.layovers, flight.safetyRating, ())

/-- Scored flights: the fields of the flight, then the score. -/
def ScoredFlight.extended : Extended ScoredFlight where
  title := "ScoredFlight"
  Inner := Flight
  inner := Flight.record
  Parts := UInt32 × Unit
  members := .field (.required "score" .count) .none
  make := fun flight (score, ()) => ⟨flight, score⟩
  parts scored := (scored.flight, scored.score, ())

/-- Weights. -/
def Weights.record : Record Weights where
  title := "PriorityWeights"
  Parts := UInt8 × UInt8 × UInt8 × UInt8 × UInt8 × Unit
  members :=
    .field (.required "cost" .byte) <|
    .field (.required "time" .byte) <|
    .field (.required "safety" .byte) <|
    .field (.required "comfort" .byte) <|
    .field (.required "layoverSensitivity" .byte) .none
  make := fun (cost, time, safety, comfort, layover, ()) => ⟨cost, time, safety, comfort, layover⟩
  parts weights :=
    (weights.cost, weights.time, weights.safety, weights.comfort, weights.layoverSensitivity, ())

/-- Filters. -/
def Filters.record : Record Filters where
  title := "FlightFilters"
  Parts := Option Float × Option UInt32 × Option Float × Bool × Unit
  members :=
    .field (.optional "maxPrice" .real) <|
    .field (.optional "maxStops" .count) <|
    .field (.optional "minSafetyRating" .real) <|
    .field (.defaulted "directOnly" .boolean false) .none
  make := fun (maxPrice, maxStops, minSafetyRating, directOnly, ()) =>
    ⟨maxPrice, maxStops, minSafetyRating, directOnly⟩
  parts filters := (filters.maxPrice, filters.maxStops, filters.minSafetyRating, filters.directOnly, ())

end FlightPlanner
