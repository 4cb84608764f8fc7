import FlightPlanner.Airport.Basic
import FlightPlanner.Json.Record

/-!
# Airports in documents

How positions, airport classes, airports and ranked airports are written and read.
-/

namespace FlightPlanner

open Json

/-- Positions. -/
def Geo.Coordinate.record : Record Geo.Coordinate where
  title := "Coordinate"
  Parts := Float × Float × Unit
  members := .field (.required "latitude" .real) <| .field (.required "longitude" .real) .none
  make := fun (latitude, longitude, ()) => ⟨latitude, longitude⟩
  parts position := (position.latitude, position.longitude, ())

/-- Airport classes, by their names. -/
def AirportClass.format : Format AirportClass :=
  .named (AirportClass.all.map fun c => (c.name, c)) AirportClass.name

/-- Airports. -/
def Airport.record : Record Airport where
  title := "AirportCandidate"
  Parts := String × String × Geo.Coordinate × AirportClass × Unit
  members :=
    .field (.required "code" .text) <|
    .field (.required "name" .text) <|
    .field (.required "location" Geo.Coordinate.record.format) <|
    .field (.required "class" AirportClass.format) .none
  make := fun (code, name, location, airportClass, ()) => ⟨code, name, location, airportClass⟩
  parts airport := (airport.code, airport.name, airport.location, airport.airportClass, ())

/-- Ranked airports: the fields of the airport, then its distance and bearing. -/
def RankedAirport.extended : Extended RankedAirport where
  title := "RankedAirport"
  Inner := Airport
  inner := Airport.record
  Parts := Float × Float × Unit
  members := .field (.required "distanceKm" .real) <| .field (.required "bearingDeg" .real) .none
  make := fun airport (distance, bearing, ()) => ⟨airport, distance, bearing⟩
  parts ranked := (ranked.airport, ranked.distance, ranked.bearing, ())

end FlightPlanner
