import FlightPlanner.Documents.Airport
import FlightPlanner.Time.Timestamp
import FlightPlanner.Tracking.Fix
import FlightPlanner.Weather.Observation

/-!
# Moments, fixes and weather reports in documents

A moment is written as a text; fixes and weather reports contain one.
-/

namespace FlightPlanner

open Json

/-- Moments. -/
def Time.Timestamp.format : Format Time.Timestamp where
  read _ node := do
    match Time.Timestamp.ofText (← readText .timestamp node) with
    | .ok moment => .ok moment
    | .error .noMoment => .error (.mismatch .badTimestamp)
    | .error .distant => .error (.mismatch .distantTimestamp)
  write moment := .text moment.text

/-- Weather reports. -/
def Weather.Observation.record : Record Weather.Observation where
  title := "WeatherObservation"
  Parts := Geo.Coordinate × Float × Float × Float × Float × String × Time.Timestamp × Unit
  members :=
    .field (.required "location" Geo.Coordinate.record.format) <|
    .field (.required "temperatureC" .real) <|
    .field (.required "windSpeedKt" .real) <|
    .field (.required "windDirectionDeg" .real) <|
    .field (.required "visibilityKm" .real) <|
    .field (.required "conditions" .text) <|
    .field (.required "observedAt" Time.Timestamp.format) .none
  make := fun (location, temperature, windSpeed, windDirection, visibility, conditions, observedAt, ()) =>
    ⟨location, temperature, windSpeed, windDirection, visibility, conditions, observedAt⟩
  parts report := (report.location, report.temperature, report.windSpeed, report.windDirection,
    report.visibility, report.conditions, report.observedAt, ())

/-- Fixes. -/
def Tracking.Fix.record : Record Tracking.Fix where
  title := "PositionFix"
  Parts := Geo.Coordinate × Option Float × Time.Timestamp × Unit
  members :=
    .field (.required "coordinate" Geo.Coordinate.record.format) <|
    .field (.optional "accuracyM" .real) <|
    .field (.required "timestamp" Time.Timestamp.format) .none
  make := fun (coordinate, accuracy, timestamp, ()) => ⟨coordinate, accuracy, timestamp⟩
  parts fix := (fix.coordinate, fix.accuracy, fix.timestamp, ())

end FlightPlanner
