import FlightPlanner.Geo.Coordinate
import FlightPlanner.Time.Timestamp
import FlightPlanner.Decimal.Layout

/-!
# Weather

A weather report and a provider that reports the same conditions everywhere. The provider has nothing to say
about a position with a coordinate that is not a number.
-/

namespace FlightPlanner.Weather

/-- A weather report for a position. -/
structure Observation where
  /-- The position. -/
  location : Geo.Coordinate
  /-- The temperature in degrees Celsius. -/
  temperature : Float
  /-- The speed of the wind in knots. -/
  windSpeed : Float
  /-- The direction the wind comes from, in degrees. -/
  windDirection : Float
  /-- The visibility in kilometres. -/
  visibility : Float
  /-- The conditions in words. -/
  conditions : String
  /-- When this was observed. -/
  observedAt : Time.Timestamp
deriving DecidableEq

/-- Why a provider has no report. -/
inductive ProviderError where
  /-- There is no data for this position. -/
  | unavailable (location : Geo.Coordinate)
deriving DecidableEq

/-- The wording of the error. -/
def ProviderError.message : ProviderError → String
  | .unavailable location =>
    "No data available for " ++ Decimal.Layout.plain.write location.latitude ++ ", " ++
      Decimal.Layout.plain.write location.longitude

/-- A source of weather reports, asked at some moment about some position. -/
abbrev Provider := Time.Timestamp → Geo.Coordinate → Except ProviderError Observation

/-- The provider that moves one report to every position and stamps it with the moment it is asked. -/
def fixedProvider (template : Observation) : Provider := fun now location =>
  if location.latitude.isNaN || location.longitude.isNaN then .error (.unavailable location)
  else .ok { template with location := location, observedAt := now }

end FlightPlanner.Weather
