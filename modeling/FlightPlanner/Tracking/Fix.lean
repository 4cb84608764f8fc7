import FlightPlanner.Geo.Coordinate
import FlightPlanner.Time.Timestamp

/-!
# Position fixes

One reading of a position, as a position source publishes it.
-/

namespace FlightPlanner.Tracking

/-- A reading of a position. -/
structure Fix where
  /-- The position. -/
  coordinate : Geo.Coordinate
  /-- How far off it may be, in metres. -/
  accuracy : Option Float
  /-- When it was taken. -/
  timestamp : Time.Timestamp
deriving DecidableEq

/-- A reading taken at the given moment, of unknown accuracy. -/
def Fix.taken (now : Time.Timestamp) (coordinate : Geo.Coordinate) : Fix := ⟨coordinate, none, now⟩

end FlightPlanner.Tracking
