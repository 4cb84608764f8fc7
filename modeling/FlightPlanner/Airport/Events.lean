import FlightPlanner.Airport.Catalog
import FlightPlanner.Airport.Nearest
import FlightPlanner.Logging.Event

/-!
# Events around airports

What is told when airports are ranked and when a catalog is loaded.
-/

namespace FlightPlanner

open Logging (Event)

/-- What a ranking around a position tells: nothing where nothing can be listed. -/
def rankingEvents (origin : Geo.Coordinate) (airports : List Airport) (limit : Nat) : List Event :=
  if limit = 0 || airports.isEmpty then []
  else [.airportsRanked (min limit airports.length) airports.length origin]

/-- What loading a catalog tells: nothing where it fails. -/
def catalogEvents : Except CatalogError (List Airport) → List Event
  | .ok airports => [.catalogLoaded airports.length]
  | .error _ => []

end FlightPlanner
