import FlightPlanner.Flight.Basic

/-!
# Filtering flights

A flight passes when no bound rules it out. A bound rules out only what is really beyond it, so that what is
not a number is never ruled out and rules nothing out.
-/

namespace FlightPlanner

/-- Whether a present bound is crossed. -/
def crosses (bound : Option α) (beyond : α → Bool) : Bool :=
  match bound with
  | some limit => beyond limit
  | none => false

/-- Whether a flight passes the bounds. -/
def Filters.passes (filters : Filters) (flight : Flight) : Bool :=
  !(filters.directOnly && !flight.isDirect) &&
    !crosses filters.maxPrice (fun limit => decide (limit < flight.price)) &&
    !crosses filters.maxStops (fun limit => decide (limit < flight.stops)) &&
    !crosses filters.minSafetyRating (fun limit => decide (flight.safetyRating < limit))

end FlightPlanner
