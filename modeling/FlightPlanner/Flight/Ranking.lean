import FlightPlanner.Flight.Score

/-!
# Ranking flights

Flights in order of their scores, the best first; flights of equal score keep the order in which they came.
-/

namespace FlightPlanner

/-- A flight with its score. -/
structure ScoredFlight where
  /-- The flight. -/
  flight : Flight
  /-- Its score. -/
  score : UInt32
deriving DecidableEq

/-- A flight with its score under some weights. -/
def ScoredFlight.of (weights : Weights) (flight : Flight) : ScoredFlight := ⟨flight, flight.score weights⟩

/-- Whether the first of two scored flights may stand before the second. -/
def ScoredFlight.ahead (a b : ScoredFlight) : Bool := b.score ≤ a.score

/-- Flights scored and put in order. -/
def rankFlights (weights : Weights) (flights : List Flight) : List ScoredFlight :=
  (flights.map (ScoredFlight.of weights)).mergeSort ScoredFlight.ahead

end FlightPlanner
