import FlightPlanner.Binary64.Basic
import FlightPlanner.Flight.Basic
import FlightPlanner.Flight.Duration

/-!
# Scores

Each attribute of a flight earns a part of its score: cheaper, shorter, safer, with fewer stops and fewer
layovers is better. The parts are weighed, added and divided down, so that a flight with every part and every
weight at a hundred scores a hundred. All arithmetic is that of doubles, in the order written here.
-/

namespace FlightPlanner

/-- What each attribute of a flight earns. -/
structure SubScores where
  /-- For the price. -/
  cost : Float
  /-- For the duration. -/
  time : Float
  /-- For the safety rating. -/
  safety : Float
  /-- For the stops. -/
  comfort : Float
  /-- For the layovers. -/
  layover : Float
deriving DecidableEq

namespace SubScores

/-- A hundred less a fifth of the price, and at least nothing. -/
def ofPrice (price : Float) : Float := Binary64.atLeastZero (100 - price / 5)

/-- A hundred less half of the magnitude, and at least nothing; a duration without a magnitude earns
nothing. -/
def ofDuration (label : String) : Float :=
  match Duration.magnitude? label with
  | some magnitude => Binary64.atLeastZero (100 - magnitude / 2)
  | none => 0

/-- Twenty for each point of the rating. -/
def ofSafety (rating : Float) : Float := rating * 20

/-- A hundred less thirty for each stop, and at least nothing. -/
def ofStops (stops : UInt32) : Float :=
  if stops = 0 then 100 else Binary64.atLeastZero (100 - stops.toFloat * 30)

/-- A hundred less twenty-five for each layover, and at least nothing. -/
def ofLayovers (layovers : UInt32) : Float := Binary64.atLeastZero (100 - layovers.toFloat * 25)

/-- The parts of a flight. -/
def ofFlight (flight : Flight) : SubScores where
  cost := ofPrice flight.price
  time := ofDuration flight.duration
  safety := ofSafety flight.safetyRating
  comfort := ofStops flight.stops
  layover := ofLayovers flight.layovers

/-- The parts weighed and added. -/
def weighed (parts : SubScores) (weights : Weights) : Float :=
  parts.cost * weights.cost.toFloat + parts.time * weights.time.toFloat +
    parts.safety * weights.safety.toFloat + parts.comfort * weights.comfort.toFloat +
    parts.layover * weights.layoverSensitivity.toFloat

end SubScores

/-- The greatest score that can be held. -/
def greatestScore : Nat := 0xFFFFFFFF

/-- The score of a flight: the weighed parts over a hundred and over their number, to the nearest whole
number. -/
def Flight.score (flight : Flight) (weights : Weights) : UInt32 :=
  .ofNat (Binary64.nearestNat greatestScore ((SubScores.ofFlight flight).weighed weights / 100 / 5))

end FlightPlanner
