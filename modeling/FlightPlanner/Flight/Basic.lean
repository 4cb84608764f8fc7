/-!
# Flights, priorities and filters

The offers a search chooses among, how much a traveller cares about each of their attributes, and the bounds
that rule offers out. Names are those of the domain; how they are written in documents is said elsewhere.
-/

namespace FlightPlanner

/-- One offer of a flight search. -/
structure Flight where
  /-- The number of the flight. -/
  number : Option String
  /-- The airline. -/
  airline : Option String
  /-- Where it starts. -/
  origin : Option String
  /-- Where it ends. -/
  destination : Option String
  /-- The price. -/
  price : Float
  /-- The duration as shown to the traveller, such as `5h 15m`. -/
  duration : String
  /-- How often it stops. -/
  stops : UInt32
  /-- How many layovers it has. -/
  layovers : UInt32
  /-- The safety rating, from zero to five. -/
  safetyRating : Float
deriving DecidableEq

/-- Whether a flight goes without a stop. -/
def Flight.isDirect (flight : Flight) : Bool := flight.stops = 0

/-- How much each attribute of a flight counts, from nothing to a hundred. They need not add up to anything. -/
structure Weights where
  /-- The weight of a low price. -/
  cost : UInt8
  /-- The weight of a short duration. -/
  time : UInt8
  /-- The weight of the safety rating. -/
  safety : UInt8
  /-- The weight of few stops. -/
  comfort : UInt8
  /-- The weight of few layovers. -/
  layoverSensitivity : UInt8
deriving DecidableEq, Repr

/-- The same weight for every attribute. -/
def Weights.uniform (weight : UInt8) : Weights := ⟨weight, weight, weight, weight, weight⟩

/-- The weights of a traveller who has not said anything. -/
def Weights.standard : Weights := ⟨70, 60, 90, 50, 40⟩

/-- The weights with everything above a hundred brought down to it. -/
def Weights.capped (weights : Weights) : Weights :=
  ⟨min weights.cost 100, min weights.time 100, min weights.safety 100, min weights.comfort 100,
    min weights.layoverSensitivity 100⟩

/-- Bounds on the flights of a search; an absent bound rules nothing out. -/
structure Filters where
  /-- The greatest price. -/
  maxPrice : Option Float
  /-- The greatest number of stops. -/
  maxStops : Option UInt32
  /-- The least safety rating. -/
  minSafetyRating : Option Float
  /-- Whether only flights without a stop pass. -/
  directOnly : Bool
deriving DecidableEq

/-- No bounds at all. -/
def Filters.none : Filters := ⟨.none, .none, .none, false⟩

end FlightPlanner
