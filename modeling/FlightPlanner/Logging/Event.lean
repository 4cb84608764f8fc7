import FlightPlanner.Decimal.Layout
import FlightPlanner.Geo.Coordinate
import FlightPlanner.Logging.Level
import FlightPlanner.Settings.Basic

/-!
# Events

What the program tells about itself while it works: each event belongs to a part of the program, has a level
and has a wording.
-/

namespace FlightPlanner.Logging

/-- The parts of the program that tell of events. -/
inductive Part where
  /-- The log itself. -/
  | log
  /-- The planner. -/
  | planner
  /-- The ranking by distance. -/
  | ranking
  /-- The catalogs. -/
  | catalog
  /-- The tracking of positions. -/
  | tracking
deriving DecidableEq, Repr

/-- Something that happened. -/
inductive Event where
  /-- The log was set up. -/
  | logReady (settings : LogSettings)
  /-- A planner was made of settings. -/
  | plannerReady (weights : Weights)
  /-- A flight search was refused. -/
  | searchRefused
  /-- Flights were ranked: how many of how many, and by which weights. -/
  | flightsRanked (listed all : Nat) (weights : Weights)
  /-- Airports were ranked: how many of how many, and around which position. -/
  | airportsRanked (listed all : Nat) (origin : Geo.Coordinate)
  /-- A catalog was loaded. -/
  | catalogLoaded (count : Nat)
  /-- A position source was started. -/
  | trackingStarted
  /-- A position source was stopped. -/
  | trackingStopped
  /-- A position source was cancelled. -/
  | trackingCancelled
  /-- A follower was told of a position, for which so many airports are listed. -/
  | fixFollowed (position : Geo.Coordinate) (count : Nat)
  /-- A follower found its channel closed. -/
  | channelClosed
  /-- A follower found its listener gone. -/
  | listenerGone
deriving DecidableEq

/-- The weights in the wording of an event. -/
def weightsText (weights : Weights) : String :=
  "PriorityWeights \x7b cost: " ++ toString weights.cost ++ ", time: " ++ toString weights.time ++
    ", safety: " ++ toString weights.safety ++ ", comfort: " ++ toString weights.comfort ++
    ", layover_sensitivity: " ++ toString weights.layoverSensitivity ++ " \x7d"

/-- A position in the wording of an event. -/
def positionText (position : Geo.Coordinate) : String :=
  "(" ++ Decimal.Layout.plain.write position.latitude ++ ", " ++
    Decimal.Layout.plain.write position.longitude ++ ")"

namespace Event

/-- The part of the program that an event belongs to. -/
def part : Event → Part
  | .logReady _ => .log
  | .plannerReady _ | .searchRefused | .flightsRanked .. => .planner
  | .airportsRanked .. => .ranking
  | .catalogLoaded _ => .catalog
  | .trackingStarted | .trackingStopped | .trackingCancelled | .fixFollowed .. | .channelClosed
  | .listenerGone => .tracking

/-- The level of an event. -/
def level : Event → Level
  | .logReady _ | .plannerReady _ | .searchRefused | .trackingStarted | .trackingStopped | .trackingCancelled
  | .channelClosed => .info
  | .flightsRanked .. | .airportsRanked .. | .catalogLoaded _ | .fixFollowed .. | .listenerGone => .debug

/-- The wording of an event. -/
def message : Event → String
  | .logReady settings =>
    "Logging initialized (level: " ++ settings.level ++ ", format: " ++ settings.format ++ ")"
  | .plannerReady weights => "Planner initialized with weights: " ++ weightsText weights
  | .searchRefused => "Validation failed for flight search"
  | .flightsRanked listed all weights =>
    "Ranked " ++ toString listed ++ " of " ++ toString all ++ " flights with weights " ++ weightsText weights
  | .airportsRanked listed all origin =>
    "Ranked " ++ toString listed ++ " of " ++ toString all ++ " airports around " ++ positionText origin
  | .catalogLoaded count => "Loaded " ++ toString count ++ " airports into static catalog"
  | .trackingStarted => "Position tracking started"
  | .trackingStopped => "Position tracking stopped"
  | .trackingCancelled => "Position tracking cancelled"
  | .fixFollowed position count =>
    "Fix at " ++ positionText position ++ " -> " ++ toString count ++ " nearby airports"
  | .channelClosed => "Position channel closed, no more nearest-airport updates"
  | .listenerGone => "Nearest-airport listener hung up"

end Event

end FlightPlanner.Logging
