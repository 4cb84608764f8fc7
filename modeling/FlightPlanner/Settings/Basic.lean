import FlightPlanner.Flight.Basic

/-!
# Settings

What can be configured: how many airports are listed, the default weights, and the log. Everything has a
value of its own where nothing is configured.
-/

namespace FlightPlanner

/-- How many airports are listed. -/
structure RankingSettings where
  /-- How many are listed when nothing is asked for. -/
  defaultLimit : UInt64
  /-- How many are listed at most. -/
  maxLimit : UInt64
deriving DecidableEq, Repr

/-- The limits where nothing is configured. -/
def RankingSettings.standard : RankingSettings := ⟨5, 50⟩

/-- What the log is to be like. -/
structure LogSettings where
  /-- Which events are written, as a filter. -/
  level : String
  /-- The name of the style in which they are written. -/
  format : String
deriving DecidableEq, Repr

/-- The log where nothing is configured. -/
def LogSettings.standard : LogSettings := ⟨"info", "json"⟩

/-- All settings. -/
structure Settings where
  /-- How many airports are listed. -/
  ranking : RankingSettings
  /-- The weights as they were configured, from nothing to two hundred and fifty-five. -/
  priorities : Weights
  /-- What the log is to be like. -/
  log : LogSettings
deriving DecidableEq, Repr

/-- The settings where nothing is configured. -/
def Settings.standard : Settings := ⟨.standard, .standard, .standard⟩

/-- The weights that the settings stand for: those configured, with everything above a hundred brought down
to it. -/
def Settings.weights (settings : Settings) : Weights := settings.priorities.capped

end FlightPlanner
