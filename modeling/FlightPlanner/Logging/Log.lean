import FlightPlanner.Logging.Event
import FlightPlanner.Logging.Filter
import FlightPlanner.Logging.Style

/-!
# The log

The log is set up once; every later attempt changes nothing. A filter that the environment asks for takes the
place of the configured level, if all of it can be read.
-/

namespace FlightPlanner.Logging

/-- How events are written. -/
structure Log where
  /-- Which events are written. -/
  filter : Filter
  /-- In which form. -/
  style : Style
deriving DecidableEq, Repr

/-- The filter of the log: the one asked for, or that of the configured level. -/
def filterOf (wished : Option String) (settings : LogSettings) : Filter :=
  ((wished.bind Filter.ofText?).getD (Filter.ofTextLeniently settings.level))

/-- The log that some settings describe. -/
def Log.ofSettings (wished : Option String) (settings : LogSettings) : Log :=
  ⟨filterOf wished settings, Style.ofName settings.format⟩

/-- What an attempt to set up the log comes to. -/
structure Installation where
  /-- Whether the log was set up by this attempt. -/
  installed : Bool
  /-- The log that is there now. -/
  log : Log
  /-- What there is to tell. -/
  events : List Event

/-- An attempt to set up the log, where one may be there already. -/
def install (current : Option Log) (wished : Option String) (settings : LogSettings) : Installation :=
  match current with
  | some log => ⟨false, log, []⟩
  | none => ⟨true, .ofSettings wished settings, [.logReady settings]⟩

/-- What a log writes of some events: their levels, and their messages in its style. `nameOf` gives the name of
a part of the program. -/
def Log.written (log : Log) (nameOf : Part → String) (events : List Event) : List (Level × String) :=
  (events.filter fun event => log.filter.admits (nameOf event.part) event.level).map fun event =>
    (event.level, log.style.show event.message)

end FlightPlanner.Logging
