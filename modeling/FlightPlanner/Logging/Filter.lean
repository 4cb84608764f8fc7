import FlightPlanner.Logging.Directive

/-!
# Filters of the log

Which events are written. A filter is a list of directives with commas between them; for each event the most
specific one that is about it decides.
-/

namespace FlightPlanner.Logging

/-- A filter: its directives in the order in which they were written. -/
abbrev Filter := List Directive

namespace Filter

/-- The pieces of a filter's text, without empty ones. -/
def pieces (text : String) : List (List Char) :=
  (text.toList.splitOn ',').filter fun piece => !piece.isEmpty

/-- A filter of a text all of whose pieces are directives. -/
def ofText? (text : String) : Option Filter := (pieces text).mapM Directive.ofText?

/-- A filter of a text, without the pieces that are no directives. -/
def ofTextLeniently (text : String) : Filter := (pieces text).filterMap Directive.ofText?

/-- The filter without any directive admits failures only. -/
def orFailures (filter : Filter) : Filter :=
  if filter.isEmpty then [⟨none, none, none, some .error⟩] else filter

/-- The directive that decides on events of the given name: the most specific one, of several for one name the
last. -/
def deciding? (filter : Filter) (name : String) : Option Directive :=
  (filter.filter fun directive => directive.covers name).foldl
    (fun best next => match best with
      | some best => some (if best.weight ≤ next.weight then next else best)
      | none => some next)
    none

/-- Whether an event of the given name and level is written. -/
def admits (filter : Filter) (name : String) (level : Level) : Bool :=
  match filter.orFailures.deciding? name with
  | some directive => directive.ceiling.admits level
  | none => false

end Filter

end FlightPlanner.Logging
