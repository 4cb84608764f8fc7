import FlightPlanner.Config.Value
import FlightPlanner.Decimal.Layout
import FlightPlanner.Text.Quoted

/-!
# What can be wrong with a configuration

A file that is missing or is no document, a value of the wrong kind, and a section that is a single value.
-/

namespace FlightPlanner.Config

/-- What was found where something else was wanted. -/
inductive Found where
  /-- Nothing at all. -/
  | nothing
  /-- A whole number that may have a sign. -/
  | integer (value : Int)
  /-- A whole number that has no sign. -/
  | unsigned (value : Nat)
  /-- A text. -/
  | text (value : String)
  /-- A list. -/
  | list
  /-- A table. -/
  | table
deriving DecidableEq, Repr

/-- The wording of what was found. -/
def Found.wording : Found → String
  | .nothing => "unit value"
  | .integer value => "64-bit integer `" ++ toString value ++ "`"
  | .unsigned value => "64-bit unsigned integer `" ++ toString value ++ "`"
  | .text value => "string " ++ Text.quoted value
  | .list => "sequence"
  | .table => "map"

/-- What was wanted of a value. -/
inductive Wanted where
  /-- A whole number. -/
  | integer
  /-- A whole number that is not below zero. -/
  | unsigned
  /-- A whole number from nothing to two hundred and fifty-five. -/
  | byte
  /-- A text. -/
  | text
deriving DecidableEq, Repr

/-- The wording of what was wanted. -/
def Wanted.wording : Wanted → String
  | .integer => "an integer"
  | .unsigned => "an unsigned 64 bit or less integer"
  | .byte => "an unsigned 8 bit integer"
  | .text => "a string"

/-- The sections of a configuration. -/
inductive Section where
  /-- How many airports are listed. -/
  | ranking
  /-- How flights are scored. -/
  | scoring
  /-- The default weights. -/
  | priorities
  /-- The log. -/
  | logging
deriving DecidableEq, Repr

/-- The title of a section in messages. -/
def Section.title : Section → String
  | .ranking => "RankingSettings"
  | .scoring => "ScoringSettings"
  | .priorities => "PrioritiesConfig"
  | .logging => "LoggingSettings"

/-- The wording of a value that was found in place of a section. -/
def Scalar.wording : Scalar → String
  | .nothing => "unit value"
  | .boolean value => "boolean `" ++ toString value ++ "`"
  | .integer value => "integer `" ++ toString value ++ "`"
  | .real value => "floating point `" ++ Decimal.Layout.pointed.write value ++ "`"
  | .text value => "string " ++ Text.quoted value

/-- The name of an origin in messages. -/
def Origin.wording : Origin → String
  | .file path => path
  | .environment => "the environment"

/-- Why a configuration cannot be loaded. -/
inductive LoadError where
  /-- The file is not there, or is of no known kind. -/
  | noFile
  /-- The file at the path is no document. -/
  | malformedFile (path : String)
  /-- A value is not of the kind that is wanted at its path. -/
  | mismatch (found : Found) (wanted : Wanted) (path : List Step) (origin : Option Origin)
  /-- A single value stands in place of a section. -/
  | noSection (found : Scalar) (wanted : Section)
deriving DecidableEq

/-- The wording of the error, where it is about a value. -/
def LoadError.message? : LoadError → Option String
  | .noFile => none
  | .malformedFile _ => none
  | .mismatch found wanted path origin =>
    some ("invalid type: " ++ found.wording ++ ", expected " ++ wanted.wording ++
      " for key `" ++ pathText path ++ "`" ++ match origin with
      | some origin => " in " ++ origin.wording
      | none => "")
  | .noSection found wanted =>
    some ("invalid type: " ++ found.wording ++ ", expected struct " ++ wanted.title)

end FlightPlanner.Config
