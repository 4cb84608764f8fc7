import FlightPlanner.Config.Files
import FlightPlanner.Config.Reading
import FlightPlanner.Config.VariableFile
import FlightPlanner.Settings.Basic

/-!
# Loading the settings

The settings come from several sources, each laid over those before it: the default file, the local file, the
environment, and for the log two variables of their own. A file of variables adds to the environment first. What
the log's variables say comes over a finished configuration, which is a source itself then. Where a path is
given, the file there and the environment are the only sources.
-/

namespace FlightPlanner

open Config

/-- What the settings are loaded from. -/
structure Surroundings where
  /-- The files, and the directory in which the program works. -/
  files : Files
  /-- The variables of the environment. -/
  env : Variables

namespace Settings

/-- The section of how many airports are listed. -/
def readRanking (part : Placed) : Except LoadError RankingSettings := do
  let part ← part.asSection .ranking
  return {
    defaultLimit := ← part.read ⟨0, "default_limit"⟩ Placed.toLimit RankingSettings.standard.defaultLimit
    maxLimit := ← part.read ⟨1, "max_limit"⟩ Placed.toLimit RankingSettings.standard.maxLimit }

/-- The section of the default weights. -/
def readPriorities (part : Placed) : Except LoadError Weights := do
  let part ← part.asSection .priorities
  return {
    cost := ← part.read ⟨0, "cost"⟩ Placed.toWeight Weights.standard.cost
    time := ← part.read ⟨1, "time"⟩ Placed.toWeight Weights.standard.time
    safety := ← part.read ⟨2, "safety"⟩ Placed.toWeight Weights.standard.safety
    comfort := ← part.read ⟨3, "comfort"⟩ Placed.toWeight Weights.standard.comfort
    layoverSensitivity :=
      ← part.read ⟨4, "layover_sensitivity"⟩ Placed.toWeight Weights.standard.layoverSensitivity }

/-- The section of how flights are scored: it holds that of the default weights. -/
def readScoring (part : Placed) : Except LoadError Weights := do
  let part ← part.asSection .scoring
  part.read ⟨0, "priorities"⟩ readPriorities Weights.standard

/-- The section of the log. -/
def readLog (part : Placed) : Except LoadError LogSettings := do
  let part ← part.asSection .logging
  return {
    level := ← part.read ⟨0, "level"⟩ Placed.toText LogSettings.standard.level
    format := ← part.read ⟨1, "format"⟩ Placed.toText LogSettings.standard.format }

/-- The settings in a configuration. -/
def ofValue (root : Value) : Except LoadError Settings := do
  let root : Placed := ⟨[], root⟩
  return {
    ranking := ← root.read ⟨0, "ranking"⟩ readRanking .standard
    priorities := ← root.read ⟨1, "scoring"⟩ readScoring .standard
    log := ← root.read ⟨2, "logging"⟩ readLog .standard }

/-- The values that the log's own variables give. -/
def logSource (env : Variables) : Entries :=
  [("LOG_LEVEL", "logging.level"), ("LOG_FORMAT", "logging.format")].filterMap fun (name, path) =>
    (env.get? name).map fun text => (path, .leaf none (.text text))

/-- The name of the file of variables. -/
def variableFile : String := ".env"

/-- The text of the file of variables in the working directory, or else in the nearest directory above it. -/
def variableText? (files : Files) : Option String := files.nearest? variableFile.toList [] files.directory

/-- The environment with the variables of the file of variables. -/
def environmentOf (surroundings : Surroundings) : Variables :=
  match variableText? surroundings.files with
  | some text => surroundings.env.addFile text
  | none => surroundings.env

/-- The sources of a program's configuration, the first one first. -/
def sources (surroundings : Surroundings) : Except LoadError (List Entries) := do
  let default ← readOptionalFile surroundings.files "config/default"
  let localFile ← readOptionalFile surroundings.files "config/local"
  return [default, localFile, (environmentOf surroundings).source]

/-- A configuration with what the log's own variables say. -/
def withLogVariables (env : Variables) (root : Value) : Value := .ofSources [root.entries, logSource env]

/-- The settings of a program. -/
def load (surroundings : Surroundings) : Except LoadError Settings := do
  let root := .ofSources (← sources surroundings)
  ofValue (withLogVariables (environmentOf surroundings) root)

/-- The sources of the settings of a file. -/
def sourcesFrom (path : String) (surroundings : Surroundings) : Except LoadError (List Entries) := do
  return [← readFile surroundings.files path, surroundings.env.source]

/-- The settings of a file. -/
def loadFrom (path : String) (surroundings : Surroundings) : Except LoadError Settings := do
  ofValue (.ofSources (← sourcesFrom path surroundings))

end Settings

end FlightPlanner
