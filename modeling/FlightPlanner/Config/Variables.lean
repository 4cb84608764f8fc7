import FlightPlanner.Config.Value

/-!
# Variables of the environment

Named texts. Those whose name starts with the mark of the program are a source of values: the rest of the name
is a path, with doubled underscores between its keys.
-/

namespace FlightPlanner.Config

/-- The variables of the environment. -/
abbrev Variables := Keyed String

namespace Variables

/-- The text of a variable. -/
def get? (env : Variables) (name : String) : Option String := env.lookup name

/-- The variables with one more, unless it is set already. -/
def addMissing (name text : String) (env : Variables) : Variables :=
  if (env.get? name).isSome then env else env ++ [(name, text)]

/-- A variable that is set keeps its text, and only the one that was added can be new. -/
theorem get?_addMissing (env : Variables) (name text other : String) :
    (env.addMissing name text).get? other =
      (env.get? other).or (if other = name then some text else none) := by
  unfold addMissing
  split
  · next h =>
    by_cases ho : other = name
    · subst ho
      obtain ⟨old, hold⟩ := Option.isSome_iff_exists.1 h
      simp [hold]
    · simp [ho]
  · simp only [get?, List.lookup_append, Keyed.lookup_cons, List.lookup_nil]

/-- The mark with which the names of the program's own variables start, in small letters. -/
def mark : List Char := "skyplan__".toList

/-- A text with a point in place of each two underscores, from left to right. -/
def pointed : List Char → List Char
  | '_' :: '_' :: rest => '.' :: pointed rest
  | c :: rest => c :: pointed rest
  | [] => []

/-- The path in the name of a variable of the program's own. -/
def pathOfName? (name : String) : Option String :=
  let name := (foldKey name).toList
  if mark.isPrefixOf name then some (String.ofList (pointed (name.drop mark.length))) else none

/-- What a variable's text stands for: a truth value, a whole number or a double, if it spells one. -/
def scalarOfText (text : String) : Scalar :=
  if foldKey text = "true" then .boolean true
  else if foldKey text = "false" then .boolean false
  else match (Decimal.readInt? text.toList).bind Decimal.within64? with
    | some n => .integer n
    | none => match Decimal.readReal? text with
      | some x => .real x
      | none => .text text

/-- The values that the program's own variables give. -/
def source (env : Variables) : Entries :=
  env.filterMap fun (name, text) =>
    (pathOfName? name).map fun path => (path, .leaf (some .environment) (scalarOfText text))

end Variables

end FlightPlanner.Config
