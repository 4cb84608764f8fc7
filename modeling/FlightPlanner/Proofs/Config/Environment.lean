import FlightPlanner.Config.VariableFile

/-!
# What a file of variables adds to the environment

A variable of the environment keeps its text. One that the environment does not set gets its text from the first
line that names it, if no bad line comes before; references on a line see the environment with the variables of
the lines before it.
-/

namespace FlightPlanner.Config.Variables

/-- Whether lines supply a variable with a text: the first of them that names it does, and can be reached. -/
inductive Supplies : Variables → List (List Char) → String → String → Prop where
  /-- The first line names it. -/
  | here {env : Variables} {line : List Char} {rest : List (List Char)} {name text : String}
      (read : readLine? env.textOf line = some (some (name, text))) : Supplies env (line :: rest) name text
  /-- The first line is empty or a comment, and those behind it supply it. -/
  | pastEmpty {env : Variables} {line : List Char} {rest : List (List Char)} {name text : String}
      (read : readLine? env.textOf line = some none) (supplies : Supplies env rest name text) :
      Supplies env (line :: rest) name text
  /-- The first line names another variable, and those behind it supply this one. -/
  | pastOther {env : Variables} {line : List Char} {rest : List (List Char)} {name text other otherText : String}
      (read : readLine? env.textOf line = some (some (other, otherText))) (differ : name ≠ other)
      (supplies : Supplies (env.addMissing other otherText) rest name text) :
      Supplies env (line :: rest) name text

/-- No lines supply nothing. -/
theorem not_supplies_nil (env : Variables) (name text : String) : ¬Supplies env [] name text := nofun

/-- Behind a bad line nothing is supplied. -/
theorem not_supplies_of_bad {env : Variables} {line : List Char} (hread : readLine? env.textOf line = none)
    (rest : List (List Char)) (name text : String) : ¬Supplies env (line :: rest) name text := by
  intro h
  cases h <;> simp_all

/-- An empty line or a comment supplies nothing itself. -/
theorem supplies_cons_of_empty {env : Variables} {line : List Char}
    (hread : readLine? env.textOf line = some none) (rest : List (List Char)) (name text : String) :
    Supplies env (line :: rest) name text ↔ Supplies env rest name text := by
  refine ⟨fun h => ?_, .pastEmpty hread⟩
  cases h with
  | here read => simp [hread] at read
  | pastEmpty _ supplies => exact supplies
  | pastOther read => simp [hread] at read

/-- A line that names a variable supplies that one, and leaves the others to those behind it. -/
theorem supplies_cons_of_named {env : Variables} {line : List Char} {other otherText : String}
    (hread : readLine? env.textOf line = some (some (other, otherText))) (rest : List (List Char))
    (name text : String) :
    Supplies env (line :: rest) name text ↔
      if name = other then otherText = text else Supplies (env.addMissing other otherText) rest name text := by
  split
  case isTrue h =>
    subst h
    refine ⟨fun h => ?_, fun h => h ▸ .here hread⟩
    cases h with
    | here read => simp_all
    | pastEmpty read => simp [hread] at read
    | pastOther read differ => simp_all
  case isFalse hne =>
    refine ⟨fun h => ?_, .pastOther hread hne⟩
    cases h with
    | here read => simp_all
    | pastEmpty read => simp [hread] at read
    | pastOther read _ supplies =>
      obtain ⟨rfl, rfl⟩ : other = _ ∧ otherText = _ := by simpa [hread] using read
      exact supplies

/-- A variable has a text after some lines when it had it before, or when it was not set and they supply it. -/
theorem get?_addLines (env : Variables) (lines : List (List Char)) (name text : String) :
    (env.addLines lines).get? name = some text ↔
      env.get? name = some text ∨ env.get? name = none ∧ Supplies env lines name text := by
  induction lines generalizing env with
  | nil => simp [addLines, not_supplies_nil]
  | cons line rest ih =>
    rw [addLines]
    split
    next hbad => simp [not_supplies_of_bad hbad]
    next hempty => rw [ih, supplies_cons_of_empty hempty]
    next other otherText hnamed =>
      rw [ih, supplies_cons_of_named hnamed, get?_addMissing]
      cases env.get? name with
      | some old => simp
      | none => by_cases h : name = other <;> simp [h]

end FlightPlanner.Config.Variables
