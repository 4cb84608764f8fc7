/-!
# Complaints about values out of range

A complaint says which bounds a value was to keep and which value it was instead. Complaints about a value
with parts form a tree: its branches are the fields of a record and the places of a list, and each complaint
stands at the end of the way to the value it is about. `Tree.leaves` lists all ways with their complaints.
-/

namespace FlightPlanner.Validation

/-- A number that bounds can be asked of. -/
inductive Amount where
  /-- A double. -/
  | real (value : Float)
  /-- A whole number. -/
  | whole (value : Nat)
deriving DecidableEq

/-- A complaint: the bounds that were declared and the value that is not within them. -/
structure Complaint where
  /-- The least allowed value, where one is declared. -/
  least : Option Amount
  /-- The greatest allowed value, where one is declared. -/
  greatest : Option Amount
  /-- The value complained about. -/
  value : Amount
deriving DecidableEq

/-- One step from a value into one of its parts. -/
inductive Step where
  /-- To a field of a record. -/
  | field (name : String)
  /-- To a place of a list. -/
  | index (place : Nat)
deriving DecidableEq, Repr

/-- The complaints about a value, along the parts of the value. -/
inductive Tree where
  /-- A complaint about the value itself. -/
  | leaf (complaint : Complaint)
  /-- The complaints about its parts. -/
  | branch (parts : List (Step × Tree))

/-- The complaints about the parts of a value; a value without parts to complain about has none. -/
abbrev Forest := List (Step × Tree)

mutual
/-- All complaints of a tree, each with the way to it. -/
def Tree.leaves : Tree → List (List Step × Complaint)
  | .leaf complaint => [([], complaint)]
  | .branch parts => leavesOfParts parts

/-- All complaints of some parts, each with the way to it. -/
def leavesOfParts : List (Step × Tree) → List (List Step × Complaint)
  | [] => []
  | (step, tree) :: rest => (tree.leaves.map fun (way, c) => (step :: way, c)) ++ leavesOfParts rest
end

/-- The complaints about one part that has parts itself; it is left out when there are none. -/
def Forest.under (step : Step) (parts : Forest) : Forest :=
  if parts.isEmpty then [] else [(step, .branch parts)]

/-- The complaints about the elements of a list, under their places from `start` on. -/
def Forest.ofListFrom (check : α → Forest) (start : Nat) : List α → Forest
  | [] => []
  | a :: rest => Forest.under (.index start) (check a) ++ Forest.ofListFrom check (start + 1) rest

/-- The complaints about the elements of a list, under their places. -/
def Forest.ofList (check : α → Forest) (elements : List α) : Forest :=
  Forest.ofListFrom check 0 elements

/-- The complaints about a part that may be absent. -/
def Forest.ofOption (check : α → Forest) : Option α → Forest
  | some a => check a
  | none => []

end FlightPlanner.Validation
