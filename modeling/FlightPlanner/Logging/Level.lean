import FlightPlanner.Decimal.Reading

/-!
# Levels of the log

How much an event matters, and up to which level events are written.
-/

namespace FlightPlanner.Logging

/-- How much an event matters. -/
inductive Level where
  /-- Something failed. -/
  | error
  /-- Something may go wrong. -/
  | warn
  /-- Something happened that is worth knowing. -/
  | info
  /-- A detail that helps to find a mistake. -/
  | debug
  /-- Any other detail. -/
  | trace
deriving DecidableEq, Repr

namespace Level

/-- The place of a level in the order from what matters most to what matters least, counted from one. -/
def rank : Level → Nat
  | .error => 1
  | .warn => 2
  | .info => 3
  | .debug => 4
  | .trace => 5

/-- The name of a level. -/
def name : Level → String
  | .error => "error"
  | .warn => "warn"
  | .info => "info"
  | .debug => "debug"
  | .trace => "trace"

/-- All levels. -/
def all : List Level := [.error, .warn, .info, .debug, .trace]

end Level

/-- Up to which level events are written: none at all, or those that matter at least as much as the given. -/
abbrev Ceiling := Option Level

namespace Ceiling

/-- The ceiling with the given number: nought writes nothing. -/
def ofRank? (n : Nat) : Option Ceiling :=
  if n = 0 then some none else (Level.all.find? fun level => level.rank = n).map some

/-- The ceiling that a text names by its number or, in letters of either case, by its word. -/
def ofText? (text : String) : Option Ceiling :=
  let word := String.ofList (text.toList.map Char.toLower)
  match (Decimal.readNat? text.toList).bind ofRank? with
  | some ceiling => some ceiling
  | none => if word = "off" then some none else (Level.all.find? fun level => level.name = word).map some

/-- Whether an event of the given level is written. -/
def admits (ceiling : Ceiling) (level : Level) : Bool :=
  match ceiling with
  | some most => level.rank ≤ most.rank
  | none => false

/-- A higher ceiling writes all that a lower one does. -/
theorem admits_of_le {low high : Level} (h : low.rank ≤ high.rank) {level : Level}
    (hl : Ceiling.admits (some low) level = true) : Ceiling.admits (some high) level = true := by
  simp only [admits, decide_eq_true_eq] at hl ⊢
  omega

end Ceiling

end FlightPlanner.Logging
