import FlightPlanner.Decimal.Reading

/-!
# Paths of keys

A path says where in nested tables and lists a value stands: `ranking.max_limit`, `ranking[0]`. Letters of
either case mean the same key.
-/

namespace FlightPlanner.Config

/-- One step of a path. -/
inductive Step where
  /-- Into a table, at a key. -/
  | child (key : String)
  /-- Into a list, at a place counted from nought, or below it from the end. -/
  | index (place : Int)
deriving DecidableEq, Repr

/-- A letter in its small form. Of the characters outside ASCII only the sign of the kelvin has a small form
inside it, so that no other can turn a foreign key into a known one. -/
def foldChar (c : Char) : Char := if c = '\u212A' then 'k' else c.toLower

/-- A key in small letters. -/
def foldKey (key : String) : String := String.ofList (key.toList.map foldChar)

/-- Whether a character may stand in a key of a path. -/
def isKeyChar (c : Char) : Bool := c.isAlphanum || c = ' ' || c = '_' || c = '-'

/-- A key in front of a text, and the rest. -/
def spanKey? (text : List Char) : Option (String × List Char) :=
  let key := text.takeWhile isKeyChar
  if key.isEmpty then none else some (String.ofList key, text.dropWhile isKeyChar)

/-- Whether a character is a blank inside brackets. -/
def isGap (c : Char) : Bool := c = ' ' || c = '\t'

/-- A place in brackets behind the opening one, and the rest. It has to fit into sixty-four bits with a
sign. -/
def spanPlace? (text : List Char) : Option (Int × List Char) :=
  let (negative, rest) := match text.dropWhile isGap with
    | '-' :: rest => (true, rest)
    | rest => (false, rest)
  let (digits, rest) := Decimal.spanDigits rest
  let place : Int := if negative then -(Decimal.ofDigits digits : Int) else Decimal.ofDigits digits
  if digits.isEmpty then none
  else match rest.dropWhile isGap with
    | ']' :: rest => (Decimal.within64? place).map (·, rest)
    | _ => none

/-- The steps that follow the first key of a path and fill the text. -/
def readSteps? : (fuel : Nat) → List Char → Option (List Step)
  | _, [] => some []
  | 0, _ => none
  | fuel + 1, '.' :: rest => do
    let (key, rest) ← spanKey? rest
    return .child key :: (← readSteps? fuel rest)
  | fuel + 1, '[' :: rest => do
    let (place, rest) ← spanPlace? rest
    return .index place :: (← readSteps? fuel rest)
  | _, _ => none

/-- The path that a text spells, if it spells one. -/
def readPath? (text : String) : Option (List Step) := do
  let (key, rest) ← spanKey? text.toList
  return .child key :: (← readSteps? rest.length rest)

/-- The path of a text, in small letters; a text that spells none is a single key. -/
def pathOf (text : String) : List Step := (readPath? (foldKey text)).getD [.child (foldKey text)]

/-- The text of the steps behind another, which `inTable` says led into a table: a point stands between two
keys, and nowhere else. -/
def stepsText (inTable : Bool) : List Step → String
  | [] => ""
  | .child key :: rest => (if inTable then "." else "") ++ key ++ stepsText true rest
  | .index place :: rest => "[" ++ toString place ++ "]" ++ stepsText false rest

/-- The text of a path. -/
def pathText (path : List Step) : String := stepsText false path

end FlightPlanner.Config
