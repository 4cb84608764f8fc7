/-!
# Patterns

A pattern describes texts: by characters, classes of them in brackets, ends of words and of the text,
repetitions, groups and alternatives. It also holds the flags that change how it is meant. Patterns are never
matched here; what counts is how they are built, so signs that mean the same for that are told apart no
further.
-/

namespace FlightPlanner

/-- A change of flags: which are set, and which are no longer. -/
structure FlagChange where
  /-- The letters of those that are set. -/
  on : List Char
  /-- The letters of those that are no longer set. -/
  off : List Char
deriving DecidableEq, Repr

/-- No flag is changed. -/
def FlagChange.none : FlagChange := ⟨[], []⟩

/-- Whether a flag is set after a change. -/
def FlagChange.apply (change : FlagChange) (letter : Char) (current : Bool) : Bool :=
  if change.on.contains letter then true
  else if change.off.contains letter then false
  else current

/-- A class of characters, or a part of one. -/
inductive CharClass where
  /-- Nothing. -/
  | empty
  /-- One character. -/
  | char (c : Char)
  /-- The characters from one to another. -/
  | range (first last : Char)
  /-- A class of ASCII by its name, or all characters but these. -/
  | named (negated : Bool)
  /-- The digits, blanks or letters of words, by a small letter; by its capital, all other characters. -/
  | kind (letter : Char)
  /-- A class in brackets, or all characters but these. -/
  | bracket (negated : Bool) (inner : CharClass)
  /-- Several parts. -/
  | union (members : List CharClass)
  /-- Two parts joined by a doubled sign. -/
  | joined (left right : CharClass)

/-- A pattern, or a part of one. -/
inductive Pattern where
  /-- Nothing. -/
  | empty
  /-- A change of flags from here to the end of the group. -/
  | flags (change : FlagChange)
  /-- A character; `asByte` says whether it is given by the number of a byte. -/
  | char (c : Char) (asByte : Bool)
  /-- Any character. -/
  | any
  /-- The start or the end of a line, of the text or, if `ofWord`, of a word. -/
  | edge (ofWord : Bool)
  /-- The digits, blanks or letters of words, by a small letter; by its capital, all other characters. -/
  | kind (letter : Char)
  /-- A class in brackets. -/
  | oneOf (chars : CharClass)
  /-- A part that is repeated or may be left out. -/
  | repeated (inner : Pattern)
  /-- A group, with a name perhaps, and with flags of its own. -/
  | group (name : Option (List Char)) (change : FlagChange) (inner : Pattern)
  /-- Parts one after the other. -/
  | sequence (parts : List Pattern)
  /-- Parts of which one is chosen. -/
  | choice (branches : List Pattern)

/-- The class of some members. -/
def CharClass.ofMembers : List CharClass → CharClass
  | [] => .empty
  | [member] => member
  | members => .union members

/-- The pattern of some parts one after the other. -/
def Pattern.ofParts : List Pattern → Pattern
  | [] => .empty
  | [part] => part
  | parts => .sequence parts

mutual

/-- How deep a class is nested. -/
def CharClass.depth : CharClass → Nat
  | .empty => 0
  | .char _ => 0
  | .range _ _ => 0
  | .named _ => 0
  | .kind _ => 0
  | .bracket _ inner => inner.depth + 1
  | .union members => depthOfMembers members + 1
  | .joined left right => max left.depth right.depth + 1

/-- How deep the deepest of some classes is nested. -/
def CharClass.depthOfMembers : List CharClass → Nat
  | [] => 0
  | member :: rest => max member.depth (CharClass.depthOfMembers rest)

end

namespace Pattern

mutual

/-- How deep a pattern is nested. -/
def depth : Pattern → Nat
  | .empty => 0
  | .flags _ => 0
  | .char _ _ => 0
  | .any => 0
  | .edge _ => 0
  | .kind _ => 0
  | .oneOf chars => chars.depth
  | .repeated inner => inner.depth + 1
  | .group _ _ inner => inner.depth + 1
  | .sequence parts => depthOfParts parts + 1
  | .choice branches => depthOfParts branches + 1

/-- How deep the deepest of some patterns is nested. -/
def depthOfParts : List Pattern → Nat
  | [] => 0
  | part :: rest => max part.depth (depthOfParts rest)

end

mutual

/-- The names of a pattern's groups. -/
def names : Pattern → List (List Char)
  | .repeated inner => inner.names
  | .group none _ inner => inner.names
  | .group (some name) _ inner => name :: inner.names
  | .sequence parts => namesOfParts parts
  | .choice branches => namesOfParts branches
  | _ => []

/-- The names of the groups of some patterns. -/
def namesOfParts : List Pattern → List (List Char)
  | [] => []
  | part :: rest => part.names ++ namesOfParts rest

end

end Pattern

end FlightPlanner
