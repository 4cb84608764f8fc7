import FlightPlanner.Pattern.Reading

/-!
# Patterns that can be used

Not every pattern can be matched: there are no tables of all characters at hand, so nothing that depends on
them is supported, neither kinds of characters and ends of words beyond ASCII nor the disregard of case. And
whatever a pattern matches has to be made of whole characters, so that bytes by themselves are supported no
further than ASCII. Patterns must also not be nested too deeply, and must not use a name twice.
-/

namespace FlightPlanner

/-- The flags that decide on what is supported. -/
structure MatchMode where
  /-- Whether small letters and capitals are the same. -/
  caseless : Bool
  /-- Whether texts are taken as characters; otherwise as bytes. -/
  unicode : Bool
deriving DecidableEq, Repr

namespace MatchMode

/-- The flags that are set to begin with. -/
def standard : MatchMode := ⟨false, true⟩

/-- The flags after a change. -/
def change (mode : MatchMode) (change : FlagChange) : MatchMode :=
  ⟨change.apply 'i' mode.caseless, change.apply 'u' mode.unicode⟩

/-- Whether a character can be told from others: as a character only with regard to case. -/
def supportsChars (mode : MatchMode) : Bool := !(mode.unicode && mode.caseless)

/-- Whether a kind of characters is supported: as bytes only, and not by what it leaves out. -/
def supportsKind (mode : MatchMode) (letter : Char) : Bool := !mode.unicode && !letter.isUpper

end MatchMode

mutual

/-- Whether a class is supported. As bytes it must have nothing beyond ASCII. -/
def CharClass.isSupported (mode : MatchMode) : CharClass → Bool
  | .empty => true
  | .char c => mode.supportsChars && (mode.unicode || c.toNat < 0x80)
  | .range _ last => mode.supportsChars && (mode.unicode || last.toNat < 0x80)
  | .named negated => mode.supportsChars && (mode.unicode || !negated)
  | .kind letter => mode.supportsKind letter
  | .bracket negated inner => (mode.unicode || !negated) && inner.isSupported mode
  | .union members => areSupported mode members
  | .joined left right => left.isSupported mode && right.isSupported mode

/-- Whether some classes are supported. -/
def CharClass.areSupported (mode : MatchMode) : List CharClass → Bool
  | [] => true
  | member :: rest => member.isSupported mode && CharClass.areSupported mode rest

end

namespace Pattern

/-- The given flags, if something is supported under them. -/
def keeping (mode : MatchMode) (supported : Bool) : Option MatchMode := if supported then some mode else none

mutual

/-- The flags behind a pattern, if it is supported under those in front of it. -/
def modeBehind? (mode : MatchMode) : Pattern → Option MatchMode
  | .empty => some mode
  | .flags change => some (mode.change change)
  | .char c asByte => keeping mode (mode.supportsChars && (mode.unicode || !asByte || c.toNat < 0x80))
  | .any => keeping mode mode.unicode
  | .edge ofWord => keeping mode !(ofWord && mode.unicode)
  | .kind letter => keeping mode (mode.supportsKind letter)
  | .oneOf chars => keeping mode (chars.isSupported mode)
  | .repeated inner => modeBehind? mode inner
  | .group _ change inner => (modeBehind? (mode.change change) inner).map fun _ => mode
  | .sequence parts => modeBehindParts? mode parts
  | .choice branches => modeBehindParts? mode branches

/-- The flags behind some patterns, if each is supported under those in front of it. -/
def modeBehindParts? (mode : MatchMode) : List Pattern → Option MatchMode
  | [] => some mode
  | part :: rest => match modeBehind? mode part with
    | some mode => modeBehindParts? mode rest
    | none => none

end

/-- How deep a pattern may be nested. -/
def greatestDepth : Nat := 250

/-- Whether a pattern is supported. -/
def isSupported (pattern : Pattern) : Bool :=
  pattern.depth ≤ greatestDepth && decide pattern.names.Nodup && (pattern.modeBehind? .standard).isSome

/-- Whether a text spells a pattern that is supported. -/
def isSpelledBy (text : List Char) : Bool := (ofText? text).any isSupported

end Pattern

end FlightPlanner
