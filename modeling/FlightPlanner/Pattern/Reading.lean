import FlightPlanner.Pattern.Basic
import FlightPlanner.Text.Blank
import FlightPlanner.Text.Hexadecimal
import FlightPlanner.Text.Word

/-!
# Patterns as they are read

The written form of patterns. With the flag `x` blanks and comments do not count; `spaced` says whether it is
set. There are no braces, neither for counted repetitions nor for long numbers, and no categories of
characters.
-/

namespace FlightPlanner.Pattern

/-- What follows blanks and comments, where they do not count. -/
def dropFree (spaced : Bool) (inComment : Bool) : List Char → List Char
  | [] => []
  | c :: rest =>
    if inComment then dropFree spaced (c ≠ '\n') rest
    else if spaced && Text.isBlank c then dropFree spaced false rest
    else if spaced && c = '#' then dropFree spaced true rest
    else c :: rest

/-- What follows blanks and comments, where they do not count; it has to be something. -/
def dropFree? (spaced : Bool) (text : List Char) : Option (List Char) :=
  match dropFree spaced false text with
  | [] => none
  | text => some text

/-- The character looked at to see whether a hyphen stands for a range. Of a comment only the sign that starts
it is passed over, and where there is nothing but blanks the first of them is taken. -/
def ahead (spaced : Bool) (text : List Char) : Option Char :=
  if spaced then
    match Text.trimStart text with
    | '#' :: rest => ((Text.trimStart rest).head?).or text.head?
    | [] => text.head?
    | c :: _ => some c
  else text.head?

/-- The number of so many hexadecimal digits behind another, and the rest. -/
def spanHex? (spaced : Bool) : (width : Nat) → (number : Nat) → List Char → Option (Nat × List Char)
  | 0, number, text => some (number, text)
  | width + 1, number, text => do
    match ← dropFree? spaced text with
    | [] => none
    | c :: rest => spanHex? spaced width (16 * number + (← Text.hexValue? c)) rest

/-- The character of an escape by a letter. -/
def controlOf? (c : Char) : Option Char :=
  if c = 'a' then some '\x07'
  else if c = 'f' then some '\x0c'
  else if c = 't' then some '\t'
  else if c = 'n' then some '\n'
  else if c = 'r' then some '\r'
  else if c = 'v' then some '\x0b'
  else none

/-- Whether a character is a sign of ASCII that a backslash may stand in front of. -/
def isSign (c : Char) : Bool := c.toNat < 0x80 && !c.isAlphanum && c ≠ '<' && c ≠ '>'

/-- A character by its number, and the rest. -/
def spanNumbered? (spaced : Bool) (width : Nat) (text : List Char) : Option (Pattern × List Char) := do
  let (number, rest) ← spanHex? spaced width 0 text
  some (.char (← Text.charOf? number) (width = 2), rest)

/-- An escape behind its backslash, and the rest. -/
def spanEscape? (spaced : Bool) : List Char → Option (Pattern × List Char)
  | [] => none
  | 'x' :: rest => spanNumbered? spaced 2 rest
  | 'u' :: rest => spanNumbered? spaced 4 rest
  | 'U' :: rest => spanNumbered? spaced 8 rest
  | c :: rest =>
    if ['d', 's', 'w', 'D', 'S', 'W'].contains c then some (.kind c, rest)
    else if c = 'A' || c = 'z' then some (.edge false, rest)
    else if c = 'b' || c = 'B' || c = '<' || c = '>' then some (.edge true, rest)
    else match controlOf? c with
      | some control => some (.char control false, rest)
      | none => if isSign c then some (.char c false, rest) else none

/-- A character or an escape in a class, and the rest. -/
def spanMember? (spaced : Bool) : List Char → Option (Pattern × List Char)
  | [] => none
  | '\\' :: rest => spanEscape? spaced rest
  | c :: rest => some (.char c false, rest)

/-- What a character or an escape is in a class. -/
def member? : Pattern → Option CharClass
  | .char c _ => some (.char c)
  | .kind letter => some (.kind letter)
  | _ => none

/-- A range of characters in a class, or a single member, and the rest. -/
def spanRange? (spaced : Bool) (text : List Char) : Option (CharClass × List Char) := do
  let (first, rest) ← spanMember? spaced text
  let rest ← dropFree? spaced rest
  match rest with
  | '-' :: after =>
    if ahead spaced after = some ']' || ahead spaced after = some '-' then some (← member? first, rest)
    else
      let (last, rest) ← spanMember? spaced (← dropFree? spaced after)
      match first, last with
      | .char a _, .char b _ => if a ≤ b then some (.range a b, rest) else none
      | _, _ => none
  | _ => some (← member? first, rest)

/-- The names of the classes of ASCII. -/
def classNames : List String :=
  ["alnum", "alpha", "ascii", "blank", "cntrl", "digit", "graph", "lower", "print", "punct", "space", "upper",
    "word", "xdigit"]

/-- A class of ASCII behind its opening bracket, by its name between colons, and the rest. -/
def spanNamed? : List Char → Option (CharClass × List Char)
  | ':' :: rest =>
    let (negated, text) := match rest with
      | '^' :: rest => (true, rest)
      | rest => (false, rest)
    let name := text.takeWhile (· ≠ ':')
    match text.drop name.length with
    | ':' :: ']' :: rest =>
      if classNames.contains (String.ofList name) then some (.named negated, rest) else none
    | _ => none
  | _ => none

/-- The hyphens in front of a class's members, which stand for themselves, added to those before them, and the
rest. -/
def spanHyphens? (spaced : Bool) : (steps : Nat) → List CharClass → List Char →
    Option (List CharClass × List Char)
  | 0, _, _ => none
  | steps + 1, members, text =>
    match text with
    | '-' :: rest => do spanHyphens? spaced steps (.char '-' :: members) (← dropFree? spaced rest)
    | text => some (members, text)

/-- The closing bracket that stands for itself because it is the first member of a class, and the rest. -/
def spanFirst? (spaced : Bool) (members : List CharClass) : List Char → Option (List CharClass × List Char)
  | ']' :: rest =>
    if members.isEmpty then do some ([.char ']'], ← dropFree? spaced rest) else some (members, ']' :: rest)
  | text => some (members, text)

/-- A part of a class behind what it is joined with. -/
def joinTo (left : Option CharClass) (members : List CharClass) : CharClass :=
  match left with
  | some left => .joined left (.ofMembers members.reverse)
  | none => .ofMembers members.reverse

mutual

/-- A class behind its opening bracket, and the rest. -/
def spanClass? (spaced : Bool) : (steps : Nat) → List Char → Option (CharClass × List Char)
  | 0, _ => none
  | steps + 1, text => do
    let (negated, text) ← match ← dropFree? spaced text with
      | '^' :: rest => do some (true, ← dropFree? spaced rest)
      | text => some (false, text)
    let (members, text) ← spanHyphens? spaced (text.length + 1) [] text
    let (members, text) ← spanFirst? spaced members text
    let (inner, rest) ← spanMembers? spaced steps none members text
    some (.bracket negated inner, rest)

/-- The members of a class up to its closing bracket, added to those before them, the last one first, and the
rest. -/
def spanMembers? (spaced : Bool) : (steps : Nat) → (left : Option CharClass) → List CharClass → List Char →
    Option (CharClass × List Char)
  | 0, _, _, _ => none
  | steps + 1, left, members, text => do
    match ← dropFree? spaced text with
    | ']' :: rest => some (joinTo left members, rest)
    | '[' :: rest =>
      let (inner, rest) ← match spanNamed? rest with
        | some named => some named
        | none => spanClass? spaced steps rest
      spanMembers? spaced steps left (inner :: members) rest
    | '&' :: '&' :: rest => spanMembers? spaced steps (some (joinTo left members)) [] rest
    | '-' :: '-' :: rest => spanMembers? spaced steps (some (joinTo left members)) [] rest
    | '~' :: '~' :: rest => spanMembers? spaced steps (some (joinTo left members)) [] rest
    | text =>
      let (member, rest) ← spanRange? spaced text
      spanMembers? spaced steps left (member :: members) rest

end

/-- The letters of the flags. -/
def flagLetters : List Char := ['i', 'm', 's', 'U', 'u', 'R', 'x']

/-- The change that some letters stand for: those behind a hyphen are no longer set. No letter comes twice, and
nothing but letters follows the hyphen. -/
def changeOf? (text : List Char) : Option FlagChange :=
  let on := text.takeWhile (· ≠ '-')
  let behind := text.drop on.length
  let off := behind.drop 1
  if behind.length ≠ 1 && (on ++ off).all flagLetters.contains && decide (on ++ off).Nodup then
    some ⟨on, off⟩
  else none

/-- Whether a text may be the name of a group. -/
def isName : List Char → Bool
  | [] => false
  | c :: rest =>
    (c = '_' || Text.isLetter c) &&
      rest.all fun c => c = '_' || c = '.' || c = '[' || c = ']' || Text.isWordChar c

/-- What may stand behind an opening parenthesis. -/
inductive Opening where
  /-- Nothing but a change of flags. -/
  | flags (change : FlagChange)
  /-- A group, with a name perhaps, and with flags of its own. -/
  | group (name : Option (List Char)) (change : FlagChange)

/-- A group by its name behind the opening bracket of the name, and the rest. -/
def spanName? (text : List Char) : Option (Opening × List Char) :=
  let name := text.takeWhile (· ≠ '>')
  match text.drop name.length with
  | '>' :: rest => if isName name then some (.group (some name) .none, rest) else none
  | _ => none

/-- What an opening parenthesis starts, and the rest. -/
def spanOpening? : List Char → Option (Opening × List Char)
  | '?' :: 'P' :: '<' :: rest => spanName? rest
  | '?' :: '<' :: rest => spanName? rest
  | '?' :: rest => do
    let letters := rest.takeWhile fun c => c ≠ ':' && c ≠ ')'
    let change ← changeOf? letters
    match rest.drop letters.length with
    | ':' :: rest => some (.group none change, rest)
    | ')' :: rest => if letters.isEmpty then none else some (.flags change, rest)
    | _ => none
  | rest => some (.group none .none, rest)

/-- The parts of a sequence with the last one repeated; they stand with the last one first. -/
def repeatLast? : List Pattern → Option (List Pattern)
  | [] => none
  | .flags _ :: _ => none
  | last :: rest => some (.repeated last :: rest)

/-- What follows the sign of a repetition, and behind it the sign that asks for as few times as possible. -/
def dropLazy : List Char → List Char
  | '?' :: rest => rest
  | rest => rest

/-- The pattern of some branches and a last one, of which the parts stand with the last one first. -/
def ofBranches (branches : List Pattern) (parts : List Pattern) : Pattern :=
  let last := ofParts parts.reverse
  if branches.isEmpty then last else .choice (branches ++ [last])

/-- A pattern up to the end of the text or of the group, added to the branches and parts before it, and the
rest. -/
def spanPattern? : (steps : Nat) → (spaced : Bool) → (branches parts : List Pattern) → List Char →
    Option (Pattern × List Char)
  | 0, _, _, _, _ => none
  | steps + 1, spaced, branches, parts, text =>
    match dropFree spaced false text with
    | [] => some (ofBranches branches parts, [])
    | ')' :: rest => some (ofBranches branches parts, ')' :: rest)
    | '|' :: rest => spanPattern? steps spaced (branches ++ [ofParts parts.reverse]) [] rest
    | '(' :: rest => do
      match ← spanOpening? (dropFree spaced false rest) with
      | (.flags change, rest) => spanPattern? steps (change.apply 'x' spaced) branches (.flags change :: parts) rest
      | (.group name change, rest) => do
        match ← spanPattern? steps (change.apply 'x' spaced) [] [] rest with
        | (inner, ')' :: rest) => spanPattern? steps spaced branches (.group name change inner :: parts) rest
        | _ => none
    | '\x7b' :: _ => none
    | '[' :: rest => do
      let (chars, rest) ← spanClass? spaced (rest.length + 1) rest
      spanPattern? steps spaced branches (.oneOf chars :: parts) rest
    | '\\' :: rest => do
      let (escape, rest) ← spanEscape? spaced rest
      spanPattern? steps spaced branches (escape :: parts) rest
    | '.' :: rest => spanPattern? steps spaced branches (.any :: parts) rest
    | c :: rest =>
      if c = '*' || c = '+' || c = '?' then do
        spanPattern? steps spaced branches (← repeatLast? parts) (dropLazy rest)
      else if c = '^' || c = '$' then spanPattern? steps spaced branches (.edge false :: parts) rest
      else spanPattern? steps spaced branches (.char c false :: parts) rest

/-- The pattern that a text spells. -/
def ofText? (text : List Char) : Option Pattern :=
  match spanPattern? (text.length + 1) false [] [] text with
  | some (pattern, []) => some pattern
  | _ => none

end FlightPlanner.Pattern
