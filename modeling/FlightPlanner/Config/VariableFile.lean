import FlightPlanner.Config.Variables
import FlightPlanner.Text.Blank
import FlightPlanner.Text.Word

/-!
# Files of variables

A file with a variable on each line: a name, an equals sign and a text, which may be quoted and may refer to
other variables. A line adds its variable unless it is set already, and can refer to those of the lines before
it. The first bad line ends the file, and what was added before it stays.
-/

namespace FlightPlanner.Config

/-- How far the reading of a variable's text has come; `quoted` says whether it stands between double quotes. -/
inductive TextState where
  /-- Among characters that stand for themselves. -/
  | plain (quoted : Bool)
  /-- Between single quotes. -/
  | single
  /-- Behind a backslash. -/
  | escaped (quoted : Bool)
  /-- In the name of a variable behind a dollar sign. -/
  | named (quoted : Bool) (name : List Char)
  /-- In the name of a variable in braces behind a dollar sign. -/
  | braced (quoted : Bool) (name : List Char)
  /-- Behind a blank that ended the text. -/
  | ended
deriving DecidableEq, Repr

/-- The character that a backslash and the given one stand for. -/
def escapeOf? (c : Char) : Option Char :=
  if c = 'n' then some '\n'
  else if c = '\\' || c = '\'' || c = '"' || c = '$' || c = ' ' then some c
  else none

/-- The text that the characters behind an equals sign stand for; `value` gives the text of a variable. A quote
behind a variable's name without braces does not end the quoted text but belongs to it. -/
def expand? (value : List Char → List Char) : TextState → List Char → Option (List Char)
  | .plain quoted, [] => if quoted then none else some []
  | .single, [] => none
  | .escaped quoted, [] => if quoted then none else some []
  | .named quoted name, [] => if quoted then none else some (value name)
  | .braced _ _, [] => none
  | .ended, [] => some []
  | .ended, c :: rest =>
    if c = ' ' || c = '\t' then expand? value .ended rest
    else if c = '#' then some []
    else none
  | .escaped quoted, c :: rest => do
    let c ← escapeOf? c
    return c :: (← expand? value (.plain quoted) rest)
  | .single, c :: rest =>
    if c = '\'' then expand? value (.plain false) rest
    else (expand? value .single rest).map (c :: ·)
  | .named quoted name, c :: rest =>
    if Text.isWordChar c then expand? value (.named quoted (name ++ [c])) rest
    else if c = '\x7b' && name.isEmpty then expand? value (.braced quoted []) rest
    else if c = '$' then (expand? value (.named quoted []) rest).map (value name ++ ·)
    else (expand? value (.plain quoted) rest).map (value name ++ c :: ·)
  | .braced quoted name, c :: rest =>
    if c = '\x7d' then (expand? value (.plain quoted) rest).map (value name ++ ·)
    else expand? value (.braced quoted (name ++ [c])) rest
  | .plain quoted, c :: rest =>
    if c = '$' then expand? value (.named quoted []) rest
    else if c = '\\' then expand? value (.escaped quoted) rest
    else if c = '"' then expand? value (.plain !quoted) rest
    else if quoted then (expand? value (.plain true) rest).map (c :: ·)
    else if c = '\'' then expand? value .single rest
    else if c = ' ' || c = '\t' then expand? value .ended rest
    else (expand? value (.plain false) rest).map (c :: ·)

/-- Whether a character may start the name of a variable. -/
def isNameStart (c : Char) : Bool := c.isAlpha || c = '_'

/-- Whether a character may stand in the name of a variable behind its start. -/
def isNameChar (c : Char) : Bool := c.isAlphanum || c = '_' || c = '.'

/-- The name of a variable in front of a text, and what follows it and the blanks behind it. -/
def spanName? : List Char → Option (List Char × List Char)
  | [] => none
  | c :: rest =>
    if isNameStart c then
      some (c :: rest.takeWhile isNameChar, Text.trimStart (rest.dropWhile isNameChar))
    else none

/-- What follows an equals sign. -/
def spanEquals? : List Char → Option (List Char)
  | '=' :: rest => some rest
  | _ => none

/-- The name of a line's variable, and what follows the equals sign. The word for exporting a variable may stand
in front of the name, and may be a name itself. -/
def spanAssigned? (line : List Char) : Option (List Char × List Char) := do
  let (name, rest) ← spanName? line
  match spanEquals? rest with
  | some rest => some (name, rest)
  | none =>
    if name = "export".toList then
      let (name, rest) ← spanName? rest
      some (name, ← spanEquals? rest)
    else none

/-- The variable on a line: nothing where the line is bad, no variable where it is empty or a comment. -/
def readLine? (value : List Char → List Char) (line : List Char) : Option (Option (String × String)) :=
  match Text.trim line with
  | [] => some none
  | '#' :: _ => some none
  | line => do
    let (name, rest) ← spanAssigned? line
    match Text.trimStart rest with
    | [] => some (some (String.ofList name, ""))
    | '#' :: _ => some (some (String.ofList name, ""))
    | rest => some (some (String.ofList name, String.ofList (← expand? value (.plain false) rest)))

/-- The text that a reference stands for, empty where it leads nowhere. A variable is held with an equals sign
between its name and its text, and a reference may take in anything in front of an equals sign: in `a=b=c` both
`a` and `a=b` lead to what follows. -/
def Variables.textOf (env : Variables) (reference : List Char) : List Char :=
  let name := reference.takeWhile (· ≠ '=')
  let taken := reference.drop name.length ++ ['=']
  match env.get? (String.ofList name) with
  | some text =>
    let held := '=' :: text.toList
    if taken.isPrefixOf held then held.drop taken.length else []
  | none => []

/-- The variables with those of some lines. -/
def Variables.addLines (env : Variables) : List (List Char) → Variables
  | [] => env
  | line :: rest => match readLine? env.textOf line with
    | none => env
    | some none => env.addLines rest
    | some (some (name, text)) => (env.addMissing name text).addLines rest

/-- The lines of a text. -/
def linesOf (text : List Char) : List (List Char) := text.splitOn '\n'

/-- The variables with those of a file. -/
def Variables.addFile (env : Variables) (text : String) : Variables :=
  env.addLines (linesOf text.toList)

end FlightPlanner.Config
