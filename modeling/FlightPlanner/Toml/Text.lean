import FlightPlanner.Text.Hexadecimal

/-!
# Blanks, comments, keys and texts of TOML

The smallest parts of a TOML document. Texts come in four forms: between double quotes with escapes or
between single quotes without, and each of them on one line or, between tripled quotes, on several.
-/

namespace FlightPlanner.Toml

/-- Whether a character is a blank within a line. -/
def isBlank (c : Char) : Bool := c = ' ' || c = '\t'

/-- A text without the blanks in front of it. -/
def dropBlanks (text : List Char) : List Char := text.dropWhile isBlank

/-- What follows the end of a line in front of a text. -/
def spanNewline? : List Char → Option (List Char)
  | '\n' :: rest => some rest
  | '\r' :: '\n' :: rest => some rest
  | _ => none

/-- Whether a character may stand in a comment: all but the controls, among which the tabulator is allowed. -/
def isPrintable (c : Char) : Bool := c = '\t' || (0x20 ≤ c.toNat && c.toNat ≠ 0x7F)

/-- What follows a comment, up to the end of its line or the first character that may not stand in it. -/
def dropComment : List Char → List Char
  | '#' :: rest => rest.dropWhile isPrintable
  | text => text

/-- What follows the end of a line after blanks and a comment; the end of the text ends the line too. -/
def endLine? (text : List Char) : Option (List Char) :=
  match dropComment (dropBlanks text) with
  | [] => some []
  | rest => spanNewline? rest

/-- What follows blanks, comments and ends of lines. -/
def dropFiller (steps : Nat) (text : List Char) : List Char :=
  match steps with
  | 0 => text
  | steps + 1 =>
    match dropBlanks text with
    | '#' :: rest => dropFiller steps (rest.dropWhile isPrintable)
    | rest => match spanNewline? rest with
      | some rest => dropFiller steps rest
      | none => rest

/-- The character of an escape behind its backslash, and the rest. -/
def spanEscape? : List Char → Option (Char × List Char)
  | 'b' :: rest => some ('\x08', rest)
  | 't' :: rest => some ('\t', rest)
  | 'n' :: rest => some ('\n', rest)
  | 'f' :: rest => some ('\x0c', rest)
  | 'r' :: rest => some ('\r', rest)
  | '"' :: rest => some ('"', rest)
  | '\\' :: rest => some ('\\', rest)
  | 'u' :: rest => Text.spanNumbered? 4 rest
  | 'U' :: rest => Text.spanNumbered? 8 rest
  | _ => none

/-- A character in front of what has been read of a text. -/
def consChar (c : Char) (result : Option (List Char × List Char)) : Option (List Char × List Char) :=
  result.map fun (read, rest) => (c :: read, rest)

/-- The characters of a text on one line behind its double quote, and what follows it. -/
def spanBasic? : (steps : Nat) → List Char → Option (List Char × List Char)
  | 0, _ => none
  | steps + 1, text =>
    match text with
    | [] => none
    | '"' :: rest => some ([], rest)
    | '\\' :: rest => do
      let (c, rest) ← spanEscape? rest
      consChar c (spanBasic? steps rest)
    | c :: rest => if isPrintable c then consChar c (spanBasic? steps rest) else none

/-- The characters of a text on one line behind its single quote, and what follows it. -/
def spanLiteral? : List Char → Option (List Char × List Char)
  | [] => none
  | c :: rest =>
    if c = '\'' then some ([], rest)
    else if isPrintable c then consChar c (spanLiteral? rest)
    else none

/-- What follows blanks and ends of lines. -/
def dropGap (steps : Nat) (text : List Char) : List Char :=
  match steps with
  | 0 => text
  | steps + 1 => match spanNewline? (dropBlanks text) with
    | some rest => dropGap steps rest
    | none => dropBlanks text

/-- What follows a backslash that hides the end of its line, with all blanks and ends of lines after it. -/
def spanHidden? (text : List Char) : Option (List Char) :=
  (spanNewline? (dropBlanks text)).map fun rest => dropGap (rest.length + 1) rest

/-- The quotes that end a text on several lines: three close it, and up to two more in front of them belong
to it. The result is how many belong to it, and what follows the closing ones. -/
def spanClosing? (quote : Char) (text : List Char) : Option (Nat × List Char) :=
  let run := (text.takeWhile (· = quote)).length
  if run < 3 then none
  else
    let own := min (run - 3) 2
    some (own, text.drop (own + 3))

/-- The characters of a text on several lines, and what follows it; `escapes` says whether a backslash has a
meaning. -/
def spanLines? (quote : Char) (escapes : Bool) : (steps : Nat) → List Char → Option (List Char × List Char)
  | 0, _ => none
  | steps + 1, text =>
    match spanClosing? quote text with
    | some (own, rest) => some (List.replicate own quote, rest)
    | none =>
      match text with
      | [] => none
      | c :: rest =>
        if escapes && c = '\\' then
          match spanHidden? rest with
          | some rest => spanLines? quote escapes steps rest
          | none => do
            let (c, rest) ← spanEscape? rest
            consChar c (spanLines? quote escapes steps rest)
        else match spanNewline? text with
          | some rest => consChar '\n' (spanLines? quote escapes steps rest)
          | none => if isPrintable c then consChar c (spanLines? quote escapes steps rest) else none

/-- A text on several lines behind its opening quotes; an end of line directly behind them does not count. -/
def spanMultiline? (quote : Char) (escapes : Bool) (text : List Char) : Option (List Char × List Char) :=
  spanLines? quote escapes (text.length + 1) ((spanNewline? text).getD text)

/-- The text in front of a text that starts with a quote, in any of the four forms, and the rest. -/
def spanText? : List Char → Option (List Char × List Char)
  | '"' :: '"' :: '"' :: rest => spanMultiline? '"' true rest
  | '"' :: rest => spanBasic? (rest.length + 1) rest
  | '\'' :: '\'' :: '\'' :: rest => spanMultiline? '\'' false rest
  | '\'' :: rest => spanLiteral? rest
  | _ => none

/-- Whether a character may stand in a key without quotes. -/
def isBare (c : Char) : Bool := c.isAlphanum || c = '-' || c = '_'

/-- One part of a key, and the rest. -/
def spanKeyPart? : List Char → Option (List Char × List Char)
  | '"' :: rest => spanBasic? (rest.length + 1) rest
  | '\'' :: rest => spanLiteral? rest
  | text =>
    let part := text.takeWhile isBare
    if part.isEmpty then none else some (part, text.dropWhile isBare)

/-- The parts of a key with points between them, blanks around each, and the rest. -/
def spanKey? : (steps : Nat) → List Char → Option (List String × List Char)
  | 0, _ => none
  | steps + 1, text => do
    let (part, rest) ← spanKeyPart? (dropBlanks text)
    match dropBlanks rest with
    | '.' :: rest =>
      let (parts, rest) ← spanKey? steps rest
      some (String.ofList part :: parts, rest)
    | rest => some ([String.ofList part], rest)

end FlightPlanner.Toml
