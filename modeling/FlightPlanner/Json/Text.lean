import FlightPlanner.Json.Error
import FlightPlanner.Text.Bytes

/-!
# Texts in documents

A text stands between double quotes, with quotes, backslashes and controls escaped. Escapes may also name the
units of the two-unit code in which most documents were once held; a character beyond the first sixty-five
thousand is then a pair of units. A text is read in two steps: `pieces` finds its end and its pieces, and
`joinPieces` makes characters of them, so that a text can also be passed over without being understood.
-/

namespace FlightPlanner.Json

/-- A piece of a written text. -/
inductive Piece where
  /-- A character, as it stands or behind a short escape. -/
  | char (c : Char)
  /-- A unit named by its number. -/
  | unit (code : Nat)
deriving DecidableEq, Repr

/-- The character that a short escape stands for. -/
def shortEscape? (c : Char) : Option Char :=
  if c = '"' then some '"'
  else if c = '\\' then some '\\'
  else if c = '/' then some '/'
  else if c = 'b' then some '\x08'
  else if c = 'f' then some '\x0c'
  else if c = 'n' then some '\n'
  else if c = 'r' then some '\r'
  else if c = 't' then some '\t'
  else none

/-- A piece in front of the pieces of the rest of a text. -/
def consPiece (piece : Piece) (rest : List Piece × Except Fault (List Char)) :
    List Piece × Except Fault (List Char) :=
  (piece :: rest.1, rest.2)

/-- The pieces of a text up to its closing quote, and what follows the quote. A text without an end or with
an escape or a control where none may stand has the pieces in front of the fault. -/
def pieces : List Char → List Piece × Except Fault (List Char)
  | [] => ([], .error .truncated)
  | '"' :: rest => ([], .ok rest)
  | '\\' :: [] => ([], .error .truncated)
  | '\\' :: 'u' :: a :: b :: c :: d :: rest =>
    match Text.hexNumber? [a, b, c, d] with
    | some code => consPiece (.unit code) (pieces rest)
    | none => ([], .error .malformed)
  | '\\' :: 'u' :: rest => ([], .error (if Text.byteCount rest < 4 then .truncated else .malformed))
  | '\\' :: c :: rest =>
    match shortEscape? c with
    | some c => consPiece (.char c) (pieces rest)
    | none => ([], .error .malformed)
  | c :: rest =>
    if c.toNat < 0x20 then ([], .error .malformed) else consPiece (.char c) (pieces rest)

/-- Whether a unit is the first of a pair. -/
def isLeading (code : Nat) : Bool := 0xD800 ≤ code && code ≤ 0xDBFF

/-- Whether a unit is the second of a pair. -/
def isTrailing (code : Nat) : Bool := 0xDC00 ≤ code && code ≤ 0xDFFF

/-- The character of a pair of units. -/
def ofPair (leading trailing : Nat) : Char :=
  .ofNat (0x10000 + (leading - 0xD800) * 0x400 + (trailing - 0xDC00))

/-- The characters of some pieces; `last` is what came after them. A unit of a pair that stands alone is a
fault, unless the text broke off before its partner could come. -/
def joinPieces (last : Except Fault Unit) : List Piece → Except Fault (List Char)
  | [] => last.map fun _ => []
  | .char c :: rest => (joinPieces last rest).map (c :: ·)
  | .unit leading :: .unit trailing :: rest =>
    if isLeading leading then
      if isTrailing trailing then (joinPieces last rest).map (ofPair leading trailing :: ·)
      else .error .malformed
    else if isTrailing leading then .error .malformed
    else (joinPieces last (.unit trailing :: rest)).map (.ofNat leading :: ·)
  | [.unit code] =>
    if isLeading code then
      match last with
      | .error fault => .error fault
      | .ok _ => .error .malformed
    else if isTrailing code then .error .malformed
    else last.map fun _ => [.ofNat code]
  | .unit code :: .char c :: rest =>
    if isLeading code || isTrailing code then .error .malformed
    else (joinPieces last (.char c :: rest)).map (.ofNat code :: ·)

/-- The characters of a text behind its opening quote. -/
def textContent (rest : List Char) : Except Fault String :=
  let (found, end_) := pieces rest
  (joinPieces (end_.map fun _ => ()) found).map String.ofList

/-- A control as its number in four hexadecimal digits. -/
def controlEscape (c : Char) : List Char :=
  '\\' :: 'u' :: '0' :: '0' :: Nat.digitChar (c.toNat / 16) :: [Nat.digitChar (c.toNat % 16)]

/-- A character as it is written in a text. -/
def writeChar (c : Char) : List Char :=
  if c = '"' then ['\\', '"']
  else if c = '\\' then ['\\', '\\']
  else if c = '\x08' then ['\\', 'b']
  else if c = '\x0c' then ['\\', 'f']
  else if c = '\n' then ['\\', 'n']
  else if c = '\r' then ['\\', 'r']
  else if c = '\t' then ['\\', 't']
  else if c.toNat < 0x20 then controlEscape c
  else [c]

/-- A text as it is written in a document. -/
def writeText (text : List Char) : List Char := '"' :: (text.flatMap writeChar ++ ['"'])

end FlightPlanner.Json
