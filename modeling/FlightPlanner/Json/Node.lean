import FlightPlanner.Json.Text
import FlightPlanner.Json.Number

/-!
# Documents as they are read

A document is read for the sake of some type, and what is wrong with it matters only as far as the reading
gets. So `Node.ofText` takes a text as far as it is a document and leaves a node in the place where it ceases
to be one; numbers and texts keep what is wrong with them to themselves. `Node.skip` and `Node.examine` are
the two ways to go over a node without making anything of it: the first only finds its end, the second asks
that everything in it could be read.
-/

namespace FlightPlanner.Json

/-- How a list or an object goes on after its last part. -/
inductive Ending where
  /-- With its closing bracket. -/
  | closed
  /-- With a fault. -/
  | broken (fault : Fault)
deriving DecidableEq, Repr

/-- What stands in the place of a key. -/
inductive Key where
  /-- A text, which may not be readable. -/
  | name (content : Except Fault String)
  /-- Nothing of which a key could be made. -/
  | broken (fault : Break)

/-- A value of a document. -/
inductive Node where
  /-- Null. -/
  | null
  /-- A truth value. -/
  | boolean (value : Bool)
  /-- A number. -/
  | number (literal : Literal)
  /-- A text, which may not be readable. -/
  | text (content : Except Fault String)
  /-- A list. -/
  | list (items : List Node) (ending : Ending)
  /-- An object. -/
  | object (members : List (Key × Node)) (ending : Ending)
  /-- The place where the text ceases to be a document. -/
  | broken (fault : Break)

/-- The value as a mismatch shows it, or what keeps it from being read. -/
def Node.found : Node → Except Fault Found
  | .null => .ok .null
  | .boolean value => .ok (.boolean value)
  | .number literal => literal.value.map fun
    | .whole value => .integer value
    | .real value => .real value
  | .text content => content.map .text
  | .list _ _ => .ok .sequence
  | .object _ _ => .ok .map
  | .broken fault => .error fault.read

/-- Whether a character separates the parts of a document without a meaning of its own. -/
def isSpace (c : Char) : Bool := c = ' ' || c = '\n' || c = '\t' || c = '\r'

/-- A text without the spaces in front of it. -/
def dropSpaces (text : List Char) : List Char := text.dropWhile isSpace

/-- The node of a word whose letters are all in front of a text. -/
def spanWord (node : Node) : List Char → List Char → Node × Option (List Char)
  | [], rest => (node, some rest)
  | _ :: _, [] => (.broken ⟨.truncated, .truncated, .malformed⟩, none)
  | w :: word, c :: rest =>
    if w = c then spanWord node word rest else (.broken (.all .malformed), none)

/-- The node of a text behind its opening quote. -/
def spanText (rest : List Char) : Node × Option (List Char) :=
  match (pieces rest).2 with
  | .ok after => (.text (textContent rest), some after)
  | .error fault =>
    let read := match textContent rest with
      | .error read => read
      | .ok _ => fault
    (.broken ⟨read, fault, read⟩, none)

/-- The node of a number. -/
def spanNumber (text : List Char) : Node × Option (List Char) :=
  match Literal.span text with
  | .ok (literal, after) => (.number literal, some after)
  | .error fault => (.broken fault, none)

/-- The node of the value in front of a text, by what it starts with, and the rest of the text if the value
has an end. The lists and objects are left to `spanList` and `spanObject`. -/
def spanScalar (text : List Char) : Node × Option (List Char) :=
  match text with
  | [] => (.broken (.all .truncated), none)
  | 'n' :: rest => spanWord .null ['u', 'l', 'l'] rest
  | 't' :: rest => spanWord (.boolean true) ['r', 'u', 'e'] rest
  | 'f' :: rest => spanWord (.boolean false) ['a', 'l', 's', 'e'] rest
  | '"' :: rest => spanText rest
  | c :: rest => if c = '-' || c.isDigit then spanNumber (c :: rest) else (.broken (.all .malformed), none)

/-- What stands between a key and its value: a colon, after any spaces. -/
def spanColon (text : List Char) : Except Fault (List Char) :=
  match dropSpaces text with
  | ':' :: rest => .ok rest
  | _ :: _ => .error .malformed
  | [] => .error .truncated

/-- A part in front of the parts of a list or an object. -/
def consPart (part : α) (rest : List α × Ending × Option (List Char)) :
    List α × Ending × Option (List Char) :=
  (part :: rest.1, rest.2)

mutual

/-- The node of the value in front of a text, and the rest of the text if the value has an end. Twice as many
steps as the text has characters always suffice. -/
def spanValue : (steps : Nat) → List Char → Node × Option (List Char)
  | 0, _ => (.broken (.all .malformed), none)
  | steps + 1, text =>
    match dropSpaces text with
    | '[' :: rest =>
      match dropSpaces rest with
      | [] => (.list [] (.broken .truncated), none)
      | ']' :: rest => (.list [] .closed, some rest)
      | rest =>
        let (items, ending, rest) := spanItems steps rest
        (.list items ending, rest)
    | '{' :: rest =>
      match dropSpaces rest with
      | [] => (.object [] (.broken .truncated), none)
      | '}' :: rest => (.object [] .closed, some rest)
      | rest =>
        let (members, ending, rest) := spanMembers steps rest
        (.object members ending, rest)
    | text => spanScalar text

/-- The items of a list from some item on, how it ends, and the rest of the text if it is closed. -/
def spanItems : (steps : Nat) → List Char → List Node × Ending × Option (List Char)
  | 0, _ => ([], .broken .malformed, none)
  | steps + 1, text =>
    match spanValue steps text with
    | (item, none) => ([item], .closed, none)
    | (item, some rest) =>
      match dropSpaces rest with
      | ',' :: rest => consPart item (spanItems steps rest)
      | ']' :: rest => ([item], .closed, some rest)
      | _ :: _ => ([item], .broken .malformed, none)
      | [] => ([item], .broken .truncated, none)

/-- The members of an object from some member on, how it ends, and the rest of the text if it is closed. -/
def spanMembers : (steps : Nat) → List Char → List (Key × Node) × Ending × Option (List Char)
  | 0, _ => ([], .broken .malformed, none)
  | steps + 1, text =>
    match dropSpaces text with
    | [] => ([(.broken (.all .truncated), .null)], .closed, none)
    | '"' :: rest =>
      match spanText rest with
      | (.text key, some rest) =>
        match spanColon rest with
        | .error fault => ([(.name key, .broken (.all fault))], .closed, none)
        | .ok rest =>
          match spanValue steps rest with
          | (value, none) => ([(.name key, value)], .closed, none)
          | (value, some rest) =>
            match dropSpaces rest with
            | ',' :: rest => consPart (.name key, value) (spanMembers steps rest)
            | '}' :: rest => ([(.name key, value)], .closed, some rest)
            | _ :: _ => ([(.name key, value)], .broken .malformed, none)
            | [] => ([(.name key, value)], .broken .truncated, none)
      | (.broken fault, _) => ([(.broken fault, .null)], .closed, none)
      | _ => ([], .broken .malformed, none)
    | _ => ([(.broken (.all .malformed), .null)], .closed, none)

end

/-- The node of a text, and what follows it if it has an end. -/
def Node.ofText (text : List Char) : Node × Option (List Char) :=
  spanValue (2 * text.length + 2) text

mutual

/-- Whether a node has an end, for one who passes over it. -/
def Node.skip : Node → Except Fault Unit
  | .null => .ok ()
  | .boolean _ => .ok ()
  | .number _ => .ok ()
  | .text _ => .ok ()
  | .list items ending => do skipItems items; ending.check
  | .object members ending => do skipMembers members; ending.check
  | .broken fault => .error fault.skip

/-- Whether all items have an end, for one who passes over them. -/
def skipItems : List Node → Except Fault Unit
  | [] => .ok ()
  | item :: rest => do item.skip; skipItems rest

/-- Whether all members have an end, for one who passes over them. -/
def skipMembers : List (Key × Node) → Except Fault Unit
  | [] => .ok ()
  | (key, value) :: rest => do key.skip; value.skip; skipMembers rest

/-- Whether a list or an object is closed. -/
def Ending.check : Ending → Except Fault Unit
  | .closed => .ok ()
  | .broken fault => .error fault

/-- Whether a key is one, for one who passes over it. -/
def Key.skip : Key → Except Fault Unit
  | .name _ => .ok ()
  | .broken fault => .error fault.skip

end

/-- The name that a key is, for one who reads it. -/
def Key.read : Key → Except Fault String
  | .name content => content
  | .broken fault => .error fault.read

/-- How many lists and objects may stand within each other. -/
def greatestDepth : Nat := 127

/-- One level further down, if there is one. -/
def descend (depth : Nat) : Except Fault Nat :=
  if depth = 0 then .error .malformed else .ok (depth - 1)

mutual

/-- Whether everything in a node could be read, with so many levels left. -/
def Node.examine (depth : Nat) : Node → Except Fault Unit
  | .list items ending => do
    let depth ← descend depth
    examineItems depth items
    ending.check
  | .object members ending => do
    let depth ← descend depth
    examineMembers depth members
    ending.check
  | .null => .ok ()
  | .boolean _ => .ok ()
  | .number literal => literal.value.map fun _ => ()
  | .text content => content.map fun _ => ()
  | .broken fault => .error fault.read

/-- Whether everything in some items could be read. -/
def examineItems (depth : Nat) : List Node → Except Fault Unit
  | [] => .ok ()
  | item :: rest => do item.examine depth; examineItems depth rest

/-- Whether everything in some members could be read. -/
def examineMembers (depth : Nat) : List (Key × Node) → Except Fault Unit
  | [] => .ok ()
  | (key, value) :: rest => do
    let _ ← key.read
    value.examine depth
    examineMembers depth rest

end

end FlightPlanner.Json
