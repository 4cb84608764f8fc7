import FlightPlanner.Json.Node
import FlightPlanner.Json.Value

/-!
# Formats of simple values

A format says how the values of a type are read from a document and how they are written into one. This
module has the formats of numbers, truth values, texts, names, lists and values that may be absent. Reading
happens in one of two modes: directly from the text, where nesting is limited and every fault of the text
counts when it is met, or from a part of a document that was set aside after it had been examined.
-/

namespace FlightPlanner.Json

/-- How a node is being read. -/
inductive Mode where
  /-- As the text goes on, with so many levels left. -/
  | direct (depth : Nat)
  /-- From what was set aside. -/
  | setAside
deriving DecidableEq, Repr

/-- The mode inside of a list or an object. -/
def Mode.descend : Mode → Except ReadError Mode
  | .direct depth => match Json.descend depth with
    | .ok depth => .ok (.direct depth)
    | .error fault => .error (.fault fault)
  | .setAside => .ok .setAside

/-- How a value is read from a node. -/
abbrev Reader (α : Type) := Mode → Node → Except ReadError α

/-- How the values of a type are read and written. -/
structure Format (α : Type) where
  /-- How a value is read. -/
  read : Reader α
  /-- How a value is written. -/
  write : α → Value

/-- A fault of the text as a reason to stop. -/
def ofFault (result : Except Fault α) : Except ReadError α := result.mapError .fault

/-- A node of another kind than the wanted one. What keeps the node itself from being read comes first. -/
def refuse (wanted : Wanted) (node : Node) : Except ReadError α :=
  match node.found with
  | .ok found => .error (.mismatch (.kind found wanted))
  | .error fault => .error (.fault fault)

/-- The double nearest to a whole number. -/
def realOfInt (n : Int) : Float := Binary64.nearest (n < 0) n.natAbs 0

/-- Doubles. Whole numbers are taken too. -/
def Format.real : Format Float where
  read _ node := match node with
    | .number literal => match literal.value with
      | .ok (.whole n) => .ok (realOfInt n)
      | .ok (.real x) => .ok x
      | .error fault => .error (.fault fault)
    | node => refuse .real node
  write := .real

/-- A whole number from a least to a greatest one. -/
def readWhole (wanted : Wanted) (least greatest : Int) (node : Node) : Except ReadError Int :=
  match node with
  | .number literal => match literal.value with
    | .ok (.whole n) =>
      if least ≤ n && n ≤ greatest then .ok n else .error (.mismatch (.range n wanted))
    | .ok (.real x) => .error (.mismatch (.kind (.real x) wanted))
    | .error fault => .error (.fault fault)
  | node => refuse wanted node

/-- Whole numbers of one byte. -/
def Format.byte : Format UInt8 where
  read _ node := (readWhole .byte 0 255 node).map fun n => .ofNat n.toNat
  write n := .integer n.toNat

/-- Whole numbers of four bytes. -/
def Format.count : Format UInt32 where
  read _ node := (readWhole .count 0 0xFFFFFFFF node).map fun n => .ofNat n.toNat
  write n := .integer n.toNat

/-- Whole numbers of eight bytes with a sign. -/
def Format.signed : Format Int64 where
  read _ node := (readWhole .signed (-0x8000000000000000) 0x7FFFFFFFFFFFFFFF node).map .ofInt
  write n := .integer n.toInt

/-- Whole numbers of eight bytes without a sign. -/
def Format.size : Format UInt64 where
  read _ node := (readWhole .size 0 0xFFFFFFFFFFFFFFFF node).map fun n => .ofNat n.toNat
  write n := .integer n.toNat

/-- Truth values. -/
def Format.boolean : Format Bool where
  read _ node := match node with
    | .boolean value => .ok value
    | node => refuse .boolean node
  write := .boolean

/-- A text, for something that wants one. -/
def readText (wanted : Wanted) (node : Node) : Except ReadError String :=
  match node with
  | .text content => ofFault content
  | node => refuse wanted node

/-- Texts. -/
def Format.text : Format String where
  read _ node := readText .text node
  write := .text

/-- Values that may be absent; null stands for none. -/
def Format.optional (format : Format α) : Format (Option α) where
  read mode node := match node with
    | .null => .ok none
    | node => (format.read mode node).map some
  write
    | some a => format.write a
    | none => .null

/-- The items of a list. -/
def readItems (format : Format α) (mode : Mode) : List Node → Except ReadError (List α)
  | [] => .ok []
  | item :: rest => do .ok ((← format.read mode item) :: (← readItems format mode rest))

/-- Lists. -/
def Format.list (format : Format α) : Format (List α) where
  read mode node := match node with
    | .list items ending => do
      let mode ← mode.descend
      let values ← readItems format mode items
      ofFault ending.check
      .ok values
    | node => refuse .sequence node
  write values := .list (values.map format.write)

/-- The alternative of a name. -/
def chooseName (alternatives : List (String × α)) (name : String) : Except ReadError α :=
  match alternatives.find? (·.1 = name) with
  | some (_, a) => .ok a
  | none => .error (.mismatch (.unknown name (alternatives.map (·.1))))

/-- Null, in a place where nothing else may stand. -/
def readUnit (node : Node) : Except ReadError Unit :=
  match node with
  | .null => .ok ()
  | node => refuse .unit node

/-- Null or an empty object, in a place of a part set aside where nothing else may stand. -/
def readUnitSetAside (node : Node) : Except ReadError Unit :=
  match node with
  | .object [] _ => .ok ()
  | node => readUnit node

/-- An alternative as the text goes on: its name, or an object whose only key it is, with null for a value. -/
def readNameDirect (alternatives : List (String × α)) (depth : Nat) (node : Node) : Except ReadError α :=
  match node with
  | .text content => do chooseName alternatives (← ofFault content)
  | .object members ending => do
    let _ ← ofFault (descend depth)
    match members with
    | [] => ofFault (ending.check >>= fun _ => .error .malformed)
    | (key, value) :: rest =>
      let a ← chooseName alternatives (← ofFault key.read)
      readUnit value
      if rest.isEmpty then ofFault ending.check else .error (.fault .malformed)
      .ok a
  | .broken fault => .error (.fault fault.name)
  | _ => .error (.fault .malformed)

/-- An alternative in a part that was set aside. -/
def readNameSetAside (alternatives : List (String × α)) (node : Node) : Except ReadError α :=
  match node with
  | .text content => do chooseName alternatives (← ofFault content)
  | .object [(key, value)] _ => do
    let a ← chooseName alternatives (← ofFault key.read)
    readUnitSetAside value
    .ok a
  | .object _ _ => .error (.mismatch .notOneKey)
  | node => refuse .nameOrMap node

/-- Alternatives that have names. -/
def Format.named (alternatives : List (String × α)) (name : α → String) : Format α where
  read mode node := match mode with
    | .direct depth => readNameDirect alternatives depth node
    | .setAside => readNameSetAside alternatives node
  write a := .text (name a)

/-- The value of a text. -/
def Format.decode (format : Format α) (text : String) : Except ReadError α := do
  let (node, rest) := Node.ofText text.toList
  let value ← format.read (.direct greatestDepth) node
  match rest with
  | some rest => if (dropSpaces rest).isEmpty then .ok value else .error (.fault .malformed)
  | none => .error (.fault .malformed)

/-- The text of a value. -/
def Format.encode (format : Format α) (a : α) : String := String.ofList (format.write a).write

end FlightPlanner.Json
