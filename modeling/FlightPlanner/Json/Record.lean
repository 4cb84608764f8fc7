import FlightPlanner.Json.Format

/-!
# Formats of records

A record is written as an object, one member for each of its fields in their order. It is read from an
object, whose members may come in any order and may include unknown ones, or from the list of its fields. The
fields of a type are described once, by `Members`; reading, writing and the rules on repeated and missing
fields are the same for all records. A record may also contain another one whose fields are written among its
own; the members of the inner record are then set aside until the object ends.
-/

namespace FlightPlanner.Json

/-- A field of a record. -/
structure Field (α : Type) where
  /-- Its name in documents. -/
  name : String
  /-- The format of its values. -/
  format : Format α
  /-- The value it has where it is missing, if it may be missing. -/
  fallback : Option α

/-- A field that may not be missing. -/
def Field.required (name : String) (format : Format α) : Field α := ⟨name, format, none⟩

/-- A field that has a value where it is missing. -/
def Field.defaulted (name : String) (format : Format α) (value : α) : Field α := ⟨name, format, some value⟩

/-- A field that may be absent or null. -/
def Field.optional (name : String) (format : Format α) : Field (Option α) :=
  ⟨name, format.optional, some none⟩

/-- The fields of a record, in their order; the type is that of their values. -/
inductive Members : Type → Type 1 where
  /-- No fields. -/
  | none : Members Unit
  /-- A field in front of others. -/
  | field {α β : Type} (first : Field α) (rest : Members β) : Members (α × β)

namespace Members

/-- The names of the fields. -/
def names : {α : Type} → Members α → List String
  | _, .none => []
  | _, .field first rest => first.name :: rest.names

/-- The number of fields. -/
def size (m : Members α) : Nat := m.names.length

/-- What has been read of the fields so far: for each of them a value or nothing. -/
@[reducible] def Slots : {α : Type} → Members α → Type
  | _, .none => Unit
  | _, @Members.field a _ _ rest => Option a × rest.Slots

/-- Nothing read so far. -/
def empty : {α : Type} → (m : Members α) → m.Slots
  | _, .none => ()
  | _, .field _ rest => (Option.none, rest.empty)

/-- The slots with the field of the given name read from a node; a field that has been read already may not
come again, and an unknown name has no field. -/
def put (mode : Mode) (name : String) (node : Node) :
    {α : Type} → (m : Members α) → m.Slots → Option (Except ReadError m.Slots)
  | _, .none, _ => Option.none
  | _, .field first rest, slots =>
    let (slot, slots) : Option _ × rest.Slots := slots
    if first.name = name then
      match slot with
      | some _ => some (.error (.mismatch (.duplicate name)))
      | Option.none => some ((first.format.read mode node).map fun a => (some a, slots))
    else (rest.put mode name node slots).map fun result => result.map fun slots => (slot, slots)

/-- The values of all fields; the first field that has neither been read nor may be missing is complained
about. -/
def finish : {α : Type} → (m : Members α) → m.Slots → Except ReadError α
  | _, .none, _ => .ok ()
  | _, .field first rest, slots => do
    let (slot, slots) : Option _ × rest.Slots := slots
    let value ← match slot, first.fallback with
      | some a, _ => .ok a
      | Option.none, some a => .ok a
      | Option.none, Option.none => .error (.mismatch (.missing first.name))
    .ok (value, ← rest.finish slots)

/-- The values of all fields from the items of a list, and the items that are left. `place` is the number of
items read before. Where the items end too early, the list has to be closed and the field must be one that
may be missing. -/
def readItems (mode : Mode) (title : String) (size : Nat) (ending : Ending) (place : Nat) :
    {α : Type} → (m : Members α) → List Node → Except ReadError (α × List Node)
  | _, .none, items => .ok ((), items)
  | _, .field first rest, item :: items => do
    let value ← first.format.read mode item
    let (values, left) ← rest.readItems mode title size ending (place + 1) items
    .ok ((value, values), left)
  | _, .field first rest, [] => do
    ofFault ending.check
    match first.fallback with
    | some value =>
      let (values, left) ← rest.readItems mode title size ending (place + 1) []
      .ok ((value, values), left)
    | Option.none => .error (.mismatch (.tooShort place title size))

/-- The members of an object that writes the fields. -/
def write : {α : Type} → Members α → α → List (String × Value)
  | _, .none, _ => []
  | _, .field first rest, (a, values) => (first.name, first.format.write a) :: rest.write values

end Members

/-- A type of records: its title, its fields, and how its values are made of those of the fields. -/
structure Record (α : Type) where
  /-- The name of the type in complaints. -/
  title : String
  /-- The type of the values of the fields. -/
  Parts : Type
  /-- The fields. -/
  members : Members Parts
  /-- The record of some values. -/
  make : Parts → α
  /-- The values of a record. -/
  parts : α → Parts

namespace Record

/-- The fields read from the members of an object, one after the other. Unknown members are passed over. -/
def readMembers (mode : Mode) (m : Members β) :
    m.Slots → List (Key × Node) → Except ReadError m.Slots
  | slots, [] => .ok slots
  | slots, (key, value) :: rest => do
    let name ← ofFault key.read
    match m.put mode name value slots with
    | some result => readMembers mode m (← result) rest
    | none =>
      match mode with
      | .direct _ => ofFault value.skip
      | .setAside => .ok ()
      readMembers mode m slots rest

/-- The end of a list of which all fields have been read. -/
def endOfItems (mode : Mode) (size : Nat) (left : List Node) (ending : Ending) : Except ReadError Unit :=
  match mode, left with
  | _, [] => ofFault ending.check
  | .direct _, _ :: _ => .error (.fault .malformed)
  | .setAside, _ :: _ => .error (.mismatch (.tooLong (size + left.length) size))

/-- A record read from an object or from the list of its fields. -/
def read (r : Record α) : Reader α := fun mode node =>
  match node with
  | .list items ending => do
    let mode ← mode.descend
    let (values, left) ← r.members.readItems mode r.title r.members.size ending 0 items
    endOfItems mode r.members.size left ending
    .ok (r.make values)
  | .object members ending => do
    let mode ← mode.descend
    let slots ← readMembers mode r.members r.members.empty members
    ofFault ending.check
    .ok (r.make (← r.members.finish slots))
  | node => refuse (.record r.title) node

/-- The format of a type of records. -/
def format (r : Record α) : Format α where
  read := r.read
  write a := .object (r.members.write (r.parts a))

end Record

/-- A type of records that writes the fields of an inner record among its own. -/
structure Extended (α : Type) where
  /-- The name of the type in complaints. -/
  title : String
  /-- The type of the inner record. -/
  Inner : Type
  /-- The inner record. -/
  inner : Record Inner
  /-- The type of the values of the own fields. -/
  Parts : Type
  /-- The own fields. -/
  members : Members Parts
  /-- The record of an inner one and some values. -/
  make : Inner → Parts → α
  /-- The inner record and the own values. -/
  parts : α → Inner × Parts

namespace Extended

/-- The own fields read from the members of an object, and all other members set aside after everything in
them has been examined. -/
def readMembers (depth : Nat) (m : Members β) :
    m.Slots → List (Key × Node) → Except ReadError (m.Slots × List (Key × Node))
  | slots, [] => .ok (slots, [])
  | slots, (key, value) :: rest => do
    let name ← ofFault key.read
    match m.put (.direct depth) name value slots with
    | some result => readMembers depth m (← result) rest
    | none =>
      ofFault (value.examine depth)
      let (slots, others) ← readMembers depth m slots rest
      .ok (slots, (key, value) :: others)

/-- A record read from an object. The own fields must be complete before the inner record is made of what
was set aside. -/
def read (e : Extended α) : Reader α := fun mode node =>
  match node with
  | .object members ending => do
    let mode ← mode.descend
    let depth := match mode with
      | .direct depth => depth
      | .setAside => greatestDepth
    let (slots, others) ← readMembers depth e.members e.members.empty members
    ofFault ending.check
    let values ← e.members.finish slots
    let inner ← Record.readMembers .setAside e.inner.members e.inner.members.empty others
    .ok (e.make (e.inner.make (← e.inner.members.finish inner)) values)
  | node => refuse (.record e.title) node

/-- The format of such records: the inner fields first. -/
def format (e : Extended α) : Format α where
  read := e.read
  write a := .object (e.inner.members.write (e.inner.parts (e.parts a).1) ++ e.members.write (e.parts a).2)

end Extended

end FlightPlanner.Json
