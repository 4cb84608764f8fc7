import FlightPlanner.Decimal.Reading
import FlightPlanner.Logging.Level
import FlightPlanner.Pattern.Support
import FlightPlanner.Text.Bytes

/-!
# Directives of a filter

A directive says up to which level something is written: every event, or those of a part of the program, by
what the name of the part starts with. In brackets it may ask for more: to be inside of an activity, by name,
and to have a field, in braces, perhaps with a value. Examples are `debug`, `planner=info`,
`planner[search{message}]=trace`.

The form of a directive is that of its text without the blanks on either side, but its parts are cut out of
the text as it stands, at the places that they have without the blanks.
-/

namespace FlightPlanner.Logging

/-- A field that is asked for. -/
structure FieldTest where
  /-- The name of the field. -/
  name : String
  /-- What its value has to be like; nothing, where any value will do. -/
  value : Option String
deriving DecidableEq, Repr

/-- One directive of a filter. -/
structure Directive where
  /-- With which characters the name of an event's part has to start; nothing admits any name. -/
  target : Option String
  /-- The activity that an event has to happen in. -/
  activity : Option String
  /-- The field that an event has to have. -/
  field : Option FieldTest
  /-- Up to which level such events are written. -/
  ceiling : Ceiling
deriving DecidableEq, Repr

/-- Whether a directive may start with a character, an opening bracket aside. -/
def isDirectiveStart (c : Char) : Bool := c = '-' || c = ':' || c = '_' || Text.isWordChar c

/-- The ceiling behind an equals sign; all levels, where nothing is written there. -/
def ceilingOf? (text : List Char) : Option Ceiling :=
  if text.isEmpty then some (some .trace) else Ceiling.ofText? (String.ofList text)

/-- Whether a field may be asked for with a value: it is a number or a pattern. -/
def isFieldValue (text : List Char) : Bool :=
  (Decimal.readReal? (String.ofList text)).isSome || Pattern.isSpelledBy text

/-- The field that a text in braces asks for. What stands behind a second equals sign does not count. -/
def FieldTest.ofText? (text : List Char) : Option FieldTest :=
  match text.splitOn '=' with
  | [] => none
  | [name] => if name.isEmpty then none else some ⟨String.ofList name, none⟩
  | name :: value :: _ =>
    if isFieldValue value then some ⟨String.ofList name, some (String.ofList value)⟩ else none

namespace Directive

/-- A directive of a text that is a level or the beginning of a name. -/
def ofWord (word : List Char) : Directive :=
  match Ceiling.ofText? (String.ofList word) with
  | some ceiling => ⟨none, none, none, ceiling⟩
  | none => ⟨some (String.ofList word), none, none, some .trace⟩

/-- A directive whose form goes on at a place behind all that is in brackets. -/
def closed? (whole : List Char) (directive : Directive) (place : Nat) : List Char → Option Directive
  | [] => some directive
  | '=' :: _ => (ceilingOf? (Text.behind (place + 1) whole)).map fun ceiling => { directive with ceiling }
  | _ => none

/-- A directive whose form goes on at a place behind an opening brace. -/
def braced? (whole : List Char) (directive : Directive) (place : Nat) (form : List Char) : Option Directive :=
  let field := form.takeWhile (· ≠ '\x7d')
  let stop := place + Text.byteCount field
  match form.drop field.length with
  | '\x7d' :: ']' :: rest => do
    let field ← FieldTest.ofText? (Text.between place stop whole)
    closed? whole { directive with field := some field } (stop + 2) rest
  | _ => none

/-- A directive whose form goes on at a place behind an opening bracket. -/
def bracketed? (whole : List Char) (target : Option String) (place : Nat) (form : List Char) :
    Option Directive :=
  let name := form.takeWhile fun c => c ≠ ']' && c ≠ '\x7b'
  let stop := place + Text.byteCount name
  let activity := String.ofList (Text.between place stop whole)
  match form.drop name.length with
  | ']' :: rest => closed? whole ⟨target, some activity, none, some .trace⟩ (stop + 1) rest
  | '\x7b' :: rest =>
    let activity := if name.isEmpty then none else some activity
    braced? whole ⟨target, activity, none, some .trace⟩ (stop + 1) rest
  | _ => none

/-- The directive that a text spells, if it spells one. -/
def ofText? (whole : List Char) : Option Directive :=
  match Text.trim whole with
  | [] => none
  | '[' :: rest => bracketed? whole none 1 rest
  | c :: rest =>
    if isDirectiveStart c then
      let name := (c :: rest).takeWhile fun c => c ≠ '=' && c ≠ '['
      let stop := Text.byteCount name
      let target := some (String.ofList (Text.before stop whole))
      match (c :: rest).drop name.length with
      | '=' :: _ =>
        (ceilingOf? (Text.behind (stop + 1) whole)).map fun ceiling => ⟨target, none, none, ceiling⟩
      | '[' :: rest => bracketed? whole target (stop + 1) rest
      | _ => some (ofWord whole)
    else none

/-- Whether a directive decides on events by themselves. The others wait for an activity, of which there are
none, or for a value, and values are looked at in activities only. -/
def isAboutEvents (directive : Directive) : Bool :=
  directive.activity.isNone && directive.field.all fun field => field.value.isNone

/-- The name of the only field that events have. -/
def messageField : String := "message"

/-- Whether a directive is about events of the given name. -/
def covers (directive : Directive) (name : String) : Bool :=
  directive.isAboutEvents && (directive.field.all fun field => field.name = messageField) &&
    directive.target.all fun target => target.toList.isPrefixOf name.toList

/-- How specific a directive is: first by the length of its name, and least so if it has none, then by whether
it asks for a field. -/
def weight (directive : Directive) : Nat :=
  let length := match directive.target with
    | some target => target.utf8ByteSize + 1
    | none => 0
  2 * length + (if directive.field.isSome then 1 else 0)

end Directive

end FlightPlanner.Logging
