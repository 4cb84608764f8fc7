import FlightPlanner.Config.Error
import FlightPlanner.Toml.Document

/-!
# Files of a configuration

How a path is resolved from the directory in which a program works, and how the document in a file becomes a
source of values. The kind of a file is known by the ending of its name, which may be left out of the path.
-/

namespace FlightPlanner.Config

/-- The files that there are, and the directory in which a program works. -/
structure Files where
  /-- The names on the way from the root of all files to the directory. -/
  directory : List (List Char)
  /-- The paths of the files and their texts. A path starts at the root, or else in the directory. -/
  texts : List (String × String)

/-- The names between the slashes of a path. -/
def segments (path : List Char) : List (List Char) := path.splitOn '/'

/-- The names of a path that count: neither empty nor a single point. -/
def names (path : List Char) : List (List Char) :=
  (segments path).filter fun name => !name.isEmpty && name ≠ ['.']

/-- Whether a path starts at the root of all files. -/
def isAbsolute : List Char → Bool
  | '/' :: _ => true
  | _ => false

/-- The name of the step back to the directory above. -/
def above : List Char := ['.', '.']

namespace Files

/-- Files in a directory below the root, where nothing is said on where the program works. -/
def ofTexts (texts : List (String × String)) : Files := ⟨["work".toList], texts⟩

instance : Coe (List (String × String)) Files := ⟨ofTexts⟩

/-- The names on the way of a path, from the root of all files. -/
def namesFromRoot (files : Files) (path : List Char) : List (List Char) :=
  if isAbsolute path then names path else files.directory ++ names path

/-- The text of the file with the given names on its path from the root. -/
def get? (files : Files) (path : List (List Char)) : Option String :=
  (files.texts.find? fun (name, _) => files.namesFromRoot name.toList = path).map Prod.snd

/-- Whether there is a directory at a path: one that the working directory is in, or that a file is in. -/
def hasDirectory (files : Files) (path : List (List Char)) : Bool :=
  path.isPrefixOf files.directory || files.texts.any fun (name, _) =>
    let full := files.namesFromRoot name.toList
    path.isPrefixOf full && path.length < full.length

/-- Where a path leads once each step back to the directory above is taken, from where it has come already;
nothing, if it leads through what is no directory. Above the root there is the root again. -/
def walk? (files : Files) (reached : List (List Char)) : List (List Char) → Option (List (List Char))
  | [] => some reached
  | name :: rest =>
    if !files.hasDirectory reached then none
    else if name = above then files.walk? reached.dropLast rest
    else files.walk? (reached ++ [name]) rest

/-- The text of the file that a path from the root leads to. -/
def at? (files : Files) (path : List (List Char)) : Option String :=
  (files.walk? [] path).bind files.get?

/-- The text of the file with a name in the last of some directories, each inside the one before it, that has
such a file; `outer` is the directory around them. -/
def nearest? (files : Files) (name : List Char) (outer : List (List Char)) : List (List Char) → Option String
  | [] => files.get? (outer ++ [name])
  | directory :: inner => (files.nearest? name (outer ++ [directory]) inner).or (files.get? (outer ++ [name]))

/-- The ending of a file's name behind its last point, unless the name starts with that point. -/
def ending? (name : List Char) : Option (List Char) :=
  let ending := (name.reverse.takeWhile (· ≠ '.')).reverse
  if ending.length + 1 < name.length then some ending else none

/-- The ending of a document's name. -/
def documentEnding : List Char := "toml".toList

/-- A name with the ending of a document behind it. -/
def withEnding (name : List Char) : List Char := name ++ '.' :: documentEnding

/-- The path from the root that the given one stands for, and the text of its file: the file at the path itself,
or else the one whose name is longer by the ending of a document. -/
def find? (files : Files) (path : String) : Option (List (List Char) × String) :=
  let text := path.toList
  let found := files.namesFromRoot text
  match found.getLast? with
  | none => none
  | some last =>
    if last = above then none
    else
      match if (segments text).getLast? = some last then files.at? found else none with
      | some text => if ending? last = some documentEnding then some (found, text) else none
      | none =>
        let longer := found.dropLast ++ [withEnding last]
        (files.at? longer).map (longer, ·)

/-- The names on the way to a path from a directory, both given from the root: back to where they part, and
on from there. -/
def relative : (directory : List (List Char)) → (path : List (List Char)) → List (List Char)
  | name :: directory, other :: path =>
    if name = other then relative directory path
    else (name :: directory).map (fun _ => above) ++ other :: path
  | directory, path => directory.map (fun _ => above) ++ path

end Files

/-- The text of a path with the given names. -/
def pathOfNames (names : List (List Char)) : String := String.ofList (['/'].intercalate names)

/-- A path from the root in the words of messages: as it is seen from the working directory. -/
def Files.wording (files : Files) (path : List (List Char)) : String :=
  pathOfNames (relative files.directory path)

mutual

/-- A value of a document as a configured one. -/
def ofToml (origin : Origin) : Toml.Value → Value
  | .text value => .leaf origin (.text value)
  | .integer value => .leaf origin (.integer value)
  | .real value => .leaf origin (.real value)
  | .boolean value => .leaf origin (.boolean value)
  | .moment value => .leaf origin (.text value)
  | .list items => .list origin (ofTomlItems origin items)
  | .table entries => .table origin (ofTomlEntries origin entries)

/-- The items of a document's list as configured values. -/
def ofTomlItems (origin : Origin) : List Toml.Value → List Value
  | [] => []
  | item :: rest => ofToml origin item :: ofTomlItems origin rest

/-- The entries of a document's table as configured values. -/
def ofTomlEntries (origin : Origin) : List (String × Toml.Value) → List (String × Value)
  | [] => []
  | (key, value) :: rest => (key, ofToml origin value) :: ofTomlEntries origin rest

end

/-- The values in the document of a file. -/
def readDocument (path : String) (text : String) : Except LoadError Entries :=
  match Toml.Document.ofText? text.toList with
  | some entries => .ok (ofTomlEntries (.file path) entries)
  | none => .error (.malformedFile path)

/-- The values in a file. -/
def readFile (files : Files) (path : String) : Except LoadError Entries :=
  match files.find? path with
  | some (names, text) => readDocument (files.wording names) text
  | none => .error .noFile

/-- The values in a file that need not be there. -/
def readOptionalFile (files : Files) (path : String) : Except LoadError Entries :=
  match files.find? path with
  | some (names, text) => readDocument (files.wording names) text
  | none => .ok []

end FlightPlanner.Config
