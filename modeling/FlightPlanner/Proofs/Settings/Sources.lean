import FlightPlanner.Proofs.Config.Documents
import FlightPlanner.Proofs.Config.Environment
import FlightPlanner.Proofs.Config.FileSearch
import FlightPlanner.Proofs.Settings.Layers

/-!
# The sources of the settings

Where the settings of a program come from: the default file, the local file, the variables with the program's mark,
and for the log two variables of its own; and where those of a file do: from the file and the variables. For each
kind of source it is shown what it gives a setting. A file gives what the line of its document that names the
setting's keys says, and the variables what the last one whose name spells these keys does.
-/

namespace FlightPlanner

open Config

namespace Config

/-- What some assignments give to some keys, if one of them gives a value and the others none or the same. -/
theorem Assignment.lastGiven?_of_mem {assignments : List Assignment} {keys : List String} {assignment : Assignment}
    {value : Value} (hmem : assignment ∈ assignments) (hgives : assignment.gives? keys = some value)
    (hothers : ∀ other ∈ assignments, ∀ found, other.gives? keys = some found → found = value) :
    lastGiven? assignments keys = some value := by
  cases hlast : lastGiven? assignments keys with
  | none =>
    have hnone := List.findSome?_eq_none_iff.1 hlast assignment (List.mem_reverse.2 hmem)
    exact nomatch hnone.symm.trans hgives
  | some found =>
    obtain ⟨other, hother, hfound⟩ := List.exists_of_findSome?_eq_some hlast
    rw [hothers other (List.mem_reverse.1 hother) found hfound]

/-- What an assignment gives to some keys is its value, which it sets there. -/
theorem Assignment.eq_of_gives? {assignment : Assignment} {keys : List String} {value : Value}
    (h : assignment.gives? keys = some value) :
    assignment = ⟨Value.way keys, value⟩ ∧ value.isBlank = false := by
  obtain ⟨path, own⟩ := assignment
  simp only [gives?, Option.ite_none_right_eq_some, Option.some.injEq, Bool.and_eq_true, decide_eq_true_eq,
    Bool.not_eq_true'] at h
  obtain ⟨⟨rfl, hblank⟩, rfl⟩ := h
  exact ⟨rfl, hblank⟩

section Files

variable {files : Files} {text : String}

/-- A path below the working directory is worded as it is seen from there. -/
theorem Files.relative_append (directory rest : List (List Char)) :
    relative directory (directory ++ rest) = rest := by
  induction directory with
  | nil => cases rest <;> rfl
  | cons name directory ih => rw [List.cons_append, relative, if_pos rfl, ih]

/-- The values of a name in the directory of the settings are those in its document there, or none if there is none. -/
theorem readOptionalFile_settings {name : String} (hname : name = "default" ∨ name = "local")
    (habove : above ∉ files.directory)
    (hexact : files.get? (files.directory ++ ["config".toList, name.toList]) = none) :
    readOptionalFile files ("config/" ++ name) =
      match files.get? (files.directory ++ ["config".toList, (name ++ ".toml").toList]) with
      | some text => readDocument ("config/" ++ name ++ ".toml") text
      | none => .ok [] := by
  have hending : (name ++ ".toml").toList = Files.withEnding name.toList := by
    obtain rfl | rfl := hname <;> rfl
  have hwording : files.wording (files.directory ++ ["config".toList, Files.withEnding name.toList]) =
      "config/" ++ name ++ ".toml" := by
    rw [Files.wording, Files.relative_append]
    obtain rfl | rfl := hname <;> decide
  rw [readOptionalFile, Files.find?_settings hname habove hexact, hending]
  cases files.get? (files.directory ++ ["config".toList, Files.withEnding name.toList]) with
  | none => rfl
  | some text =>
    rw [← hwording]
    rfl

/-- If there is such a document, its values are read. -/
theorem readDocument_of_readOptionalFile {name : String} (hname : name = "default" ∨ name = "local")
    (habove : above ∉ files.directory)
    (hexact : files.get? (files.directory ++ ["config".toList, name.toList]) = none)
    (hget : files.get? (files.directory ++ ["config".toList, (name ++ ".toml").toList]) = some text)
    {entries : Entries} (h : readOptionalFile files ("config/" ++ name) = .ok entries) :
    readDocument ("config/" ++ name ++ ".toml") text = .ok entries := by
  rw [readOptionalFile_settings hname habove hexact, hget] at h
  exact h

/-- The values of a path that ends in the name of a document are those in the document there. -/
theorem readFile_document {path : String} {last : List Char} (hlast : (segments path.toList).getLast? = some last)
    (hending : Files.ending? last = some "toml".toList) (habove : above ∉ files.namesFromRoot path.toList)
    (h : files.get? (files.namesFromRoot path.toList) = some text) :
    readFile files path = readDocument (files.wording (files.namesFromRoot path.toList)) text := by
  rw [readFile, Files.find?_document hlast hending habove h]

end Files

section Documents

variable {path text : String} {entries : Entries} {keys : List String} {value : Toml.Value}

/-- A document gives some keys the single value that its text gives them. -/
theorem given?_of_textGives (h : readDocument path text = .ok entries) (hgives : TextGives text keys value) :
    given? entries keys = some (ofToml (.file path) value) := by
  obtain ⟨hmem, hothers⟩ := hgives.sets h
  refine Assignment.lastGiven?_of_mem hmem ?own fun other hother found hfound => ?others
  case own => simp [Assignment.gives?, isBlank_ofToml hgives.isSingle]
  case others =>
    obtain ⟨rfl, hblank⟩ := Assignment.eq_of_gives? hfound
    have htouches : Assignment.Touches ⟨Value.way keys, found⟩ keys :=
      ⟨fun hapart => hapart.ne_way rfl, fun hset => Bool.noConfusion (hset.1.symm.trans hblank)⟩
    exact (Assignment.mk.inj (hothers _ hother htouches)).2

/-- Each section is a table in a document whose text sets none of them. -/
theorem sectionsAreTables_of_textOmits (h : readDocument path text = .ok entries)
    (homits : ∀ keys ∈ sectionKeys, TextOmits text keys) : SectionsAreTables entries := by
  intro assignment hassignment keys hkeys
  refine ⟨(homits keys hkeys).isBlank h hassignment, fun place rest hindex => ?_⟩
  obtain ⟨names, hnames⟩ := (homits keys hkeys).exists_way h hassignment
  exact way_ne_append_index names keys place rest (hnames.symm.trans hindex)

/-- A document whose text omits some keys gives them nothing. -/
theorem given?_of_textOmits (h : readDocument path text = .ok entries) (homits : TextOmits text keys) :
    given? entries keys = none := by
  refine List.findSome?_eq_none_iff.2 fun assignment hassignment => ?_
  cases hgives : assignment.gives? keys with
  | none => rfl
  | some value =>
    obtain ⟨rfl, hblank⟩ := Assignment.eq_of_gives? hgives
    have hset := homits.isBlank h (List.mem_reverse.1 hassignment) rfl
    exact Bool.noConfusion (hset.symm.trans hblank)

end Documents

section Leaves

/-- A value without parts that a source gives first is assigned first. -/
theorem assignmentsOf_cons_leaf (path : String) (origin : Option Origin) (scalar : Scalar) (rest : Entries) :
    assignmentsOf ((path, .leaf origin scalar) :: rest) =
      ⟨pathOf path, .leaf origin scalar⟩ :: assignmentsOf rest := by
  simp [assignmentsOf, Value.assignmentsAt_leaf origin scalar (foldedPath_pathOf path)]

/-- A value without parts that a source gives first counts where the rest of the source gives none. -/
theorem given?_cons_leaf (path : String) (origin : Option Origin) (scalar : Scalar) (rest : Entries)
    (keys : List String) :
    given? ((path, .leaf origin scalar) :: rest) keys =
      (given? rest keys).or (if pathOf path = Value.way keys then some (.leaf origin scalar) else none) := by
  rw [given?, assignmentsOf_cons_leaf, Assignment.lastGiven?_cons, given?]
  by_cases hway : pathOf path = Value.way keys <;> simp [hway, Assignment.gives?, Value.isBlank]

/-- A source of values without parts assigns only what their keys lead to. -/
theorem exists_way_of_leaves {source : Entries} {IsKey : List String → Prop} (h : ∀ path value, (path, value) ∈ source →
    ∃ origin scalar keys, value = .leaf origin scalar ∧ pathOf path = Value.way keys ∧ IsKey keys)
    {assignment : Assignment} (hassignment : assignment ∈ assignmentsOf source) :
    ∃ keys, assignment.path = Value.way keys ∧ IsKey keys := by
  obtain ⟨⟨path, value⟩, hentry, hvalue⟩ := List.mem_flatMap.1 hassignment
  obtain ⟨origin, scalar, keys, rfl, hpath, hkeys⟩ := h path value hentry
  dsimp only at hvalue
  rw [Value.assignmentsAt_leaf _ _ (foldedPath_pathOf path), List.mem_singleton] at hvalue
  exact ⟨keys, hvalue ▸ hpath, hkeys⟩

/-- Each section is a table in a source that assigns only what other keys lead to. -/
theorem sectionsAreTables_of_ways {source : Entries}
    (h : ∀ assignment ∈ assignmentsOf source, ∃ keys, assignment.path = Value.way keys ∧ keys ∉ sectionKeys) :
    SectionsAreTables source := by
  intro assignment hassignment keys hkeys
  obtain ⟨names, hnames, hothers⟩ := h assignment hassignment
  refine ⟨fun hway => ?_, fun place rest hindex => way_ne_append_index names keys place rest (hnames.symm.trans hindex)⟩
  obtain rfl : names = keys := Value.way_injective (hnames.symm.trans hway)
  exact absurd hkeys hothers

end Leaves

namespace Variables

/-- Whether the name of a variable spells some keys, behind the mark of the program. -/
def Spells (name : String) (keys : List String) : Prop := (pathOfName? name).map pathOf = some (Value.way keys)

instance (name : String) (keys : List String) : Decidable (Spells name keys) :=
  inferInstanceAs (Decidable ((pathOfName? name).map pathOf = some (Value.way keys)))

/-- The value that the first of some variables gives counts where the others give none. -/
theorem given?_source_cons (name text : String) (rest : Variables) (keys : List String) :
    given? (source ((name, text) :: rest)) keys = (given? (source rest) keys).or
      (if Spells name keys then some (.leaf (some .environment) (scalarOfText text)) else none) := by
  cases hname : pathOfName? name with
  | none => simp [source, hname, Spells]
  | some path =>
    have hsource : source ((name, text) :: rest) =
        (path, .leaf (some .environment) (scalarOfText text)) :: source rest := by
      simp [source, hname]
    rw [hsource, given?_cons_leaf]
    simp [Spells, hname]

/-- Variables whose names do not spell some keys give them nothing. -/
theorem given?_source_eq_none {env : Variables} {keys : List String} (h : ∀ other ∈ env, ¬Spells other.1 keys) :
    given? (source env) keys = none := by
  induction env with
  | nil => rfl
  | cons first rest ih =>
    obtain ⟨name, text⟩ := first
    rw [given?_source_cons, ih fun other hother => h other (.tail _ hother), if_neg (h (name, text) (.head _))]
    rfl

/-- Variables assign only what the keys that their names spell lead to. -/
theorem exists_way_of_source {env : Variables} {IsKey : List String → Prop}
    (h : ∀ other ∈ env, pathOfName? other.1 = none ∨ ∃ keys, Spells other.1 keys ∧ IsKey keys)
    {assignment : Assignment} (hassignment : assignment ∈ assignmentsOf (source env)) :
    ∃ keys, assignment.path = Value.way keys ∧ IsKey keys := by
  refine exists_way_of_leaves (fun path value hentry => ?_) hassignment
  obtain ⟨⟨name, text⟩, hmem, hpair⟩ := List.mem_filterMap.1 hentry
  obtain ⟨found, hfound, hpair⟩ := Option.map_eq_some_iff.1 hpair
  obtain ⟨rfl, rfl⟩ := Prod.mk.inj hpair
  obtain hnone | ⟨keys, hspells, hkeys⟩ := h _ hmem
  · exact nomatch hnone.symm.trans hfound
  · rw [Spells, hfound] at hspells
    exact ⟨_, _, keys, rfl, Option.some.inj hspells, hkeys⟩

/-- Each section is a table in the values of variables whose names spell none of them. -/
theorem sectionsAreTables_source {env : Variables}
    (h : ∀ other ∈ env, pathOfName? other.1 = none ∨ ∃ keys, Spells other.1 keys ∧ keys ∉ sectionKeys) :
    SectionsAreTables (source env) :=
  sectionsAreTables_of_ways fun _ hassignment => exists_way_of_source h hassignment

/-- The last variable whose name spells some keys gives them what its text stands for. -/
theorem given?_source_eq_some {before after : Variables} {name text : String} {keys : List String}
    (hname : Spells name keys) (hlater : ∀ later ∈ after, ¬Spells later.1 keys) :
    given? (source (before ++ (name, text) :: after)) keys =
      some (.leaf (some .environment) (scalarOfText text)) := by
  induction before with
  | nil =>
    rw [List.nil_append, given?_source_cons, given?_source_eq_none hlater, if_pos hname]
    rfl
  | cons first before ih =>
    rw [List.cons_append, given?_source_cons, ih]
    rfl

end Variables

end Config

namespace Setting

/-- The name of the variable for a setting, as it is usually written. -/
def variableName : Setting α → String
  | .defaultLimit => "SKYPLAN__RANKING__DEFAULT_LIMIT"
  | .maxLimit => "SKYPLAN__RANKING__MAX_LIMIT"
  | .weight .cost => "SKYPLAN__SCORING__PRIORITIES__COST"
  | .weight .time => "SKYPLAN__SCORING__PRIORITIES__TIME"
  | .weight .safety => "SKYPLAN__SCORING__PRIORITIES__SAFETY"
  | .weight .comfort => "SKYPLAN__SCORING__PRIORITIES__COMFORT"
  | .weight .layoverSensitivity => "SKYPLAN__SCORING__PRIORITIES__LAYOVER_SENSITIVITY"
  | .level => "SKYPLAN__LOGGING__LEVEL"
  | .format => "SKYPLAN__LOGGING__FORMAT"

/-- The variable for a setting spells its keys, in letters of either case. -/
theorem spells_variableName (setting : Setting α) {name : String} (h : foldKey name = foldKey setting.variableName) :
    Variables.Spells name setting.keys := by
  have hname : Variables.pathOfName? name = Variables.pathOfName? setting.variableName := by
    rw [Variables.pathOfName?, Variables.pathOfName?, h]
  rw [Variables.Spells, hname]
  cases setting with
  | weight priority => cases priority <;> decide +kernel
  | _ => decide +kernel

/-- The value that the log's own variables give a setting. -/
def ownValue? (env : Variables) : Setting α → Option Value
  | .level => (env.get? "LOG_LEVEL").map fun text => .leaf none (.text text)
  | .format => (env.get? "LOG_FORMAT").map fun text => .leaf none (.text text)
  | _ => none

end Setting

namespace Settings

/-- The variables of the log give the settings of the log their texts, and nothing else a value. -/
theorem given?_logSource (env : Variables) (setting : Setting α) :
    given? (logSource env) setting.keys = setting.ownValue? env := by
  have hlevel : pathOf "logging.level" = Value.way ["logging", "level"] := by decide
  have hformat : pathOf "logging.format" = Value.way ["logging", "format"] := by decide
  have hnone : given? [] setting.keys = none := rfl
  cases hl : env.get? "LOG_LEVEL" <;> cases hf : env.get? "LOG_FORMAT" <;>
    simp only [logSource, hl, hf, List.filterMap_cons, List.filterMap_nil, Option.map_some, Option.map_none,
      given?_cons_leaf, hnone, hlevel, hformat, Value.way_injective.eq_iff, Option.none_or] <;>
    cases setting <;> simp [Setting.keys, Setting.fields, Setting.ownValue?, hl, hf]

/-- The variables of the log assign what the keys of its settings lead to. -/
theorem exists_way_of_logSource {env : Variables} {assignment : Assignment}
    (h : assignment ∈ assignmentsOf (logSource env)) :
    ∃ keys, assignment.path = Value.way keys ∧ ∃ key, keys = ["logging", key] := by
  refine exists_way_of_leaves (fun path value hentry => ?_) h
  obtain ⟨⟨name, field⟩, hfield, htext⟩ := List.mem_filterMap.1 hentry
  obtain ⟨text, -, hpair⟩ := Option.map_eq_some_iff.1 htext
  obtain ⟨rfl, rfl⟩ := Prod.mk.inj hpair
  simp only [List.mem_cons, Prod.mk.injEq, List.not_mem_nil, or_false] at hfield
  obtain ⟨-, rfl⟩ | ⟨-, rfl⟩ := hfield
  · exact ⟨none, .text text, ["logging", "level"], rfl, by decide, "level", rfl⟩
  · exact ⟨none, .text text, ["logging", "format"], rfl, by decide, "format", rfl⟩

/-- They set no section. -/
theorem sectionsAreTables_logSource (env : Variables) : SectionsAreTables (logSource env) := by
  refine sectionsAreTables_of_ways fun assignment hassignment => ?_
  obtain ⟨keys, hway, key, rfl⟩ := exists_way_of_logSource hassignment
  exact ⟨_, hway, by simp [sectionKeys]⟩

/-- They change nothing about the weights. -/
theorem not_touches_of_logSource {env : Variables} {assignment : Assignment}
    (h : assignment ∈ assignmentsOf (logSource env)) (priority : Priority) :
    ¬assignment.Touches (Setting.weight priority).keys := by
  obtain ⟨keys, hway, key, rfl⟩ := exists_way_of_logSource h
  have hdiffers : "logging" ≠ "scoring" := by decide
  exact fun htouches => htouches.1 (hway ▸ .head hdiffers)

/-- The settings that were loaded, and the layers that they come from, the lowest one first. Those of a program come
from the default file, the local file, the environment, to which the file of variables adds, and the variables of the
log; those of a file from the file and the environment. -/
inductive LoadedFrom : Settings → List Entries → Prop where
  /-- The settings of a program. -/
  | program {surroundings : Surroundings} {settings : Settings} {default localFile : Entries}
      (loaded : load surroundings = .ok settings)
      (readDefault : readOptionalFile surroundings.files "config/default" = .ok default)
      (readLocal : readOptionalFile surroundings.files "config/local" = .ok localFile) :
      LoadedFrom settings
        [default, localFile, (environmentOf surroundings).source, logSource (environmentOf surroundings)]
  /-- The settings of a file. -/
  | file {path : String} {surroundings : Surroundings} {settings : Settings} {file : Entries}
      (loaded : loadFrom path surroundings = .ok settings) (read : readFile surroundings.files path = .ok file) :
      LoadedFrom settings [file, surroundings.env.source]

/-- The settings of a program that are loaded have their files read. -/
theorem exists_files_of_load {surroundings : Surroundings} {settings : Settings}
    (h : load surroundings = .ok settings) :
    ∃ default localFile, readOptionalFile surroundings.files "config/default" = .ok default ∧
      readOptionalFile surroundings.files "config/local" = .ok localFile := by
  obtain ⟨given, hgiven, -⟩ := bind_eq_ok_iff.1 h
  obtain ⟨default, hdefault, hgiven⟩ := bind_eq_ok_iff.1 hgiven
  obtain ⟨localFile, hlocal, -⟩ := bind_eq_ok_iff.1 hgiven
  exact ⟨default, localFile, hdefault, hlocal⟩

/-- The settings of a file that are loaded have the file read. -/
theorem exists_file_of_loadFrom {path : String} {surroundings : Surroundings} {settings : Settings}
    (h : loadFrom path surroundings = .ok settings) : ∃ file, readFile surroundings.files path = .ok file := by
  obtain ⟨given, hgiven, -⟩ := bind_eq_ok_iff.1 h
  obtain ⟨file, hfile, -⟩ := bind_eq_ok_iff.1 hgiven
  exact ⟨file, hfile⟩

/-- Settings that were loaded are read from their layers, laid over each other at once. -/
theorem LoadedFrom.ofValue_eq_ok {settings : Settings} {layers : List Entries} (h : LoadedFrom settings layers) :
    ofValue (.ofSources layers) = .ok settings := by
  cases h with
  | @program surroundings settings default localFile loaded readDefault readLocal =>
    have hsources : sources surroundings = .ok [default, localFile, (environmentOf surroundings).source] := by
      rw [sources, readDefault, readLocal]
      rfl
    have hrebuilt := Value.ofSources_entries_cons [default, localFile, (environmentOf surroundings).source]
      [logSource (environmentOf surroundings)]
    rw [load, hsources] at loaded
    change ofValue (withLogVariables _ (.ofSources _)) = _ at loaded
    rw [withLogVariables, hrebuilt] at loaded
    exact loaded
  | file loaded read =>
    rw [loadFrom, sourcesFrom, read] at loaded
    exact loaded

/-- A variable has the text that the environment gives it, or else that of the first line of the file of variables
that supplies it; the file is the one in the working directory, or else the nearest one above it. -/
theorem get?_environmentOf (surroundings : Surroundings) (name text : String) :
    (environmentOf surroundings).get? name = some text ↔
      surroundings.env.get? name = some text ∨ surroundings.env.get? name = none ∧
        ∃ file, surroundings.files.IsNearest ".env".toList [] surroundings.files.directory file ∧
          Variables.Supplies surroundings.env (linesOf file.toList) name text := by
  have hnearest : ∀ file, surroundings.files.IsNearest ".env".toList [] surroundings.files.directory file ↔
      variableText? surroundings.files = some file := fun file => Files.nearest?_eq_some_iff.symm
  simp only [hnearest]
  unfold environmentOf
  cases variableText? surroundings.files with
  | none => simp
  | some file =>
    simp only [Option.some.injEq, exists_eq_left']
    exact Variables.get?_addLines ..

end Settings

end FlightPlanner
