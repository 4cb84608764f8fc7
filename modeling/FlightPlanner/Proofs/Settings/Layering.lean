import FlightPlanner.Proofs.Settings.Sources

/-!
# What the settings follow

The settings of a program follow, key by key, the variables of the log, the other variables, the local file and the
default file, the first of these that says anything, and those of a file the variables and the file. What each source
says is stated on the source itself: on the lines of a document, and on the names and texts of variables.
-/

namespace FlightPlanner

open Config

namespace Settings

/-- What a variable of the log says is the level or the format, as it is. -/
theorem log_of_is {settings : Settings} {env : Variables} {level format : Option Value}
    (hlevel : Setting.level.Is settings ((Setting.level.ownValue? env).or level))
    (hformat : Setting.format.Is settings ((Setting.format.ownValue? env).or format)) :
    (∀ text, env.get? "LOG_LEVEL" = some text → settings.log.level = text) ∧
      ∀ text, env.get? "LOG_FORMAT" = some text → settings.log.format = text := by
  refine ⟨fun text htext => ?_, fun text htext => ?_⟩
  · rw [Setting.ownValue?, htext] at hlevel
    exact (Except.ok.inj hlevel).symm
  · rw [Setting.ownValue?, htext] at hformat
    exact (Except.ok.inj hformat).symm

/-- The settings of a program follow its sources. -/
theorem is_of_load {surroundings : Surroundings} {settings : Settings} (hload : load surroundings = .ok settings)
    {default localFile : Entries} (hdefault : readOptionalFile surroundings.files "config/default" = .ok default)
    (hlocal : readOptionalFile surroundings.files "config/local" = .ok localFile)
    (htables : ∀ source ∈ [default, localFile, (environmentOf surroundings).source], SectionsAreTables source)
    (setting : Setting α) :
    setting.Is settings ((setting.ownValue? (environmentOf surroundings)).or
      ((given? (environmentOf surroundings).source setting.keys).or
        ((given? localFile setting.keys).or (given? default setting.keys)))) := by
  have hlayers : ∀ layer ∈ [default, localFile, (environmentOf surroundings).source,
      logSource (environmentOf surroundings)], SectionsAreTables layer := by
    intro layer hlayer
    obtain hlayer | hlayer := List.mem_append.1 (by simpa using hlayer : layer ∈
      [default, localFile, (environmentOf surroundings).source] ++ [logSource (environmentOf surroundings)])
    · exact htables layer hlayer
    · rw [List.mem_singleton.1 hlayer]
      exact sectionsAreTables_logSource _
  have hfollows := follows_of_ofValue (LoadedFrom.program hload hdefault hlocal).ofValue_eq_ok hlayers α setting
  have hnone : topmost? [] setting.keys = none := rfl
  simpa only [topmost?_cons, given?_logSource, hnone, Option.none_or, Option.or_assoc] using hfollows

/-- The settings of a file follow it and the environment. -/
theorem is_of_loadFrom {path : String} {surroundings : Surroundings} {settings : Settings}
    (hload : loadFrom path surroundings = .ok settings) {file : Entries}
    (hfile : readFile surroundings.files path = .ok file)
    (htables : ∀ source ∈ [file, surroundings.env.source], SectionsAreTables source) (setting : Setting α) :
    setting.Is settings ((given? surroundings.env.source setting.keys).or (given? file setting.keys)) := by
  have hfollows := follows_of_ofValue (LoadedFrom.file hload hfile).ofValue_eq_ok htables α setting
  have hnone : topmost? [] setting.keys = none := rfl
  simpa only [topmost?_cons, hnone, Option.none_or] using hfollows

/-- The settings follow their sources, key by key. -/
theorem settings_layered :
    -- the settings of a program
    (∀ surroundings settings, load surroundings = .ok settings → ∃ default localFile,
      readOptionalFile surroundings.files "config/default" = .ok default ∧
      readOptionalFile surroundings.files "config/local" = .ok localFile ∧
      let env := environmentOf surroundings
      ((∀ source ∈ [default, localFile, env.source], SectionsAreTables source) →
        (∀ (α : Type) (setting : Setting α), setting.Is settings ((setting.ownValue? env).or
          ((given? env.source setting.keys).or ((given? localFile setting.keys).or (given? default setting.keys))))) ∧
        (∀ text, env.get? "LOG_LEVEL" = some text → settings.log.level = text) ∧
        ∀ text, env.get? "LOG_FORMAT" = some text → settings.log.format = text)) ∧
    -- the settings of a file
    (∀ path surroundings settings, loadFrom path surroundings = .ok settings → ∃ file,
      readFile surroundings.files path = .ok file ∧
      ((∀ source ∈ [file, surroundings.env.source], SectionsAreTables source) →
        ∀ (α : Type) (setting : Setting α), setting.Is settings
          ((given? surroundings.env.source setting.keys).or (given? file setting.keys)))) ∧
    -- sources that differ at some keys only make a difference to the setting at these keys only
    (∀ first second firstLayers secondLayers keys, LoadedFrom first firstLayers → LoadedFrom second secondLayers →
      (∀ layer ∈ firstLayers ++ secondLayers, SectionsAreTables layer) →
      List.Forall₂ (SameExcept keys) firstLayers secondLayers →
        ∀ (α : Type) (setting : Setting α), setting.keys ≠ keys → setting.of first = setting.of second) ∧
    -- what the file of variables adds to the environment
    (∀ surroundings (name text : String), (environmentOf surroundings).get? name = some text ↔
      surroundings.env.get? name = some text ∨ surroundings.env.get? name = none ∧
        ∃ file, surroundings.files.IsNearest ".env".toList [] surroundings.files.directory file ∧
          Variables.Supplies surroundings.env (linesOf file.toList) name text) ∧
    -- what the variables give a setting
    (∀ (env : Variables) (α : Type) (setting : Setting α),
      ((∀ other ∈ env, ¬Variables.Spells other.1 setting.keys) → given? env.source setting.keys = none) ∧
      ∀ before after name text, env = before ++ (name, text) :: after →
        foldKey name = foldKey setting.variableName → (∀ later ∈ after, ¬Variables.Spells later.1 setting.keys) →
          given? env.source setting.keys = some (.leaf (some .environment) (Variables.scalarOfText text))) ∧
    -- which files are read
    (∀ (files : Files) (name : String), name = "default" ∨ name = "local" → above ∉ files.directory →
      files.get? (files.directory ++ ["config".toList, name.toList]) = none →
        readOptionalFile files ("config/" ++ name) =
          match files.get? (files.directory ++ ["config".toList, (name ++ ".toml").toList]) with
          | some text => readDocument ("config/" ++ name ++ ".toml") text
          | none => .ok []) ∧
    (∀ (files : Files) (path text : String) (last : List Char), (segments path.toList).getLast? = some last →
      Files.ending? last = some "toml".toList → above ∉ files.namesFromRoot path.toList →
      files.get? (files.namesFromRoot path.toList) = some text →
        readFile files path = readDocument (files.wording (files.namesFromRoot path.toList)) text) ∧
    -- what a document gives
    (∀ path text entries, readDocument path text = .ok entries →
      ((∀ keys ∈ sectionKeys, TextOmits text keys) → SectionsAreTables entries) ∧
      ∀ keys, (TextOmits text keys → given? entries keys = none) ∧
        ∀ value, TextGives text keys value → given? entries keys = some (ofToml (.file path) value)) ∧
    -- what stands in its lines
    (∀ digits, Toml.IsNumeral digits → ∀ value, Toml.Denotes digits value ↔
      Decimal.ofDigits digits < 0x8000000000000000 ∧ value = .integer (Decimal.ofDigits digits)) ∧
    ∀ chars, (∀ c ∈ chars, Toml.isPlain c = true) →
      Toml.Denotes ('"' :: (chars ++ ['"'])) (.text (String.ofList chars)) := by
  refine ⟨?program, ?file, ?elsewhere, get?_environmentOf, ?environment, ?settingsFiles, ?document, ?texts,
    fun digits h value => Toml.denotes_numeral_iff h, fun chars h => Toml.denotes_text h⟩
  case program =>
    intro surroundings settings hload
    obtain ⟨default, localFile, hdefault, hlocal⟩ := exists_files_of_load hload
    refine ⟨default, localFile, hdefault, hlocal, fun htables => ?_⟩
    have his := fun (α : Type) (setting : Setting α) => is_of_load hload hdefault hlocal htables setting
    exact ⟨his, log_of_is (his String .level) (his String .format)⟩
  case file =>
    intro path surroundings settings hload
    obtain ⟨file, hfile⟩ := exists_file_of_loadFrom hload
    exact ⟨file, hfile, fun htables α setting => is_of_loadFrom hload hfile htables setting⟩
  case elsewhere =>
    intro first second firstLayers secondLayers keys hfirst hsecond htables hsame α setting hkeys
    have hfirstTables : ∀ layer ∈ firstLayers, SectionsAreTables layer :=
      fun layer h => htables layer (List.mem_append_left _ h)
    have hsecondTables : ∀ layer ∈ secondLayers, SectionsAreTables layer :=
      fun layer h => htables layer (List.mem_append_right _ h)
    exact Follows.eq_elsewhere (follows_of_ofValue hfirst.ofValue_eq_ok hfirstTables)
      (follows_of_ofValue hsecond.ofValue_eq_ok hsecondTables) hsame setting hkeys
  case environment =>
    refine fun env α setting => ⟨Variables.given?_source_eq_none, ?_⟩
    rintro before after name text rfl hname hlater
    exact Variables.given?_source_eq_some (setting.spells_variableName hname) hlater
  case settingsFiles => exact fun files name hname habove hexact => readOptionalFile_settings hname habove hexact
  case document =>
    exact fun files path text last hlast hending habove h => readFile_document hlast hending habove h
  case texts =>
    intro path text entries h
    exact ⟨sectionsAreTables_of_textOmits h, fun keys =>
      ⟨given?_of_textOmits h, fun value hgives => given?_of_textGives h hgives⟩⟩

namespace FourSources

/-- The header of the section of how many airports are listed. -/
def ranking : Toml.Line := .of (.header (.single ⟨"ranking", by decide⟩))

/-- A line for how many airports are listed when nothing is asked for. -/
def defaultLimit : Toml.Line :=
  .ofNumeral (.single ⟨"default_limit", by decide⟩) ['3'] (by decide) (by decide)

/-- A line for how many are listed at most. -/
def maxLimit (digits : List Char) (h : Toml.IsNumeral digits) (hfits : Decimal.ofDigits digits < 0x8000000000000000) :
    Toml.Line :=
  .ofNumeral (.single ⟨"max_limit", by decide⟩) digits h hfits

/-- The header of the section of the log. -/
def logging : Toml.Line := .of (.header (.single ⟨"logging", by decide⟩))

/-- A line for the level of the log. -/
def level : Toml.Line := .ofText (.single ⟨"level", by decide⟩) "warn".toList (List.all_eq_true.1 (by decide))

/-- A line for the format of the log. -/
def format : Toml.Line := .ofText (.single ⟨"format", by decide⟩) "json".toList (List.all_eq_true.1 (by decide))

/-- The lines of the default file. -/
def defaultLines : List Toml.Line := [ranking, defaultLimit, maxLimit ['2', '0'] (by decide) (by decide)]

/-- The lines of the local file. -/
def localLines : List Toml.Line := [ranking, maxLimit ['3', '0'] (by decide) (by decide), logging, level, format]

/-- Two files that set different keys of one section, and one key both; a file of variables above the working
directory; and a variable of the environment. -/
def surroundings : Surroundings :=
  ⟨⟨["work".toList], [("/.env", "LOG_LEVEL=debug"),
    ("config/default.toml", "[ranking]\ndefault_limit = 3\nmax_limit = 20"),
    ("config/local.toml", "[ranking]\nmax_limit = 30\n[logging]\nlevel = \"warn\"\nformat = \"json\"")]⟩,
    [("SKYPLAN__SCORING__PRIORITIES__COST", "20")]⟩

/-- What is said in the default file. -/
theorem marksOf_defaultLines : Toml.marksOf [] defaultLines =
    [⟨["ranking"], .table⟩, ⟨["ranking", "default_limit"], .value (.integer 3)⟩,
      ⟨["ranking", "max_limit"], .value (.integer 20)⟩] := rfl

/-- What is said in the local file. -/
theorem marksOf_localLines : Toml.marksOf [] localLines =
    [⟨["ranking"], .table⟩, ⟨["ranking", "max_limit"], .value (.integer 30)⟩, ⟨["logging"], .table⟩,
      ⟨["logging", "level"], .value (.text "warn")⟩, ⟨["logging", "format"], .value (.text "json")⟩] := rfl

/-- The default file gives the limit that stands where nothing is asked for. -/
theorem gives_defaultLimit : LinesGive defaultLines Setting.defaultLimit.keys (.integer 3) :=
  linesGive_of_marksOf ["ranking", "default_limit"] [_] [_] marksOf_defaultLines (by decide +kernel) (by decide +kernel)

/-- The local file gives the greatest limit. -/
theorem gives_maxLimit : LinesGive localLines Setting.maxLimit.keys (.integer 30) :=
  linesGive_of_marksOf ["ranking", "max_limit"] [_] [_, _, _] marksOf_localLines (by decide +kernel) (by decide +kernel)

/-- The local file gives the format of the log. -/
theorem gives_format : LinesGive localLines Setting.format.keys (.text "json") :=
  linesGive_of_marksOf ["logging", "format"] [_, _, _, _] [] marksOf_localLines (by decide +kernel) (by decide +kernel)

end FourSources

/-- The default and the local file, a variable and the file of variables give different settings; the local file comes
before the default one, and the log's own variable before the local file. -/
theorem settings_layered_four_sources : ∃ settings, load FourSources.surroundings = .ok settings ∧
    settings.ranking.defaultLimit = 3 ∧ settings.ranking.maxLimit = 30 ∧ settings.priorities.cost = 20 ∧
      settings.log.format = "json" ∧ settings.log.level = "debug" := by
  obtain ⟨settings, hload⟩ : ∃ settings, load FourSources.surroundings = .ok settings :=
    exists_eq_ok (by decide +kernel)
  obtain ⟨default, localFile, hdefault, hlocal, hlaw⟩ := settings_layered.1 _ settings hload
  have henv : environmentOf FourSources.surroundings =
      [("SKYPLAN__SCORING__PRIORITIES__COST", "20"), ("LOG_LEVEL", "debug")] := by decide +kernel
  have hdefaultText : readDocument "config/default.toml"
      (String.ofList (Toml.documentText FourSources.defaultLines)) = .ok default :=
    @readDocument_of_readOptionalFile _ _ "default" (.inl rfl) (by decide) (by decide +kernel) (by decide +kernel) _
      hdefault
  have hlocalText : readDocument "config/local.toml"
      (String.ofList (Toml.documentText FourSources.localLines)) = .ok localFile :=
    @readDocument_of_readOptionalFile _ _ "local" (.inr rfl) (by decide) (by decide +kernel) (by decide +kernel) _
      hlocal
  have htables : ∀ source ∈ [default, localFile, (environmentOf FourSources.surroundings).source],
      SectionsAreTables source := by
    rw [henv]
    simp only [List.forall_mem_cons, List.not_mem_nil, false_implies, implies_true, and_true]
    have homits : ∀ keys ∈ sectionKeys,
        LinesOmit FourSources.defaultLines keys ∧ LinesOmit FourSources.localLines keys := by decide +kernel
    refine ⟨sectionsAreTables_of_textOmits hdefaultText fun keys hkeys => .lines rfl (homits keys hkeys).1,
      sectionsAreTables_of_textOmits hlocalText fun keys hkeys => .lines rfl (homits keys hkeys).2,
      Variables.sectionsAreTables_source ?_⟩
    simp only [List.forall_mem_cons, List.not_mem_nil, false_implies, implies_true, and_true]
    exact ⟨.inr ⟨(Setting.weight .cost).keys, by decide +kernel, by decide⟩, .inl (by decide +kernel)⟩
  obtain ⟨his, hlevel, -⟩ := hlaw htables
  have homitsEnv : ∀ other ∈ environmentOf FourSources.surroundings,
      ¬Variables.Spells other.1 Setting.defaultLimit.keys ∧ ¬Variables.Spells other.1 Setting.maxLimit.keys ∧
        ¬Variables.Spells other.1 Setting.format.keys := by
    rw [henv]
    decide +kernel
  have hdefaultLimit : Setting.defaultLimit.Is settings
      (some (.leaf (some (.file "config/default.toml")) (.integer 3))) := by
    have h := his _ .defaultLimit
    rw [Variables.given?_source_eq_none fun other hother => (homitsEnv other hother).1,
      given?_of_textOmits hlocalText (.lines rfl (by decide +kernel)),
      given?_of_textGives hdefaultText (.lines rfl rfl FourSources.gives_defaultLimit)] at h
    exact h
  have hmaxLimit : Setting.maxLimit.Is settings (some (.leaf (some (.file "config/local.toml")) (.integer 30))) := by
    have h := his _ .maxLimit
    rw [Variables.given?_source_eq_none fun other hother => (homitsEnv other hother).2.1,
      given?_of_textGives hlocalText (.lines rfl rfl FourSources.gives_maxLimit)] at h
    exact h
  have hformat : Setting.format.Is settings (some (.leaf (some (.file "config/local.toml")) (.text "json"))) := by
    have hown : Setting.format.ownValue? (environmentOf FourSources.surroundings) = none := by
      rw [henv]
      rfl
    have h := his _ .format
    rw [hown, Variables.given?_source_eq_none fun other hother => (homitsEnv other hother).2.2,
      given?_of_textGives hlocalText (.lines rfl rfl FourSources.gives_format)] at h
    exact h
  have hcost : (Setting.weight .cost).Is settings (some (.leaf (some .environment) (Variables.scalarOfText "20"))) := by
    have hvariable : given? (environmentOf FourSources.surroundings).source (Setting.weight .cost).keys =
        some (.leaf (some .environment) (Variables.scalarOfText "20")) := by
      rw [henv]
      exact @Variables.given?_source_eq_some [] [("LOG_LEVEL", "debug")] _ "20" _
        ((Setting.weight .cost).spells_variableName rfl) (by decide +kernel)
    have h := his _ (.weight .cost)
    rw [hvariable] at h
    exact h
  have htwenty : Variables.scalarOfText "20" = .integer 20 := by
    obtain ⟨-, htwenty⟩ | ⟨hlarge, -⟩ := @Variables.scalarOfText_of_readInt? "20" 20 (by decide +kernel)
    · exact htwenty
    · omega
  rw [htwenty] at hcost
  refine ⟨settings, hload, ?_, ?_, ?_, ?_, hlevel "debug" (by rw [henv]; decide +kernel)⟩
  · exact (Except.ok.inj hdefaultLimit).symm
  · exact (Except.ok.inj hmaxLimit).symm
  · exact (Except.ok.inj hcost).symm
  · exact (Except.ok.inj hformat).symm

end Settings

end FlightPlanner
