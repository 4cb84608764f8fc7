import FlightPlanner.Planning.Planner
import FlightPlanner.Proofs.Binary64.Bounds
import FlightPlanner.Proofs.Config.Numerals
import FlightPlanner.Proofs.Settings.Layering

/-!
# Configured weights above a hundred

A planner's weight is the configured one, brought down to a hundred where it is above. A weight is configured by
the last assignment that touches it: one at its own keys, or a list in the place of one of its sections, which
holds the fields in their order. The text of a file configures it if it gives the weight's keys a number and no
source above the file touches them, and so does the last variable whose name spells these keys. No whole number is
turned into another on the way from such a text: one that does not fit into eight bits is refused, and nothing is
loaded.
-/

namespace FlightPlanner

open Config

namespace Config

/-- Whether the last of some assignments that touches some keys gives them a value. -/
def Decides (assignments : List Assignment) (keys : List String) (value : Value) : Prop :=
  ∃ before after, assignments = before ++ ⟨Value.way keys, value⟩ :: after ∧
    ∀ later ∈ after, ¬later.Touches keys

/-- Whether some assignments configure a field with a value without parts: it stands at the field's keys, or in
a list in the place of a section around it. -/
def Configures (assignments : List Assignment) (fields : List Field) (scalar : Scalar) : Prop :=
  ∃ front back value place origin, fields = front ++ back ∧ Decides assignments (front.map Field.name) value ∧
    Placed.follow? ⟨Value.way (front.map Field.name), value⟩ back = some place ∧ place.value = .leaf origin scalar

/-- What decides about some keys stands under them, if it is no table. -/
theorem find?_of_decides {assignments : List Assignment} {keys : List String} {value : Value}
    (hproper : ∀ assignment ∈ assignments, assignment.Proper) (hkeys : ∀ key ∈ keys, IsFolded key)
    (h : Decides assignments keys value) (hvalue : ∀ origin entries, value ≠ .table origin entries)
    (old : Option Value) : Value.find? (Assignment.applyAll old assignments) keys = some value := by
  obtain ⟨before, after, rfl, hafter⟩ := h
  have hset : ∀ below, Value.find? (some (Value.setAt value (Value.way keys) below)) keys = some value := by
    intro below
    have h := Value.find?_setAt_way value hkeys [] below
    rw [List.append_nil, Value.setAt] at h
    cases value with
    | table origin entries => exact absurd rfl (hvalue origin entries)
    | list origin items => exact h
    | leaf origin scalar => exact h
  have hlater : ∀ later ∈ after, later.Proper := fun later h => hproper later (List.mem_append_right _ (.tail _ h))
  rw [Assignment.applyAll_append]
  change Value.find? (Assignment.applyAll (Assignment.apply _ _) after) keys = _
  exact Assignment.find?_applyAll_of_not_touches hlater hkeys hafter (hset _)

/-- Fields behind others lead on from where these lead. -/
theorem Placed.follow?_append (part : Placed) (front back : List Field) :
    part.follow? (front ++ back) = (part.follow? front).bind (·.follow? back) := by
  induction front generalizing part with
  | nil => rfl
  | cons field front ih =>
    rw [List.cons_append, follow?, follow?]
    cases part.field? field with
    | none => rfl
    | some inner => exact ih inner

/-- What layers configure a field with is what the field holds once they are laid over each other. -/
theorem follow?_of_configures {layers : List Entries} {fields : List Field} {scalar : Scalar}
    (hfields : ∀ field ∈ fields, IsFolded field.name)
    (h : Configures (layers.flatMap assignmentsOf) fields scalar) :
    ∃ place origin, Placed.follow? ⟨[], .ofSources layers⟩ fields = some place ∧ place.value = .leaf origin scalar := by
  obtain ⟨front, back, value, place, origin, rfl, hdecides, hfollow, hplace⟩ := h
  have hproper : ∀ assignment ∈ layers.flatMap assignmentsOf, assignment.Proper :=
    fun assignment h => proper_of_mem_layers h
  have hkeys : ∀ key ∈ front.map Field.name, IsFolded key := by
    intro key hkey
    obtain ⟨field, hfield, rfl⟩ := List.mem_map.1 hkey
    exact hfields field (List.mem_append_left _ hfield)
  have hvalue : ∀ origin entries, value ≠ .table origin entries := by
    rintro other entries rfl
    obtain ⟨before, after, hassignments, -⟩ := hdecides
    have hempty : entries = [] := by
      have hmem := hassignments ▸ List.mem_append_right before (List.mem_cons_self ..)
      exact (hproper _ hmem).whole _ rfl other entries rfl
    subst hempty
    cases back with
    | nil =>
      obtain rfl := Option.some.inj hfollow
      contradiction
    | cons field back =>
      rw [Placed.follow?, Placed.field?_of_table rfl] at hfollow
      contradiction
  have hfound := find?_of_decides hproper hkeys hdecides hvalue (some .empty)
  rw [applyAll_flatMap_assignmentsOf] at hfound
  refine ⟨place, origin, ?_, hplace⟩
  rw [Placed.follow?_append, Placed.follow?_of_find?_some ⟨[], .ofSources layers⟩ hfound]
  exact hfollow

/-- Whether a value without parts is a natural number: as such, or as what a variable that spells it stands for. -/
inductive Scalar.Spells : Scalar → ℕ → Prop where
  /-- The number itself. -/
  | number (n : ℕ) : Spells (.integer n) n
  /-- The value of a variable that has an optional sign and digits for its text. -/
  | spelled {text : String} {n : ℕ} (read : Decimal.readInt? text.toList = some (n : ℤ)) :
      Spells (Variables.scalarOfText text) n

/-- The double nearest to a number that does not fit into sixty-four bits with a sign is too great for a weight. -/
theorem le_nearestNat_ofDecimal {n : ℕ} (h : 0x8000000000000000 ≤ n) :
    256 ≤ Binary64.nearestNat mostUnsigned (Decimal.ofDecimal n 0) := by
  have hstands : Binary64.StandsAt (Decimal.ofDecimal n 0) (Binary64.nearestPlace n) := Binary64.standsAt_ofScientific n
  have hlow := Binary64.standsAt_ofNat 256
  have hge : Binary64.ofNat 256 ≤ Decimal.ofDecimal n 0 := by
    rw [← Binary64.not_lt_iff_le hlow.1 hstands.1]
    refine Binary64.not_lt_of_standsAt hlow hstands ?_
    exact_mod_cast (by omega : 256 ≤ n)
  have hrounded := Binary64.nearestNat_mono mostUnsigned hge
  have hexact : Binary64.nearestNat mostUnsigned (Binary64.ofNat 256) = 256 := by decide
  rwa [hexact] at hrounded

/-- A natural number is read as itself, or as one that is too great for a weight, as it is itself. -/
theorem Placed.toCount_of_spells {part : Placed} {origin : Option Origin} {scalar : Scalar} {n count : ℕ}
    (hpart : part.value = .leaf origin scalar) (hspells : scalar.Spells n) (h : part.toCount = .ok count) :
    count = n ∨ 256 ≤ count := by
  have hinteger : scalar = .integer n → count = n := by
    rintro rfl
    rw [Placed.toCount, hpart] at h
    exact (Except.ok.inj h).symm
  cases hspells with
  | number => exact .inl (hinteger rfl)
  | spelled read =>
    obtain ⟨-, hscalar⟩ | ⟨hlarge, hscalar⟩ := Variables.scalarOfText_of_readInt? read
    · exact .inl (hinteger hscalar)
    · rw [Placed.toCount, hpart, hscalar] at h
      obtain rfl := Except.ok.inj h
      exact .inr (le_nearestNat_ofDecimal hlarge)

/-- A natural number that is read as a weight fits into eight bits and is this weight. -/
theorem Placed.toWeight_of_spells {part : Placed} {origin : Option Origin} {scalar : Scalar} {n : ℕ} {weight : UInt8}
    (hpart : part.value = .leaf origin scalar) (hspells : scalar.Spells n) (h : part.toWeight = .ok weight) :
    weight.toNat = n := by
  obtain ⟨count, hcount, hweight⟩ := bind_eq_ok_iff.1 h
  split at hweight
  · next hfits =>
    obtain rfl := Except.ok.inj hweight
    obtain rfl | hlarge := Placed.toCount_of_spells hpart hspells hcount
    · exact UInt8.toNat_ofNat_of_lt' hfits
    · omega
  · contradiction

/-- Assignments decide about some keys if one of them gives these a value, and nothing else does anything to them. -/
theorem decides_of_mem {assignments : List Assignment} {keys : List String} {value : Value}
    (hmem : ⟨Value.way keys, value⟩ ∈ assignments)
    (hothers : ∀ assignment ∈ assignments, assignment.Touches keys → assignment = ⟨Value.way keys, value⟩) :
    Decides assignments keys value := by
  -- the last of them counts, if there are several
  obtain ⟨front, back, hsplit, hfront⟩ := List.eq_append_cons_of_mem (List.mem_reverse.2 hmem)
  have hassignments : assignments = back.reverse ++ ⟨Value.way keys, value⟩ :: front.reverse := by
    rw [← List.reverse_reverse assignments, hsplit]
    simp
  refine ⟨back.reverse, front.reverse, hassignments, fun later hlater htouches => ?_⟩
  have hsame := hothers later (hassignments ▸ List.mem_append_right _ (.tail _ hlater)) htouches
  exact hfront (hsame ▸ List.mem_reverse.1 hlater)

/-- What decides about some keys does so behind other assignments, and in front of some that do not touch them. -/
theorem Decides.between {assignments : List Assignment} {keys : List String} {value : Value}
    (h : Decides assignments keys value) (below : List Assignment) {above : List Assignment}
    (habove : ∀ assignment ∈ above, ¬assignment.Touches keys) :
    Decides (below ++ (assignments ++ above)) keys value := by
  obtain ⟨before, after, rfl, hafter⟩ := h
  refine ⟨below ++ before, after ++ above, by simp, fun later hlater => ?_⟩
  obtain hlater | hlater := List.mem_append.1 hlater
  · exact hafter later hlater
  · exact habove later hlater

/-- A source among others configures a field with the value that it decides on for the field's keys, if no source above
it touches them. -/
theorem configures_of_decides (fields : List Field) (below above : List Entries) {source : Entries}
    {origin : Option Origin} {scalar : Scalar}
    (h : Decides (assignmentsOf source) (fields.map Field.name) (.leaf origin scalar))
    (habove : ∀ assignment ∈ above.flatMap assignmentsOf, ¬assignment.Touches (fields.map Field.name)) :
    Configures ((below ++ source :: above).flatMap assignmentsOf) fields scalar := by
  refine ⟨fields, [], _, _, origin, (List.append_nil _).symm, ?_, rfl, rfl⟩
  rw [List.flatMap_append, List.flatMap_cons]
  exact h.between (below.flatMap assignmentsOf) habove

/-- The last variable of an environment that touches some keys decides about them. -/
theorem decides_of_variable (before : Variables) {after : Variables} {name : String} (text : String)
    {keys : List String} (hname : Variables.Spells name keys)
    (hlater : ∀ assignment ∈ assignmentsOf (Variables.source after), ¬assignment.Touches keys) :
    Decides (assignmentsOf (Variables.source (before ++ (name, text) :: after))) keys
      (.leaf (some .environment) (Variables.scalarOfText text)) := by
  obtain ⟨path, hpath, hway⟩ := Option.map_eq_some_iff.1 hname
  have hsource : Variables.source (before ++ (name, text) :: after) =
      Variables.source before ++ (path, .leaf (some .environment) (Variables.scalarOfText text)) ::
        Variables.source after := by
    simp [Variables.source, hpath]
  refine ⟨assignmentsOf (Variables.source before), assignmentsOf (Variables.source after), ?_, hlater⟩
  rw [hsource, assignmentsOf, List.flatMap_append, ← assignmentsOf, ← assignmentsOf, assignmentsOf_cons_leaf, hway]

end Config

/-- A capped weight is the weight or a hundred, whichever is less. -/
theorem Weights.toNat_of_capped (weights : Weights) (priority : Priority) :
    (weights.capped.of priority).toNat = min (weights.of priority).toNat 100 := by
  have hmin : ∀ weight : UInt8, (if weight ≤ 100 then weight else 100).toNat = min weight.toNat 100 := by
    intro weight
    have hle : weight ≤ 100 ↔ weight.toNat ≤ 100 := UInt8.le_iff_toNat_le
    split
    · next h => exact (min_eq_left (hle.1 h)).symm
    · next h => exact (min_eq_right (not_le.1 (mt hle.2 h)).le).symm
  cases priority <;> exact hmin _

namespace Settings

/-- The settings that were loaded with the text of a document for one of their files, and the sources above this file
that can give weights. -/
inductive LoadedOver : Settings → String → List Entries → Prop where
  /-- The document is the default file of a program. -/
  | default {surroundings : Surroundings} {settings : Settings} {names : List (List Char)} {text : String}
      {localFile : Entries} (loaded : load surroundings = .ok settings)
      (found : surroundings.files.find? "config/default" = some (names, text))
      (readLocal : readOptionalFile surroundings.files "config/local" = .ok localFile) :
      LoadedOver settings text [localFile, (environmentOf surroundings).source]
  /-- It is the local file of a program. -/
  | localFile {surroundings : Surroundings} {settings : Settings} {names : List (List Char)} {text : String}
      (loaded : load surroundings = .ok settings)
      (found : surroundings.files.find? "config/local" = some (names, text)) :
      LoadedOver settings text [(environmentOf surroundings).source]
  /-- The settings are those of a file. -/
  | file {path : String} {surroundings : Surroundings} {settings : Settings} {names : List (List Char)} {text : String}
      (loaded : loadFrom path surroundings = .ok settings)
      (found : surroundings.files.find? path = some (names, text)) :
      LoadedOver settings text [surroundings.env.source]

/-- The settings that were loaded, and the variables that they come from. -/
inductive LoadedWith : Settings → Variables → Prop where
  /-- The settings of a program: the file of variables adds to the environment. -/
  | program {surroundings : Surroundings} {settings : Settings} (loaded : load surroundings = .ok settings) :
      LoadedWith settings (environmentOf surroundings)
  /-- The settings of a file. -/
  | file {path : String} {surroundings : Surroundings} {settings : Settings}
      (loaded : loadFrom path surroundings = .ok settings) : LoadedWith settings surroundings.env

/-- The document is one of the layers of the settings, and the sources above it are among the others. -/
theorem LoadedOver.exists_layers {settings : Settings} {text : String} {above : List Entries}
    (h : LoadedOver settings text above) : ∃ below path entries behind,
      LoadedFrom settings (below ++ entries :: (above ++ behind)) ∧ readDocument path text = .ok entries ∧
        ∀ layer ∈ behind, ∃ env, layer = logSource env := by
  cases h with
  | @default surroundings _ names _ localFile loaded found readLocal =>
    obtain ⟨default, -, hdefault, -⟩ := exists_files_of_load loaded
    have hread : readDocument (surroundings.files.wording names) text = .ok default := by
      rw [readOptionalFile, found] at hdefault
      exact hdefault
    exact ⟨[], _, default, [_], .program loaded hdefault readLocal, hread, by simp⟩
  | @localFile surroundings _ names _ loaded found =>
    obtain ⟨default, localFile, hdefault, hlocal⟩ := exists_files_of_load loaded
    have hread : readDocument (surroundings.files.wording names) text = .ok localFile := by
      rw [readOptionalFile, found] at hlocal
      exact hlocal
    exact ⟨[default], _, localFile, [_], .program loaded hdefault hlocal, hread, by simp⟩
  | @file path surroundings _ names _ loaded found =>
    obtain ⟨file, hfile⟩ := exists_file_of_loadFrom loaded
    have hread : readDocument (surroundings.files.wording names) text = .ok file := by
      rw [readFile, found] at hfile
      exact hfile
    exact ⟨[], _, file, [], .file loaded hfile, hread, by simp⟩

/-- The variables are one of the layers of the settings. -/
theorem LoadedWith.exists_layers {settings : Settings} {env : Variables} (h : LoadedWith settings env) :
    ∃ below behind, LoadedFrom settings (below ++ env.source :: behind) ∧
      ∀ layer ∈ behind, ∃ env, layer = logSource env := by
  cases h with
  | program loaded =>
    obtain ⟨default, localFile, hdefault, hlocal⟩ := exists_files_of_load loaded
    exact ⟨[default, localFile], [_], .program loaded hdefault hlocal, by simp⟩
  | file loaded =>
    obtain ⟨file, hfile⟩ := exists_file_of_loadFrom loaded
    exact ⟨[file], [], .file loaded hfile, by simp⟩

/-- Layers that come from the variables of the log change nothing about the weights. -/
theorem not_touches_of_logSources {behind : List Entries} (h : ∀ layer ∈ behind, ∃ env, layer = logSource env)
    (priority : Priority) :
    ∀ assignment ∈ behind.flatMap assignmentsOf, ¬assignment.Touches (Setting.weight priority).keys := by
  intro assignment hassignment
  obtain ⟨layer, hlayer, hassignment⟩ := List.mem_flatMap.1 hassignment
  obtain ⟨env, rfl⟩ := h layer hlayer
  exact not_touches_of_logSource hassignment priority

/-- A natural number that is configured for a priority fits into eight bits, and the weight of the planner is this
number or a hundred, whichever is less. -/
theorem weight_of_configures {settings : Settings} {layers : List Entries} (hloaded : LoadedFrom settings layers)
    {priority : Priority} {scalar : Scalar} {n : ℕ}
    (hconfigures : Configures (layers.flatMap assignmentsOf) (Setting.weight priority).fields scalar)
    (hspells : scalar.Spells n) : n < 256 ∧ ((Planner.ofSettings settings).weights.of priority).toNat = min n 100 := by
  have hkeys : ∀ field ∈ (Setting.weight priority).fields, IsFolded field.name := fun field hfield =>
    Setting.isFolded_keys (.weight priority) field.name (List.mem_map_of_mem hfield)
  obtain ⟨place, origin, hfollow, hplace⟩ := follow?_of_configures hkeys hconfigures
  have hholds := holds_of_ofValue hloaded.ofValue_eq_ok (.weight priority)
  rw [Placed.Holds, hfollow] at hholds
  have hweight := Placed.toWeight_of_spells hplace hspells hholds
  refine ⟨hweight ▸ UInt8.toNat_lt _, ?_⟩
  rw [Planner.ofSettings, Settings.weights, Weights.toNat_of_capped, ← hweight]
  rfl

/-- A natural number that is given for a priority, in the text of a file or by a variable, fits into eight bits if the
settings are loaded, and the weight of the planner is this number or a hundred, whichever is less. -/
theorem priorities_capped :
    -- what is given in the text of a file
    (∀ settings text above, LoadedOver settings text above → ∀ (priority : Priority) (n : ℕ),
      TextGives text (Setting.weight priority).keys (.integer n) →
      (∀ assignment ∈ above.flatMap assignmentsOf, ¬assignment.Touches (Setting.weight priority).keys) →
        n < 256 ∧ ((Planner.ofSettings settings).weights.of priority).toNat = min n 100) ∧
    -- digits stand for the number that they denote, or for nothing
    (∀ digits, Toml.IsNumeral digits → ∀ value, Toml.Denotes digits value ↔
      Decimal.ofDigits digits < 0x8000000000000000 ∧ value = .integer (Decimal.ofDigits digits)) ∧
    -- what a variable says
    (∀ settings env, LoadedWith settings env → ∀ (priority : Priority) (n : ℕ) before after name text,
      env = before ++ (name, text) :: after → foldKey name = foldKey (Setting.weight priority).variableName →
      Decimal.readInt? text.toList = some (n : ℤ) →
      (∀ assignment ∈ assignmentsOf (Variables.source after), ¬assignment.Touches (Setting.weight priority).keys) →
        n < 256 ∧ ((Planner.ofSettings settings).weights.of priority).toNat = min n 100) ∧
    -- whatever else configures a weight, such as a list in the place of its section
    ∀ settings layers, LoadedFrom settings layers → ∀ (priority : Priority) (n : ℕ) scalar,
      Configures (layers.flatMap assignmentsOf) (Setting.weight priority).fields scalar → scalar.Spells n →
        n < 256 ∧ ((Planner.ofSettings settings).weights.of priority).toNat = min n 100 := by
  refine ⟨?texts, fun digits h value => Toml.denotes_numeral_iff h, ?environment, ?layers⟩
  case texts =>
    intro settings text above hloaded priority n hgives habove
    obtain ⟨below, path, entries, behind, hlayers, hread, hbehind⟩ := hloaded.exists_layers
    obtain ⟨hmem, hothers⟩ := hgives.sets hread
    refine weight_of_configures hlayers (configures_of_decides _ below _ (decides_of_mem hmem hothers) ?_) (.number n)
    intro assignment hassignment
    rw [List.flatMap_append] at hassignment
    obtain hassignment | hassignment := List.mem_append.1 hassignment
    · exact habove assignment hassignment
    · exact not_touches_of_logSources hbehind priority assignment hassignment
  case environment =>
    rintro settings env hloaded priority n before after name text rfl hname hread hlater
    obtain ⟨below, behind, hlayers, hbehind⟩ := hloaded.exists_layers
    have hdecides := decides_of_variable before text ((Setting.weight priority).spells_variableName hname) hlater
    exact weight_of_configures hlayers (configures_of_decides _ below _ hdecides
      (not_touches_of_logSources hbehind priority)) (.spelled hread)
  case layers =>
    exact fun settings layers hloaded priority n scalar hconfigures hspells =>
      weight_of_configures hloaded hconfigures hspells

namespace FileElsewhere

/-- A line for one of the weights. -/
def weightLine (key : Toml.BarePart) (digits : List Char) (h : Toml.IsNumeral digits)
    (hfits : Decimal.ofDigits digits < 0x8000000000000000) : Toml.Line :=
  .ofNumeral (.single key) digits h hfits

/-- The lines of a file with two of the weights. -/
def lines : List Toml.Line :=
  [.of (.header ⟨[⟨"scoring", by decide⟩], ⟨"priorities", by decide⟩, by decide⟩),
    weightLine ⟨"cost", by decide⟩ ['2', '0', '0'] (by decide) (by decide),
    weightLine ⟨"time", by decide⟩ ['4', '0'] (by decide) (by decide)]

/-- A file outside of the working directory, and a variable for one of its weights. -/
def surroundings : Surroundings :=
  ⟨⟨["work".toList], [("/etc/weights.toml", "[scoring.priorities]\ncost = 200\ntime = 40")]⟩,
    [("SKYPLAN__SCORING__PRIORITIES__TIME", "250")]⟩

/-- What is said in the file. -/
theorem marksOf_lines : Toml.marksOf [] lines =
    [⟨["scoring", "priorities"], .table⟩, ⟨["scoring", "priorities", "cost"], .value (.integer 200)⟩,
      ⟨["scoring", "priorities", "time"], .value (.integer 40)⟩] := rfl

/-- The file gives the weight of the costs. -/
theorem gives_cost : LinesGive lines (Setting.weight .cost).keys (.integer 200) :=
  linesGive_of_marksOf ["scoring", "priorities", "cost"] [_] [_] marksOf_lines (by decide +kernel) (by decide +kernel)

end FileElsewhere

/-- A file outside of the working directory gives a weight of two hundred, and a variable one of two hundred and
fifty. -/
theorem priorities_capped_two_hundred : ∃ settings,
    loadFrom "/etc/weights.toml" FileElsewhere.surroundings = .ok settings ∧
      ((Planner.ofSettings settings).weights.of .cost).toNat = min 200 100 ∧
      ((Planner.ofSettings settings).weights.of .time).toNat = min 250 100 := by
  obtain ⟨settings, hload⟩ : ∃ settings, loadFrom "/etc/weights.toml" FileElsewhere.surroundings = .ok settings :=
    exists_eq_ok (by decide +kernel)
  have hfound : FileElsewhere.surroundings.files.find? "/etc/weights.toml" =
      some (["etc".toList, "weights.toml".toList], String.ofList (Toml.documentText FileElsewhere.lines)) := by
    decide +kernel
  refine ⟨settings, hload, ?cost, ?time⟩
  case cost =>
    refine (priorities_capped.1 _ _ _ (.file hload hfound) .cost 200 (.lines rfl rfl FileElsewhere.gives_cost) ?_).2
    intro assignment hassignment htouches
    rw [List.flatMap_singleton] at hassignment
    have hspells : ∀ other ∈ FileElsewhere.surroundings.env, Variables.pathOfName? other.1 = none ∨
        ∃ keys, Variables.Spells other.1 keys ∧ keys = (Setting.weight .time).keys := by
      simp only [FileElsewhere.surroundings, List.forall_mem_cons, List.not_mem_nil, false_implies, implies_true,
        and_true]
      exact .inr ⟨_, (Setting.weight .time).spells_variableName rfl, rfl⟩
    obtain ⟨keys, hway, rfl⟩ := Variables.exists_way_of_source hspells hassignment
    have hdiffers : "time" ≠ "cost" := by decide
    exact htouches.1 (hway ▸ .tail (.tail (.head hdiffers)))
  case time =>
    exact (priorities_capped.2.2.1 _ _ (.file hload) .time 250 [] [] _ "250" rfl rfl (by decide +kernel)
      (by simp [Variables.source, assignmentsOf])).2

end Settings

end FlightPlanner
