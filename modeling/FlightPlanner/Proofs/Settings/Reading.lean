import FlightPlanner.Proofs.Config.Standing
import FlightPlanner.Proofs.Results
import FlightPlanner.Settings.Load

/-!
# The settings as fields of a configuration

Each setting is a field of a section, found on a way of fields from the table of everything. When settings are
read from a configuration, each is what its own field holds, converted, or its standard value where the field or
its section is missing; the other fields make no difference to it.
-/

namespace FlightPlanner

open Config

/-- The attributes of a flight that have a weight. -/
inductive Priority where
  /-- A low price. -/
  | cost
  /-- A short duration. -/
  | time
  /-- The safety rating. -/
  | safety
  /-- Few stops. -/
  | comfort
  /-- Few layovers. -/
  | layoverSensitivity
deriving DecidableEq, Repr

/-- The weight of an attribute. -/
def Weights.of (weights : Weights) : Priority → UInt8
  | .cost => weights.cost
  | .time => weights.time
  | .safety => weights.safety
  | .comfort => weights.comfort
  | .layoverSensitivity => weights.layoverSensitivity

/-- The field of an attribute's weight in the section of the weights. -/
def Priority.field : Priority → Field
  | .cost => ⟨0, "cost"⟩
  | .time => ⟨1, "time"⟩
  | .safety => ⟨2, "safety"⟩
  | .comfort => ⟨3, "comfort"⟩
  | .layoverSensitivity => ⟨4, "layover_sensitivity"⟩

/-- A setting, with the type of its values. -/
inductive Setting : Type → Type 1 where
  /-- How many airports are listed when nothing is asked for. -/
  | defaultLimit : Setting UInt64
  /-- How many airports are listed at most. -/
  | maxLimit : Setting UInt64
  /-- The weight of an attribute. -/
  | weight (priority : Priority) : Setting UInt8
  /-- Which events are written. -/
  | level : Setting String
  /-- In which style events are written. -/
  | format : Setting String

namespace Setting

/-- The value of a setting. -/
def of : Setting α → Settings → α
  | .defaultLimit, settings => settings.ranking.defaultLimit
  | .maxLimit, settings => settings.ranking.maxLimit
  | .weight priority, settings => settings.priorities.of priority
  | .level, settings => settings.log.level
  | .format, settings => settings.log.format

/-- The value of a setting where nothing is configured. -/
def standard (setting : Setting α) : α := setting.of .standard

/-- The fields that lead to a setting, that of the outermost section first. -/
def fields : Setting α → List Field
  | .defaultLimit => [⟨0, "ranking"⟩, ⟨0, "default_limit"⟩]
  | .maxLimit => [⟨0, "ranking"⟩, ⟨1, "max_limit"⟩]
  | .weight priority => [⟨1, "scoring"⟩, ⟨0, "priorities"⟩, priority.field]
  | .level => [⟨2, "logging"⟩, ⟨0, "level"⟩]
  | .format => [⟨2, "logging"⟩, ⟨1, "format"⟩]

/-- The keys that lead to a setting. -/
def keys (setting : Setting α) : List String := setting.fields.map Field.name

/-- A configured value as one of a setting. -/
def convert : Setting α → Placed → Except LoadError α
  | .defaultLimit => Placed.toLimit
  | .maxLimit => Placed.toLimit
  | .weight _ => Placed.toWeight
  | .level => Placed.toText
  | .format => Placed.toText

end Setting

/-- The value that fields lead to, each inside that of the one before it. -/
def Config.Placed.follow? : Placed → List Field → Option Placed
  | part, [] => some part
  | part, field :: fields => (part.field? field).bind (·.follow? fields)

/-- Whether a value is what fields hold, converted, or the standard where they lead nowhere. -/
def Config.Placed.Holds (part : Placed) (fields : List Field) (convert : Placed → Except LoadError α)
    (standard value : α) : Prop :=
  match part.follow? fields with
  | some inner => convert inner = .ok value
  | none => value = standard

namespace Config.Placed

/-- A section that is one is read as it is. -/
theorem eq_of_asSection {part opened : Placed} {wanted : Section} (h : part.asSection wanted = .ok opened) :
    opened = part := by
  unfold asSection at h
  split at h
  · contradiction
  · exact (Except.ok.inj h).symm

/-- A field that is read is what it holds. -/
theorem holds_of_read {part : Placed} {field : Field} {convert : Placed → Except LoadError α}
    {standard value : α} (h : part.read field convert standard = .ok value) :
    part.Holds [field] convert standard value := by
  unfold read at h
  unfold Holds
  cases hfield : part.field? field with
  | none => simpa [follow?, hfield] using (by simpa [hfield] using h : standard = value).symm
  | some inner => simpa [follow?, hfield] using h

/-- A part of a section that is read is what the fields inside it hold. -/
theorem holds_cons {part : Placed} {field : Field} {fields : List Field} {readParent : Placed → Except LoadError σ}
    {standardParent parent : σ} {convert : Placed → Except LoadError α} {standard value : α}
    (h : part.read field readParent standardParent = .ok parent)
    (hnone : parent = standardParent → value = standard)
    (hsome : ∀ inner, readParent inner = .ok parent → inner.Holds fields convert standard value) :
    part.Holds (field :: fields) convert standard value := by
  unfold read at h
  unfold Holds
  cases hfield : part.field? field with
  | none =>
    rw [follow?, hfield]
    exact hnone (by simpa [hfield] using h.symm)
  | some inner =>
    rw [follow?, hfield]
    exact hsome inner (by simpa [hfield] using h)

/-- A field of a table is found by its name. -/
theorem field?_of_table {part : Placed} {origin : Option Origin} {entries : Entries}
    (h : part.value = .table origin entries) (field : Field) :
    part.field? field = (entries.lookup field.name).map (⟨part.path ++ [.child field.name], ·⟩) := by
  rw [field?, h]

/-- Fields lead to what stands under their names. -/
theorem follow?_of_find?_some (part : Placed) {fields : List Field} {value : Value}
    (h : Value.find? (some part.value) (fields.map Field.name) = some value) :
    part.follow? fields = some ⟨part.path ++ Value.way (fields.map Field.name), value⟩ := by
  induction fields generalizing part with
  | nil =>
    obtain rfl := Option.some.inj h
    simp [follow?, Value.way]
  | cons field fields ih =>
    rw [List.map_cons, Value.find?_cons] at h
    cases hchild : part.value.child? field.name with
    | none => simp [hchild, Value.find?_none] at h
    | some inner =>
      have hfield : part.field? field = some ⟨part.path ++ [.child field.name], inner⟩ := by
        cases hvalue : part.value with
        | table origin entries =>
          have hlookup : entries.lookup field.name = some inner := by simpa [hvalue, Value.child?] using hchild
          rw [field?_of_table hvalue, hlookup]
          rfl
        | _ => simp [hvalue, Value.child?] at hchild
      have hinner := ih ⟨part.path ++ [.child field.name], inner⟩ (hchild ▸ h)
      rw [follow?, hfield, Option.bind_some, hinner, List.append_assoc]
      rfl

/-- Fields lead nowhere where nothing stands under their names, if they lead through tables. -/
theorem follow?_of_find?_none (part : Placed) {fields : List Field}
    (htables : ∀ before after, fields.map Field.name = before ++ after → after ≠ [] → ∀ value,
      Value.find? (some part.value) before = some value → ∃ origin entries, value = .table origin entries)
    (h : Value.find? (some part.value) (fields.map Field.name) = none) : part.follow? fields = none := by
  induction fields generalizing part with
  | nil => contradiction
  | cons field fields ih =>
    obtain ⟨origin, entries, hvalue⟩ := htables [] _ rfl (by simp) part.value rfl
    rw [List.map_cons, Value.find?_cons, hvalue, Value.child?] at h
    rw [follow?, field?_of_table hvalue]
    cases hlookup : entries.lookup field.name with
    | none => rfl
    | some inner =>
      rw [hlookup] at h
      refine ih ⟨part.path ++ [.child field.name], inner⟩ (fun before after hsplit hafter value hfound => ?_) h
      refine htables (field.name :: before) after (by rw [List.map_cons, hsplit]; rfl) hafter value ?_
      rw [Value.find?_cons, hvalue, Value.child?, hlookup]
      exact hfound

end Config.Placed

/-- Only a value without parts becomes one of a setting. -/
theorem Setting.leaf_of_convert {setting : Setting α} {part : Placed} {value : α}
    (h : setting.convert part = .ok value) : ∃ origin scalar, part.value = .leaf origin scalar := by
  cases hvalue : part.value with
  | leaf origin scalar => exact ⟨origin, scalar, rfl⟩
  | _ =>
    cases setting <;>
      simp [convert, Placed.toLimit, Placed.toWeight, Placed.toText, Placed.toCount, Placed.complain, hvalue,
        Except.map, bind, Except.bind] at h

namespace Settings

/-- The limits of a section that is read are what its fields hold. -/
theorem holds_of_readRanking {part : Placed} {ranking : RankingSettings} (h : readRanking part = .ok ranking) :
    part.Holds [⟨0, "default_limit"⟩] Placed.toLimit RankingSettings.standard.defaultLimit ranking.defaultLimit ∧
      part.Holds [⟨1, "max_limit"⟩] Placed.toLimit RankingSettings.standard.maxLimit ranking.maxLimit := by
  obtain ⟨opened, hopened, hfields⟩ := bind_eq_ok_iff.1 h
  rw [Placed.eq_of_asSection hopened] at hfields
  obtain ⟨defaultLimit, hdefault, hfields⟩ := bind_eq_ok_iff.1 hfields
  obtain ⟨maxLimit, hmax, hfields⟩ := bind_eq_ok_iff.1 hfields
  obtain rfl := Except.ok.inj hfields
  exact ⟨Placed.holds_of_read hdefault, Placed.holds_of_read hmax⟩

/-- The weights of a section that is read are what its fields hold. -/
theorem holds_of_readPriorities {part : Placed} {weights : Weights} (h : readPriorities part = .ok weights)
    (priority : Priority) :
    part.Holds [priority.field] Placed.toWeight (Weights.standard.of priority) (weights.of priority) := by
  obtain ⟨opened, hopened, hfields⟩ := bind_eq_ok_iff.1 h
  rw [Placed.eq_of_asSection hopened] at hfields
  obtain ⟨cost, hcost, hfields⟩ := bind_eq_ok_iff.1 hfields
  obtain ⟨time, htime, hfields⟩ := bind_eq_ok_iff.1 hfields
  obtain ⟨safety, hsafety, hfields⟩ := bind_eq_ok_iff.1 hfields
  obtain ⟨comfort, hcomfort, hfields⟩ := bind_eq_ok_iff.1 hfields
  obtain ⟨layoverSensitivity, hlayover, hfields⟩ := bind_eq_ok_iff.1 hfields
  obtain rfl := Except.ok.inj hfields
  cases priority with
  | cost => exact Placed.holds_of_read hcost
  | time => exact Placed.holds_of_read htime
  | safety => exact Placed.holds_of_read hsafety
  | comfort => exact Placed.holds_of_read hcomfort
  | layoverSensitivity => exact Placed.holds_of_read hlayover

/-- The log of a section that is read is what its fields hold. -/
theorem holds_of_readLog {part : Placed} {log : LogSettings} (h : readLog part = .ok log) :
    part.Holds [⟨0, "level"⟩] Placed.toText LogSettings.standard.level log.level ∧
      part.Holds [⟨1, "format"⟩] Placed.toText LogSettings.standard.format log.format := by
  obtain ⟨opened, hopened, hfields⟩ := bind_eq_ok_iff.1 h
  rw [Placed.eq_of_asSection hopened] at hfields
  obtain ⟨level, hlevel, hfields⟩ := bind_eq_ok_iff.1 hfields
  obtain ⟨format, hformat, hfields⟩ := bind_eq_ok_iff.1 hfields
  obtain rfl := Except.ok.inj hfields
  exact ⟨Placed.holds_of_read hlevel, Placed.holds_of_read hformat⟩

/-- Each setting that is read from a configuration is what its own field holds. -/
theorem holds_of_ofValue {root : Value} {settings : Settings} (h : ofValue root = .ok settings)
    (setting : Setting α) :
    Placed.Holds ⟨[], root⟩ setting.fields setting.convert setting.standard (setting.of settings) := by
  obtain ⟨ranking, hranking, h⟩ := bind_eq_ok_iff.1 h
  obtain ⟨weights, hweights, h⟩ := bind_eq_ok_iff.1 h
  obtain ⟨log, hlog, h⟩ := bind_eq_ok_iff.1 h
  obtain rfl := Except.ok.inj h
  cases setting with
  | defaultLimit =>
    refine Placed.holds_cons hranking (fun h => ?_) fun inner hinner => (holds_of_readRanking hinner).1
    rw [Setting.of, h]
    rfl
  | maxLimit =>
    refine Placed.holds_cons hranking (fun h => ?_) fun inner hinner => (holds_of_readRanking hinner).2
    rw [Setting.of, h]
    rfl
  | weight priority =>
    refine Placed.holds_cons hweights (fun h => ?_) fun inner hinner => ?_
    · rw [Setting.of, h]
      rfl
    · obtain ⟨opened, hopened, hinner⟩ := bind_eq_ok_iff.1 hinner
      rw [Placed.eq_of_asSection hopened] at hinner
      refine Placed.holds_cons hinner (fun h => ?_) fun inner hinner => holds_of_readPriorities hinner priority
      rw [Setting.of, h]
      rfl
  | level =>
    refine Placed.holds_cons hlog (fun h => ?_) fun inner hinner => (holds_of_readLog hinner).1
    rw [Setting.of, h]
    rfl
  | format =>
    refine Placed.holds_cons hlog (fun h => ?_) fun inner hinner => (holds_of_readLog hinner).2
    rw [Setting.of, h]
    rfl

end Settings

end FlightPlanner
