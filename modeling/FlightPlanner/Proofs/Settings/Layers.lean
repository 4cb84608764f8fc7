import FlightPlanner.Proofs.Config.Rebuild
import FlightPlanner.Proofs.Config.Standing
import FlightPlanner.Proofs.Settings.Reading

/-!
# Settings in layers

Sources of values are layers, each over those before it. Where the sections are tables, each setting that is read
from layers is what the last layer that gives it a value says, converted, or its standard value where no layer gives
it one. No layer's value for another setting makes a difference. A table without entries gives nothing a value.
-/

namespace FlightPlanner

open Config

/-- The keys of the sections that hold the settings. -/
def sectionKeys : List (List String) := [["ranking"], ["scoring"], ["scoring", "priorities"], ["logging"]]

/-- Whether each section that a source sets is a table in it. -/
def Config.SectionsAreTables (source : Entries) : Prop :=
  ∀ assignment ∈ assignmentsOf source, ∀ keys ∈ sectionKeys, assignment.KeepsTable keys

/-- The value that a source gives to some keys, the last one if it gives several. -/
def Config.given? (source : Entries) (keys : List String) : Option Value :=
  Assignment.lastGiven? (assignmentsOf source) keys

/-- The value of the last layer that gives one to some keys. -/
def Config.topmost? (layers : List Entries) (keys : List String) : Option Value :=
  layers.reverse.findSome? (given? · keys)

/-- Whether two sources give the same values to everything but some keys. -/
def Config.SameExcept (keys : List String) (first second : Entries) : Prop :=
  let others := fun source => (assignmentsOf source).filter fun assignment =>
    assignment.path ≠ Value.way keys && !assignment.value.isBlank
  others first = others second

/-- The assignments of layers are proper. -/
theorem Config.proper_of_mem_layers {layers : List Entries} {assignment : Assignment}
    (h : assignment ∈ layers.flatMap assignmentsOf) : assignment.Proper := by
  obtain ⟨layer, -, h⟩ := List.mem_flatMap.1 h
  exact proper_of_mem_assignmentsOf h

/-- The assignments of layers keep the sections tables where each layer does. -/
theorem Config.keepsTable_of_mem_layers {layers : List Entries}
    (htables : ∀ layer ∈ layers, SectionsAreTables layer) {assignment : Assignment}
    (h : assignment ∈ layers.flatMap assignmentsOf) {keys : List String} (hkeys : keys ∈ sectionKeys) :
    assignment.KeepsTable keys := by
  obtain ⟨layer, hlayer, h⟩ := List.mem_flatMap.1 h
  exact htables layer hlayer assignment h keys hkeys

/-- The topmost value is that of the layers above the lowest one, if they give any. -/
theorem Config.topmost?_cons (layer : Entries) (rest : List Entries) (keys : List String) :
    topmost? (layer :: rest) keys = (topmost? rest keys).or (given? layer keys) := by
  rw [topmost?, List.reverse_cons, List.findSome?_append]
  simp [topmost?]

/-- The topmost value is the last one that all the layers' assignments give. -/
theorem Config.topmost?_eq (layers : List Entries) (keys : List String) :
    topmost? layers keys = Assignment.lastGiven? (layers.flatMap assignmentsOf) keys := by
  induction layers with
  | nil => rfl
  | cons layer rest ih =>
    rw [List.flatMap_cons, Assignment.lastGiven?_append, ← ih, topmost?_cons, given?]

/-- Sources that give the same values to everything but some keys give the same value to any other keys. -/
theorem Config.SameExcept.given?_eq {keys others : List String} {first second : Entries}
    (h : SameExcept keys first second) (hothers : others ≠ keys) : given? first others = given? second others := by
  have hdropped : ∀ assignments : List Assignment, Assignment.lastGiven? (assignments.filter fun assignment =>
      assignment.path ≠ Value.way keys && !assignment.value.isBlank) others =
        Assignment.lastGiven? assignments others := by
    intro assignments
    induction assignments with
    | nil => rfl
    | cons assignment rest ih =>
      rw [Assignment.lastGiven?_cons, ← ih, List.filter_cons]
      split
      · rw [Assignment.lastGiven?_cons]
      · next hdrop =>
        have hnone : Assignment.gives? others assignment = none := by
          by_cases hpath : assignment.path = Value.way others
          · have hway : Value.way others ≠ Value.way keys := fun heq => hothers (Value.way_injective heq)
            simp_all [Assignment.gives?]
          · simp [Assignment.gives?, hpath]
        rw [hnone, Option.or_none]
  rw [given?, given?, ← hdropped (assignmentsOf first), ← hdropped (assignmentsOf second)]
  exact congrArg (Assignment.lastGiven? · others) h

/-- Layers that give the same values to everything but some keys give the same topmost value to any other keys. -/
theorem Config.topmost?_congr {keys others : List String} {first second : List Entries}
    (h : List.Forall₂ (SameExcept keys) first second) (hothers : others ≠ keys) :
    topmost? first others = topmost? second others := by
  induction h with
  | nil => rfl
  | cons hlayer _ ih => rw [topmost?_cons, topmost?_cons, ih, hlayer.given?_eq hothers]

namespace Setting

/-- The keys of the settings are in small letters. -/
theorem isFolded_keys (setting : Setting α) : ∀ key ∈ setting.keys, IsFolded key := by
  cases setting with
  | weight priority => cases priority <;> decide
  | _ => decide

/-- Some keys lead to a setting. -/
theorem keys_ne_nil (setting : Setting α) : setting.keys ≠ [] := by
  cases setting <;> simp [keys, fields]

/-- The keys in front of the last one of a setting are those of a section. -/
theorem mem_sectionKeys {setting : Setting α} {before after : List String} (h : setting.keys = before ++ after)
    (hbefore : before ≠ []) (hafter : after ≠ []) : before ∈ sectionKeys := by
  have hlow : 0 < before.length := List.length_pos_iff.2 hbefore
  have hbehind : 0 < after.length := List.length_pos_iff.2 hafter
  have hlength : setting.keys.length = before.length + after.length := by rw [h, List.length_append]
  have htake : before = setting.keys.take before.length := by simp [h]
  cases setting with
  | weight priority =>
    obtain hone | htwo : before.length = 1 ∨ before.length = 2 := by
      simp only [keys, fields, List.map_cons, List.map_nil, List.length_cons, List.length_nil] at hlength
      omega
    · rw [htake, hone]
      simp [keys, fields, sectionKeys]
    · rw [htake, htwo]
      simp [keys, fields, sectionKeys]
  | _ =>
    have hone : before.length = 1 := by
      simp only [keys, fields, List.map_cons, List.map_nil, List.length_cons, List.length_nil] at hlength
      omega
    rw [htake, hone]
    simp [keys, fields, sectionKeys]

/-- Where all sections are tables, what stands under keys in front of the last one of a setting is a table. -/
theorem table_before {layers : List Entries} (htables : ∀ layer ∈ layers, SectionsAreTables layer)
    {setting : Setting α} {before after : List String} (hkeys : setting.keys = before ++ after) (hafter : after ≠ [])
    {value : Value} (h : Value.find? (some (.ofSources layers)) before = some value) :
    ∃ origin entries, value = .table origin entries := by
  by_cases hbefore : before = []
  · obtain ⟨⟨entries, htable⟩, -, -⟩ := Value.isRoot_ofSources layers
    subst hbefore
    exact ⟨none, entries, (Option.some.inj h).symm.trans htable⟩
  · rw [← applyAll_flatMap_assignmentsOf] at h
    refine Assignment.find?_applyAll_table (fun a => proper_of_mem_layers) ?folded ?kept hbefore ?start value h
    case folded =>
      intro key hkey
      exact setting.isFolded_keys key (by rw [hkeys]; exact List.mem_append_left _ hkey)
    case kept =>
      intro assignment hassignment front back hsplit hfront
      have hfull : setting.keys = front ++ (back ++ after) := by rw [hkeys, hsplit, List.append_assoc]
      exact keepsTable_of_mem_layers htables hassignment (mem_sectionKeys hfull hfront (by simp [hafter]))
    case start =>
      rw [Value.find?_empty hbefore]
      exact nofun

/-- Where all sections are tables, what stands under the keys of a setting is the topmost value given to it, or a
table or a list. -/
theorem shows_topmost? {layers : List Entries} (htables : ∀ layer ∈ layers, SectionsAreTables layer)
    (setting : Setting α) :
    Assignment.Shows (Value.find? (some (.ofSources layers)) setting.keys) (topmost? layers setting.keys) := by
  have hempty : Assignment.Shows (Value.find? (some .empty) setting.keys) none :=
    .inl (Value.find?_empty setting.keys_ne_nil)
  have hproper : ∀ assignment ∈ layers.flatMap assignmentsOf, assignment.Proper := fun _ h => proper_of_mem_layers h
  have hshows := Assignment.shows_applyAll hproper setting.isFolded_keys
    (fun a ha before after hkeys hbefore hafter =>
      keepsTable_of_mem_layers htables ha (mem_sectionKeys hkeys hbefore hafter)) hempty
  rwa [applyAll_flatMap_assignmentsOf, Option.or_none, ← topmost?_eq] at hshows

end Setting

/-- Whether a setting is a value, converted, or its standard value where there is none. -/
def Setting.Is (setting : Setting α) (settings : Settings) : Option Value → Prop
  | some value => setting.convert ⟨Value.way setting.keys, value⟩ = .ok (setting.of settings)
  | none => setting.of settings = setting.standard

/-- A setting that is the same value in two settings is the same in both. -/
theorem Setting.Is.eq {setting : Setting α} {first second : Settings} {value : Option Value}
    (hfirst : setting.Is first value) (hsecond : setting.Is second value) : setting.of first = setting.of second := by
  cases value with
  | none => exact hfirst.trans hsecond.symm
  | some value => exact Except.ok.inj (hfirst.symm.trans hsecond)

namespace Settings

/-- Whether each setting is what the topmost layer that gives it a value says, or its standard value. -/
def Follows (settings : Settings) (layers : List Entries) : Prop :=
  ∀ (α : Type) (setting : Setting α), setting.Is settings (topmost? layers setting.keys)

/-- The settings that are read from layers follow these. -/
theorem follows_of_ofValue {layers : List Entries} {settings : Settings}
    (h : ofValue (.ofSources layers) = .ok settings) (htables : ∀ layer ∈ layers, SectionsAreTables layer) :
    settings.Follows layers := by
  intro α setting
  have hshows := setting.shows_topmost? htables
  have hholds := holds_of_ofValue h setting
  unfold Placed.Holds at hholds
  cases hfound : Value.find? (some (.ofSources layers)) setting.keys with
  | some value =>
    rw [Placed.follow?_of_find?_some ⟨[], .ofSources layers⟩ hfound] at hholds
    obtain ⟨origin, scalar, hleaf⟩ := Setting.leaf_of_convert hholds
    obtain hgiven | ⟨other, hother, hcomposite⟩ := hshows
    · rw [← hgiven, hfound]
      exact hholds
    · obtain rfl := Option.some.inj (hfound.symm.trans hother)
      exact absurd hleaf (hcomposite origin scalar)
  | none =>
    have hgiven : topmost? layers setting.keys = none := by
      obtain hgiven | ⟨other, hother, -⟩ := hshows
      · exact hgiven ▸ hfound
      · exact nomatch hfound.symm.trans hother
    have hnowhere := Placed.follow?_of_find?_none ⟨[], .ofSources layers⟩
      (fun before after hkeys hafter value => Setting.table_before htables hkeys hafter) hfound
    rw [hnowhere] at hholds
    rw [hgiven]
    exact hholds

/-- Settings that follow layers which give the same values to everything but some keys are the same but for the
setting at these keys. -/
theorem Follows.eq_elsewhere {first second : Settings} {firstLayers secondLayers : List Entries}
    (hfirst : first.Follows firstLayers) (hsecond : second.Follows secondLayers) {keys : List String}
    (hsame : List.Forall₂ (SameExcept keys) firstLayers secondLayers) (setting : Setting α)
    (hkeys : setting.keys ≠ keys) : setting.of first = setting.of second := by
  have hsecond := hsecond α setting
  rw [← topmost?_congr hsame hkeys] at hsecond
  exact (hfirst α setting).eq hsecond

end Settings

end FlightPlanner
