import FlightPlanner.Config.Files
import FlightPlanner.Proofs.Config.Standing

/-!
# What the tables of a document assign

The values in a document are a tree: a table has values under its keys, and some of these are tables again. As a
source it assigns each of its leaves at the keys that lead to it, in small letters. So a value that keys lead to is all
that the source assigns there, if no other key of the tables on the way is one of them in letters of either case.
-/

namespace FlightPlanner

/-- Whether a value has no parts. -/
def Toml.Value.isSingle : Value → Bool
  | .list _ => false
  | .table _ => false
  | _ => true

namespace Config

/-- Whether keys lead to a single value inside another one, in letters of either case, and to nothing else. -/
inductive Leads : Toml.Value → List String → Toml.Value → Prop where
  /-- No keys lead to the value itself. -/
  | here {value : Toml.Value} (single : value.isSingle = true) : Leads value [] value
  /-- Keys lead on from what the first one stands for in a table. -/
  | inside {before after : List (String × Toml.Value)} {key : String} {inner value : Toml.Value} {keys : List String}
      (leads : Leads inner keys value) (alone : ∀ other ∈ before ++ after, foldKey other.1 ≠ foldKey key) :
      Leads (.table (before ++ (key, inner) :: after)) (foldKey key :: keys) value

/-- Whether keys lead to tables only inside a value, in letters of either case, as far as they lead anywhere. -/
inductive Omits : Toml.Value → List String → Prop where
  /-- The value is a table, and what the first key stands for in it omits the others. -/
  | table {entries : List (String × Toml.Value)} {keys : List String}
      (omits : ∀ key inner rest, (key, inner) ∈ entries → keys = foldKey key :: rest → Omits inner rest) :
      Omits (.table entries) keys

/-- Whether each key of a table is read as a single key, where it could be read as a path. -/
def HasPlainKeys (tree : List (String × Toml.Value)) : Prop :=
  ∀ key value, (key, value) ∈ tree → pathOf key = [.child (foldKey key)]

/-- Whether a source assigns a value to some keys, and nothing else that changes what stands under them. -/
def Sets (source : Entries) (keys : List String) (value : Value) : Prop :=
  ⟨Value.way keys, value⟩ ∈ assignmentsOf source ∧
    ∀ assignment ∈ assignmentsOf source, assignment.Touches keys → assignment = ⟨Value.way keys, value⟩

/-- Below a key an assignment changes what it changes before. -/
theorem Assignment.Touches.of_below {assignment : Assignment} {key : String} {keys : List String}
    (h : (assignment.below key).Touches (key :: keys)) : assignment.Touches keys := by
  obtain ⟨hapart, hpasses⟩ := h
  refine ⟨fun hinner => hapart (.tail hinner), fun ⟨hblank, hfront⟩ => hpasses ⟨hblank, ?_⟩⟩
  exact (List.prefix_append_right_inj [Step.child key]).2 hfront

/-- A value without parts assigns itself. -/
theorem assignments_of_isSingle {value : Toml.Value} (h : value.isSingle = true) (origin : Origin) :
    (ofToml origin value).assignments = [⟨[], ofToml origin value⟩] := by
  cases value <;> first | rfl | contradiction

/-- It is more than a table without entries. -/
theorem isBlank_ofToml {value : Toml.Value} (h : value.isSingle = true) (origin : Origin) :
    (ofToml origin value).isBlank = false := by
  cases value <;> first | rfl | contradiction

/-- What the entries of a table assign is what their values do, below their keys. -/
theorem mem_entryAssignments_iff {origin : Origin} {entries : List (String × Toml.Value)} {assignment : Assignment} :
    assignment ∈ Value.entryAssignments (ofTomlEntries origin entries) ↔ ∃ key value, (key, value) ∈ entries ∧
      ∃ inner ∈ (ofToml origin value).assignments, inner.below (foldKey key) = assignment := by
  induction entries with
  | nil => simp [ofTomlEntries, Value.entryAssignments]
  | cons first rest ih =>
    obtain ⟨name, own⟩ := first
    rw [ofTomlEntries, Value.entryAssignments, List.mem_append, ih, List.mem_map]
    constructor
    · rintro (h | ⟨key, value, hmem, h⟩)
      · exact ⟨name, own, .head _, h⟩
      · exact ⟨key, value, .tail _ hmem, h⟩
    · rintro ⟨key, value, hmem, h⟩
      obtain heq | hmem := List.mem_cons.1 hmem
      · obtain ⟨rfl, rfl⟩ := Prod.mk.inj heq
        exact .inl h
      · exact .inr ⟨key, value, hmem, h⟩

/-- A table assigns what its entries do, if it has any, and itself otherwise. -/
theorem mem_assignments_table_iff {origin : Origin} {entries : List (String × Toml.Value)} {assignment : Assignment} :
    assignment ∈ (ofToml origin (.table entries)).assignments ↔
      assignment ∈ Value.entryAssignments (ofTomlEntries origin entries) ∨
        entries = [] ∧ assignment = ⟨[], .table origin []⟩ := by
  cases entries with
  | nil => simp [ofToml, ofTomlEntries, Value.assignments, Value.entryAssignments]
  | cons first rest => simp [ofToml, ofTomlEntries, Value.assignments]

/-- Keys lead to single values. -/
theorem Leads.isSingle {tree value : Toml.Value} {keys : List String} (h : Leads tree keys value) :
    value.isSingle = true := by
  induction h with
  | here single => exact single
  | inside leads alone ih => exact ih

/-- What keys lead to is assigned there. -/
theorem Leads.mem_assignments {tree value : Toml.Value} {keys : List String} (h : Leads tree keys value)
    (origin : Origin) : ⟨Value.way keys, ofToml origin value⟩ ∈ (ofToml origin tree).assignments := by
  induction h with
  | here single =>
    rw [assignments_of_isSingle single]
    exact .head _
  | inside leads alone ih =>
    exact mem_assignments_table_iff.2 (.inl (mem_entryAssignments_iff.2
      ⟨_, _, List.mem_append_right _ (.head _), _, ih, rfl⟩))

/-- Nothing else that is assigned changes what stands there. -/
theorem Leads.eq_of_touches {tree value : Toml.Value} {keys : List String} (h : Leads tree keys value)
    {origin : Origin} {assignment : Assignment} (hassignment : assignment ∈ (ofToml origin tree).assignments)
    (htouches : assignment.Touches keys) : assignment = ⟨Value.way keys, ofToml origin value⟩ := by
  induction h generalizing assignment with
  | here single =>
    rw [assignments_of_isSingle single] at hassignment
    exact List.mem_singleton.1 hassignment
  | @inside before after key inner value keys leads alone ih =>
    obtain hassignment | ⟨hempty, -⟩ := mem_assignments_table_iff.1 hassignment
    · obtain ⟨name, other, hmem, below, hbelow, rfl⟩ := mem_entryAssignments_iff.1 hassignment
      obtain hown | hother := List.mem_cons.1 (List.perm_middle.mem_iff.1 hmem)
      · obtain ⟨rfl, rfl⟩ := Prod.mk.inj hown
        rw [ih hbelow htouches.of_below]
        rfl
      · exact absurd (.head (alone _ hother)) htouches.1
    · simp at hempty

/-- Where keys lead to tables only, nothing is assigned but tables without entries. -/
theorem Omits.isBlank {tree : Toml.Value} {keys : List String} (h : Omits tree keys) {origin : Origin}
    {assignment : Assignment} (hassignment : assignment ∈ (ofToml origin tree).assignments)
    (hkeys : assignment.path = Value.way keys) : assignment.value.isBlank = true := by
  induction h generalizing assignment with
  | @table entries keys omits ih =>
    obtain hassignment | ⟨-, rfl⟩ := mem_assignments_table_iff.1 hassignment
    · obtain ⟨key, inner, hmem, below, hbelow, rfl⟩ := mem_entryAssignments_iff.1 hassignment
      obtain ⟨first, rest, rfl, hfirst, hrest⟩ := List.map_eq_cons_iff.1 hkeys.symm
      obtain rfl := Step.child.inj hfirst
      have hinner : below.value.isBlank = true := ih key inner rest hmem rfl hbelow hrest.symm
      exact hinner
    · rfl

/-- The assignments of a document with plain keys are those of its table. -/
theorem assignmentsOf_ofTomlEntries {origin : Origin} {tree : List (String × Toml.Value)} (h : HasPlainKeys tree) :
    assignmentsOf (ofTomlEntries origin tree) = Value.entryAssignments (ofTomlEntries origin tree) := by
  induction tree with
  | nil => rfl
  | cons first rest ih =>
    obtain ⟨key, value⟩ := first
    have hkey : foldKey (foldKey key) = foldKey key := isFolded_foldKey key
    have hpath := h key value (.head _)
    have hrest := ih fun name other hmem => h name other (.tail _ hmem)
    rw [assignmentsOf] at hrest
    rw [ofTomlEntries, assignmentsOf, List.flatMap_cons, hrest]
    dsimp only
    rw [hpath, Value.assignmentsAt, Value.assignmentsAt, hkey, Value.entryAssignments]

/-- What is assigned in a document with plain keys is assigned in its table. -/
theorem mem_assignments_of_mem_assignmentsOf {origin : Origin} {tree : List (String × Toml.Value)}
    (h : HasPlainKeys tree) {assignment : Assignment}
    (hassignment : assignment ∈ assignmentsOf (ofTomlEntries origin tree)) :
    assignment ∈ (ofToml origin (.table tree)).assignments :=
  mem_assignments_table_iff.2 (.inl (assignmentsOf_ofTomlEntries h ▸ hassignment))

/-- A document with plain keys sets what its keys lead to. -/
theorem Leads.sets {tree : List (String × Toml.Value)} {keys : List String} {value : Toml.Value}
    (h : Leads (.table tree) keys value) (hplain : HasPlainKeys tree) (origin : Origin) :
    Sets (ofTomlEntries origin tree) keys (ofToml origin value) := by
  refine ⟨?own, fun assignment hassignment htouches => ?others⟩
  case own =>
    obtain hown | ⟨-, hempty⟩ := mem_assignments_table_iff.1 (h.mem_assignments origin)
    · rwa [assignmentsOf_ofTomlEntries hplain]
    · have hblank := isBlank_ofToml h.isSingle origin
      rw [(Assignment.mk.inj hempty).2] at hblank
      contradiction
  case others => exact h.eq_of_touches (mem_assignments_of_mem_assignmentsOf hplain hassignment) htouches

mutual

/-- A value assigns only what keys lead to. -/
theorem exists_way_of_mem_assignments {value : Value} {assignment : Assignment} (h : assignment ∈ value.assignments) :
    ∃ keys, assignment.path = Value.way keys := by
  cases value with
  | table origin entries =>
    rw [Value.assignments] at h
    split at h
    · exact ⟨[], by rw [List.mem_singleton.1 h]; rfl⟩
    · exact exists_way_of_mem_entryAssignments h
  | list origin items => exact ⟨[], by rw [List.mem_singleton.1 h]; rfl⟩
  | leaf origin scalar => exact ⟨[], by rw [List.mem_singleton.1 h]; rfl⟩

/-- So do the entries of a table. -/
theorem exists_way_of_mem_entryAssignments {entries : List (String × Value)} {assignment : Assignment}
    (h : assignment ∈ Value.entryAssignments entries) : ∃ keys, assignment.path = Value.way keys := by
  match entries with
  | [] => contradiction
  | (key, value) :: rest =>
    obtain h | h := List.mem_append.1 h
    · obtain ⟨inner, hinner, rfl⟩ := List.mem_map.1 h
      obtain ⟨keys, hkeys⟩ := exists_way_of_mem_assignments hinner
      exact ⟨foldKey key :: keys, by rw [Assignment.below, hkeys]; rfl⟩
    · exact exists_way_of_mem_entryAssignments h

end

/-- The way of some keys enters no list. -/
theorem way_ne_append_index (keys before : List String) (place : ℤ) (rest : List Step) :
    Value.way keys ≠ Value.way before ++ .index place :: rest := by
  intro heq
  have hindex : Step.index place ∈ Value.way keys := heq ▸ List.mem_append_right _ (.head _)
  obtain ⟨key, -, hstep⟩ := List.mem_map.1 hindex
  contradiction

end Config

end FlightPlanner
