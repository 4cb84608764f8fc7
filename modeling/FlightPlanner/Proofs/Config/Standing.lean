import FlightPlanner.Proofs.Config.Assignments

/-!
# What stands under some keys once sources are laid over each other

An assignment that does not touch some keys leaves what stands under them. So the last one that does decides, and
where no source puts anything else in the place of the tables that the keys lead through, what stands under the
keys is the last value that a source gives them; or it is a table or a list, which is no value of a setting.
-/

namespace FlightPlanner.Config

/-- Whether a value is a table without entries, which sets nothing where something is. -/
def Value.isBlank : Value → Bool
  | .table _ entries => entries.isEmpty
  | _ => false

/-- What every assignment of a source is like: it starts in the table of everything, its keys are in small
letters, and where its path is the way of some keys, its value is no table with entries. -/
structure Assignment.Proper (assignment : Assignment) : Prop where
  /-- It starts in a table. -/
  starts : ∃ key path, assignment.path = .child key :: path
  /-- Its keys are in small letters. -/
  folded : FoldedPath assignment.path
  /-- It sets one value. -/
  whole : ∀ keys, assignment.path = Value.way keys →
    ∀ origin entries, assignment.value = .table origin entries → entries = []

mutual

/-- The assignments of a value have their keys in small letters and set one value each. -/
theorem Value.mem_assignments {value : Value} {assignment : Assignment} (h : assignment ∈ value.assignments) :
    FoldedPath assignment.path ∧
      ∀ origin entries, assignment.value = .table origin entries → entries = [] := by
  cases value with
  | table origin entries =>
    rw [assignments] at h
    split at h
    · obtain rfl := List.mem_singleton.1 h
      exact ⟨by simp [FoldedPath], by simp⟩
    · exact mem_entryAssignments h
  | list origin items =>
    obtain rfl := List.mem_singleton.1 h
    exact ⟨by simp [FoldedPath], by simp⟩
  | leaf origin scalar =>
    obtain rfl := List.mem_singleton.1 h
    exact ⟨by simp [FoldedPath], by simp⟩

/-- So have those of entries. -/
theorem Value.mem_entryAssignments {entries : List (String × Value)} {assignment : Assignment}
    (h : assignment ∈ entryAssignments entries) :
    FoldedPath assignment.path ∧
      ∀ origin entries, assignment.value = .table origin entries → entries = [] := by
  match entries with
  | [] => simp [entryAssignments] at h
  | (key, value) :: rest =>
    rw [entryAssignments] at h
    obtain h | h := List.mem_append.1 h
    · obtain ⟨inner, hinner, rfl⟩ := List.mem_map.1 h
      obtain ⟨hfolded, hwhole⟩ := mem_assignments hinner
      exact ⟨.cons_child (isFolded_foldKey key) hfolded, hwhole⟩
    · exact mem_entryAssignments h

end

/-- The assignments of a value at a path have their keys in small letters, and set one value each where no step
is taken into a list. -/
theorem Value.mem_assignmentsAt {value : Value} {path : List Step} {assignment : Assignment}
    (hpath : FoldedPath path) (h : assignment ∈ value.assignmentsAt path) :
    FoldedPath assignment.path ∧ ∀ keys, assignment.path = way keys →
      ∀ origin entries, assignment.value = .table origin entries → entries = [] := by
  induction path generalizing assignment with
  | nil =>
    obtain ⟨hfolded, hwhole⟩ := mem_assignments h
    exact ⟨hfolded, fun _ _ => hwhole⟩
  | cons step path ih =>
    cases step with
    | child key =>
      obtain ⟨inner, hinner, rfl⟩ := List.mem_map.1 h
      obtain ⟨hfolded, hwhole⟩ := ih (fun name hname => hpath name (.tail _ hname)) hinner
      refine ⟨.cons_child (isFolded_foldKey key) hfolded, fun keys hkeys => ?_⟩
      match keys with
      | name :: keys => exact hwhole keys (List.cons.inj hkeys).2
    | index place =>
      obtain rfl := List.mem_singleton.1 h
      refine ⟨hpath, fun keys hkeys => ?_⟩
      cases keys <;> simp [way] at hkeys

/-- The assignments of a source are proper. -/
theorem proper_of_mem_assignmentsOf {source : Entries} {assignment : Assignment}
    (h : assignment ∈ assignmentsOf source) : assignment.Proper := by
  obtain ⟨⟨key, value⟩, -, h⟩ := List.mem_flatMap.1 h
  obtain ⟨first, path, hpath, hfolded, -⟩ := pathOf_eq key
  obtain ⟨hkeys, hwhole⟩ := value.mem_assignmentsAt (hpath ▸ hfolded) h
  refine ⟨?_, hkeys, hwhole⟩
  simp only [hpath, Value.assignmentsAt] at h
  obtain ⟨inner, -, rfl⟩ := List.mem_map.1 h
  exact ⟨_, _, rfl⟩

namespace Assignment

/-- Whether an assignment changes what stands under some keys: unless its path parts from their way, or it sets
a table without entries where they lead to or through. -/
def Touches (assignment : Assignment) (keys : List String) : Prop :=
  ¬Apart assignment.path keys ∧ ¬(assignment.value.isBlank ∧ assignment.path <+: Value.way keys)

/-- Whether an assignment leaves a table under some keys: it sets no value there but a table without entries, and
enters no list there. -/
def KeepsTable (assignment : Assignment) (keys : List String) : Prop :=
  (assignment.path = Value.way keys → assignment.value.isBlank) ∧
    ∀ place rest, assignment.path ≠ Value.way keys ++ .index place :: rest

/-- A table without entries laid over a value changes it at most where nothing is. -/
theorem overlay_blank {value : Value} (h : value.isBlank) (old : Option Value) :
    Value.overlay old value = old.getD .empty := by
  match value with
  | .table origin [] => rfl

/-- A table without entries changes nothing that stands behind it. -/
theorem find?_apply_blank {assignment : Assignment} {before after : List String}
    (hpath : assignment.path = Value.way before) (hblank : assignment.value.isBlank)
    (hbefore : ∀ key ∈ before, IsFolded key) (hafter : after ≠ []) (old : Option Value) :
    Value.find? (apply old assignment) (before ++ after) = Value.find? old (before ++ after) := by
  have hset := Value.find?_setAt_way assignment.value hbefore [] old
  rw [List.append_nil, ← hpath] at hset
  rw [apply, Value.find?_append, hset, Value.setAt, overlay_blank hblank, Value.find?_append]
  obtain ⟨key, keys, rfl⟩ := List.exists_cons_of_ne_nil hafter
  cases Value.find? old before with
  | some value => rfl
  | none => simp [Value.find?, Value.find?_none, Value.child?, Value.empty]

/-- What stands under some keys stands there after an assignment that does not touch them. -/
theorem find?_apply_of_not_touches {assignment : Assignment} {keys : List String} {old : Option Value}
    {value : Value} (hassignment : assignment.Proper) (hkeys : ∀ key ∈ keys, IsFolded key)
    (htouches : ¬assignment.Touches keys) (hold : Value.find? old keys = some value) :
    Value.find? (apply old assignment) keys = some value := by
  by_cases hapart : Apart assignment.path keys
  · rw [apply, Value.find?_setAt_of_apart _ hapart hassignment.folded, hold]
  · obtain ⟨hblank, after, hafter⟩ : assignment.value.isBlank ∧ assignment.path <+: Value.way keys := by
      simpa [Touches, hapart] using htouches
    obtain ⟨before, behind, rfl, hbefore, -⟩ := List.map_eq_append_iff.1 hafter.symm
    have hpath : assignment.path = Value.way before := hbefore.symm
    have hfolded : ∀ key ∈ before, IsFolded key := fun key h => hkeys key (List.mem_append_left _ h)
    by_cases hbehind : behind = []
    · subst hbehind
      rw [List.append_nil] at hold ⊢
      have hset := Value.find?_setAt_way assignment.value hfolded [] old
      rw [List.append_nil, ← hpath, hold] at hset
      rw [apply, hset, Value.setAt, overlay_blank hblank]
      rfl
    · rw [find?_apply_blank hpath hblank hfolded hbehind, hold]

/-- It stands there after any number of them. -/
theorem find?_applyAll_of_not_touches {assignments : List Assignment} {keys : List String} {old : Option Value}
    {value : Value} (hassignments : ∀ assignment ∈ assignments, assignment.Proper)
    (hkeys : ∀ key ∈ keys, IsFolded key) (htouches : ∀ assignment ∈ assignments, ¬assignment.Touches keys)
    (hold : Value.find? old keys = some value) :
    Value.find? (applyAll old assignments) keys = some value := by
  induction assignments generalizing old with
  | nil => exact hold
  | cons assignment rest ih =>
    refine ih (fun a h => hassignments a (.tail _ h)) (fun a h => htouches a (.tail _ h)) ?_
    exact find?_apply_of_not_touches (hassignments _ (.head _)) hkeys (htouches _ (.head _)) hold

/-- What an assignment does under some keys if it keeps all the tables that they lead through: nothing, or it lays
its value over what stands there, or it sets it behind a further step from there. -/
theorem find?_apply_cases {assignment : Assignment} {keys : List String} (old : Option Value)
    (hassignment : assignment.Proper) (hkeys : ∀ key ∈ keys, IsFolded key)
    (hkeeps : ∀ before after, keys = before ++ after → before ≠ [] → after ≠ [] → assignment.KeepsTable before) :
    (assignment.path ≠ Value.way keys ∧ Value.find? (apply old assignment) keys = Value.find? old keys) ∨
      (assignment.path = Value.way keys ∧
        Value.find? (apply old assignment) keys =
          some (Value.overlay (Value.find? old keys) assignment.value)) ∨
      ∃ step rest, assignment.path = Value.way keys ++ step :: rest ∧
        Value.find? (apply old assignment) keys =
          some (Value.setAt assignment.value (step :: rest) (Value.find? old keys)) := by
  have hway : ∀ rest, assignment.path = Value.way keys ++ rest → Value.find? (apply old assignment) keys =
      some (Value.setAt assignment.value rest (Value.find? old keys)) := by
    intro rest hrest
    rw [apply, hrest, Value.find?_setAt_way _ hkeys]
  obtain hapart | ⟨rest, hrest⟩ | ⟨before, after, rfl, hafter, hpath⟩ := apart_or assignment.path keys
  case inl =>
    exact .inl ⟨hapart.ne_way, Value.find?_setAt_of_apart _ hapart hassignment.folded old⟩
  case inr.inl =>
    cases rest with
    | nil => exact .inr (.inl ⟨by simpa using hrest, by rw [hway [] hrest, Value.setAt]⟩)
    | cons step rest => exact .inr (.inr ⟨step, rest, hrest, hway _ hrest⟩)
  case inr.inr =>
    obtain ⟨first, tail, hstarts⟩ := hassignment.starts
    have hbefore : before ≠ [] := by
      rintro rfl
      obtain hpath | ⟨place, rest, hpath⟩ := hpath <;> simp [hstarts, Value.way] at hpath
    obtain ⟨hblank, hlist⟩ := hkeeps before after rfl hbefore hafter
    obtain hpath | ⟨place, rest, hpath⟩ := hpath
    · refine .inl ⟨?_, ?_⟩
      · rw [hpath]
        simpa [Value.way] using hafter
      · have hfolded : ∀ key ∈ before, IsFolded key := fun key h => hkeys key (List.mem_append_left _ h)
        exact find?_apply_blank hpath (hblank hpath) hfolded hafter old
    · exact absurd hpath (hlist place rest)

/-- Where assignments keep the table under some keys and all the tables on the way, there is a table under the
keys, or nothing. -/
theorem find?_applyAll_table {assignments : List Assignment} {keys : List String} {old : Option Value}
    (hassignments : ∀ assignment ∈ assignments, assignment.Proper) (hkeys : ∀ key ∈ keys, IsFolded key)
    (hkeeps : ∀ assignment ∈ assignments, ∀ before after,
      keys = before ++ after → before ≠ [] → assignment.KeepsTable before)
    (hne : keys ≠ []) (hold : ∀ value, Value.find? old keys = some value → ∃ origin entries, value = .table origin entries) :
    ∀ value, Value.find? (applyAll old assignments) keys = some value →
      ∃ origin entries, value = .table origin entries := by
  induction assignments generalizing old with
  | nil => exact hold
  | cons assignment rest ih =>
    refine ih (fun a h => hassignments a (.tail _ h)) (fun a h => hkeeps a (.tail _ h)) ?_
    have hkeep := hkeeps assignment (.head _)
    obtain ⟨-, hsame⟩ | ⟨hpath, hlaid⟩ | ⟨step, tail, hpath, hset⟩ :=
      find?_apply_cases old (hassignments _ (.head _)) hkeys fun before after h hbefore _ =>
        hkeep before after h hbefore
    case inl => exact hsame ▸ hold
    case inr.inl =>
      have hblank := (hkeep keys [] (List.append_nil _).symm hne).1 hpath
      intro value hvalue
      rw [hlaid, overlay_blank hblank] at hvalue
      obtain rfl := Option.some.inj hvalue
      cases hfound : Value.find? old keys with
      | none => exact ⟨none, [], rfl⟩
      | some found => exact hold found hfound
    case inr.inr =>
      cases step with
      | child key =>
        intro value hvalue
        rw [hset, Value.setAt_child] at hvalue
        obtain rfl := Option.some.inj hvalue
        exact Value.setChild_eq_table ..
      | index place => exact absurd hpath ((hkeep keys [] (List.append_nil _).symm hne).2 place tail)

/-- The value that an assignment gives to some keys: a value at their way that is more than a table without
entries. -/
def gives? (keys : List String) (assignment : Assignment) : Option Value :=
  if assignment.path = Value.way keys && !assignment.value.isBlank then some assignment.value else none

/-- The last value that some assignments give to some keys. -/
def lastGiven? (assignments : List Assignment) (keys : List String) : Option Value :=
  assignments.reverse.findSome? (gives? keys)

/-- What is given last is given by the last assignments that give anything. -/
theorem lastGiven?_append (first second : List Assignment) (keys : List String) :
    lastGiven? (first ++ second) keys = (lastGiven? second keys).or (lastGiven? first keys) := by
  rw [lastGiven?, List.reverse_append, List.findSome?_append]
  rfl

/-- The first of some assignments gives what the others do not. -/
theorem lastGiven?_cons (assignment : Assignment) (rest : List Assignment) (keys : List String) :
    lastGiven? (assignment :: rest) keys = (lastGiven? rest keys).or (gives? keys assignment) := by
  rw [← List.singleton_append, lastGiven?_append]
  simp [lastGiven?]

/-- Whether what stands under some keys is the value given to them, or else a table or a list. -/
def Shows (found given : Option Value) : Prop :=
  found = given ∨ ∃ value, found = some value ∧ ∀ origin scalar, value ≠ .leaf origin scalar

/-- Where assignments keep all the tables that some keys lead through, what stands under the keys is the last
value given to them, or a table or a list. -/
theorem shows_applyAll {assignments : List Assignment} {keys : List String}
    (hassignments : ∀ assignment ∈ assignments, assignment.Proper) (hkeys : ∀ key ∈ keys, IsFolded key)
    (hkeeps : ∀ assignment ∈ assignments, ∀ before after,
      keys = before ++ after → before ≠ [] → after ≠ [] → assignment.KeepsTable before)
    {old given : Option Value} (hold : Shows (Value.find? old keys) given) :
    Shows (Value.find? (applyAll old assignments) keys) ((lastGiven? assignments keys).or given) := by
  induction assignments generalizing old given with
  | nil => exact hold
  | cons assignment rest ih =>
    have hassignment := hassignments assignment (.head _)
    have hstep : Shows (Value.find? (apply old assignment) keys) ((gives? keys assignment).or given) := by
      obtain ⟨hpath, hsame⟩ | ⟨hpath, hlaid⟩ | ⟨step, tail, hpath, hset⟩ :=
        find?_apply_cases old hassignment hkeys (hkeeps _ (.head _))
      case inl => simpa [gives?, hpath, hsame] using hold
      case inr.inl =>
        by_cases hblank : assignment.value.isBlank
        · rw [hlaid, overlay_blank hblank, gives?, hblank, Bool.not_true, Bool.and_false]
          cases hfound : Value.find? old keys with
          | none => exact .inr ⟨.empty, rfl, fun _ _ => Value.noConfusion⟩
          | some found => exact hfound ▸ hold
        · have hgives : gives? keys assignment = some assignment.value := by simp [gives?, hpath, hblank]
          refine .inl ?_
          rw [hlaid, hgives, Option.some_or]
          cases hvalue : assignment.value with
          | table origin entries =>
            obtain rfl := hassignment.whole keys hpath origin entries hvalue
            simp [hvalue, Value.isBlank] at hblank
          | _ => rfl
      case inr.inr => exact .inr ⟨_, hset, Value.setAt_cons_ne_leaf _ _ _ _⟩
    rw [lastGiven?_cons, Option.or_assoc]
    exact ih (fun a h => hassignments a (.tail _ h)) (fun a h => hkeeps a (.tail _ h)) hstep

end Assignment

end FlightPlanner.Config
