import FlightPlanner.Config.Value
import FlightPlanner.Proofs.Config.Paths
import Mathlib.Data.List.Basic

/-!
# Sources as lists of assignments

A source of values comes down to assignments, carried out one after the other: each sets one value, which is laid
over nothing below it, at one path. What stands under some keys is changed by an assignment to a path that leads
there, to what is below, or through a place that is taken by something else than a table, and by no other.
-/

namespace FlightPlanner.Config

namespace Value

/-- What a key leads to in a value is nothing where there is no value. -/
theorem child?_getD_empty (old : Option Value) (key : String) :
    (old.getD empty).child? key = old.bind (·.child? key) := by
  cases old <;> rfl

/-- Setting a key leaves the others as they were. -/
theorem child?_setChild_other (below value : Value) {key name : String} (h : name ≠ key) :
    (below.setChild key value).child? name = below.child? name := by
  cases below with
  | table origin entries => exact child?_setChild_of_ne origin entries value h
  | _ => simp [setChild, child?, Keyed.lookup_cons, h]

/-- Of two values set at a key the second one stays. -/
theorem setChild_setChild (below first second : Value) (key : String) :
    (below.setChild key first).setChild key second = below.setChild key second := by
  cases below with
  | table origin entries => simp [setChild, Keyed.set_set]
  | _ => simp [setChild, Keyed.set]

/-- A key is set in a table. -/
theorem setChild_eq_table (below value : Value) (key : String) :
    ∃ origin entries, below.setChild key value = .table origin entries := by
  cases below <;> exact ⟨_, _, rfl⟩

/-- What stands under some keys, each inside what the one before it leads to. -/
def find? : Option Value → List String → Option Value
  | old, [] => old
  | old, key :: keys => find? (old.bind (·.child? key)) keys

/-- Behind a key the others lead on from what it leads to. -/
theorem find?_cons (value : Value) (key : String) (keys : List String) :
    find? (some value) (key :: keys) = find? (value.child? key) keys := rfl

/-- Where there is nothing, nothing stands under any keys. -/
theorem find?_none (keys : List String) : find? none keys = none := by
  induction keys with
  | nil => rfl
  | cons key keys ih => exact ih

/-- Keys behind others lead on from where these lead. -/
theorem find?_append (old : Option Value) (keys more : List String) :
    find? old (keys ++ more) = find? (find? old keys) more := by
  induction keys generalizing old with
  | nil => rfl
  | cons key keys ih => exact ih (old.bind (·.child? key))

/-- Nothing stands in a table without entries. -/
theorem find?_empty {keys : List String} (h : keys ≠ []) : find? (some empty) keys = none := by
  match keys with
  | key :: keys => exact find?_none keys

/-- The way of some keys, each of which leads into a table. -/
def way (keys : List String) : List Step := keys.map .child

/-- Different keys have different ways. -/
theorem way_injective : Function.Injective way := List.map_injective_iff.2 fun _ _ h => Step.child.inj h

/-- A value set behind a key is set in what the key leads to. -/
theorem setAt_child (value : Value) (key : String) (path : List Step) (old : Option Value) :
    setAt value (.child key :: path) old =
      (old.getD empty).setChild (foldKey key) (setAt value path (old.bind (·.child? (foldKey key)))) := by
  rw [setAt, child?_getD_empty]

/-- What a key leads to once a value is set behind it. -/
theorem child?_setAt_child {key : String} (hkey : IsFolded key) (value : Value) (path : List Step)
    (old : Option Value) :
    (setAt value (.child key :: path) old).child? key = some (setAt value path (old.bind (·.child? key))) := by
  rw [setAt_child, hkey, child?_setChild]

/-- What a key leads to is the same once a value is set behind another. -/
theorem child?_setAt_child_other {key name : String} (hkey : IsFolded key) (h : name ≠ key) (value : Value)
    (path : List Step) (old : Option Value) :
    (setAt value (.child key :: path) old).child? name = old.bind (·.child? name) := by
  rw [setAt_child, hkey, child?_setChild_other _ _ h, child?_getD_empty]

/-- A value set behind a step is set in a table or a list. -/
theorem setAt_cons_ne_leaf (value : Value) (step : Step) (path : List Step) (old : Option Value)
    (origin : Option Origin) (scalar : Scalar) : setAt value (step :: path) old ≠ .leaf origin scalar := by
  cases step with
  | child key =>
    obtain ⟨_, _, h⟩ := setChild_eq_table (old.getD empty)
      (setAt value path (old.bind (·.child? (foldKey key)))) (foldKey key)
    rw [setAt_child, h]
    exact Value.noConfusion
  | index place =>
    rw [setAt]
    exact Value.noConfusion

/-- A value set behind the way of some keys is set in what stands under them. -/
theorem find?_setAt_way (value : Value) {keys : List String} (hkeys : ∀ key ∈ keys, IsFolded key)
    (path : List Step) (old : Option Value) :
    find? (some (setAt value (way keys ++ path) old)) keys = some (setAt value path (find? old keys)) := by
  induction keys generalizing old with
  | nil => rfl
  | cons key keys ih =>
    have hway : way (key :: keys) ++ path = .child key :: (way keys ++ path) := rfl
    rw [hway, find?_cons, child?_setAt_child (hkeys key (.head _)), ih (fun key h => hkeys key (.tail _ h))]
    rfl

end Value

/-- A path that parts from the way of some keys at a key of its own. -/
inductive Apart : List Step → List String → Prop where
  /-- It does at the first key. -/
  | head {key name : String} {path : List Step} {keys : List String} (differ : key ≠ name) :
      Apart (.child key :: path) (name :: keys)
  /-- It does behind the first key. -/
  | tail {key : String} {path : List Step} {keys : List String} (apart : Apart path keys) :
      Apart (.child key :: path) (key :: keys)

/-- A path that parts from the way of some keys is another. -/
theorem Apart.ne_way {path : List Step} {keys : List String} (h : Apart path keys) : path ≠ Value.way keys := by
  induction h with
  | head differ => simp [Value.way, differ]
  | tail _ ih => simpa [Value.way] using ih

/-- What stands under some keys stays there when a value is set at a path that parts from their way. -/
theorem Value.find?_setAt_of_apart (value : Value) {path : List Step} {keys : List String}
    (hapart : Apart path keys) (hpath : FoldedPath path) (old : Option Value) :
    find? (some (setAt value path old)) keys = find? old keys := by
  induction hapart generalizing old with
  | @head key name path keys differ =>
    rw [find?_cons, child?_setAt_child_other (hpath key (.head _)) differ.symm]
    rfl
  | @tail key path keys apart ih =>
    have htail : FoldedPath path := fun name h => hpath name (.tail _ h)
    rw [find?_cons, child?_setAt_child (hpath key (.head _)), ih htail]
    rfl

/-- How a path relates to the way of some keys: it parts from it, or it goes all the way, or it ends or enters a
list before. -/
theorem apart_or (path : List Step) (keys : List String) :
    Apart path keys ∨ (∃ rest, path = Value.way keys ++ rest) ∨
      ∃ before after, keys = before ++ after ∧ after ≠ [] ∧
        (path = Value.way before ∨ ∃ place rest, path = Value.way before ++ .index place :: rest) := by
  induction keys generalizing path with
  | nil => exact .inr (.inl ⟨path, rfl⟩)
  | cons name keys ih =>
    match path with
    | [] => exact .inr (.inr ⟨[], name :: keys, rfl, by simp, .inl rfl⟩)
    | .index place :: rest => exact .inr (.inr ⟨[], name :: keys, rfl, by simp, .inr ⟨place, rest, rfl⟩⟩)
    | .child key :: path =>
      by_cases h : key = name
      · subst h
        obtain hapart | ⟨rest, rfl⟩ | ⟨before, after, rfl, hafter, hpath⟩ := ih path
        · exact .inl (.tail hapart)
        · exact .inr (.inl ⟨rest, rfl⟩)
        · refine .inr (.inr ⟨key :: before, after, rfl, hafter, ?_⟩)
          obtain rfl | ⟨place, rest, rfl⟩ := hpath
          · exact .inl rfl
          · exact .inr ⟨place, rest, rfl⟩
      · exact .inl (.head h)

/-- A value that a source sets, and the path at which it does. -/
structure Assignment where
  /-- The path. -/
  path : List Step
  /-- The value. -/
  value : Value

namespace Assignment

/-- An assignment below a key. -/
def below (key : String) (assignment : Assignment) : Assignment :=
  { assignment with path := .child key :: assignment.path }

/-- A value with an assignment carried out. -/
def apply (old : Option Value) (assignment : Assignment) : Option Value :=
  some (Value.setAt assignment.value assignment.path old)

/-- A value with some assignments carried out one after the other. -/
def applyAll (old : Option Value) (assignments : List Assignment) : Option Value := assignments.foldl apply old

/-- Assignments after others are carried out on what these make. -/
theorem applyAll_append (old : Option Value) (first second : List Assignment) :
    applyAll old (first ++ second) = applyAll (applyAll old first) second := List.foldl_append

/-- Assignments below a key, of which there are some, set in a table what they make of what stands there. -/
theorem applyAll_below {key : String} (hkey : IsFolded key) {assignments : List Assignment}
    (hne : assignments ≠ []) (old : Option Value) {value : Value}
    (h : applyAll (old.bind (·.child? key)) assignments = some value) :
    applyAll old (assignments.map (below key)) = some ((old.getD .empty).setChild key value) := by
  have hfirst : ∀ (assignment : Assignment) (old : Option Value),
      apply old (assignment.below key) = some ((old.getD .empty).setChild key
        (Value.setAt assignment.value assignment.path (old.bind (·.child? key)))) := by
    intro assignment old
    rw [apply, below, Value.setAt_child, hkey]
  induction assignments generalizing old with
  | nil => contradiction
  | cons assignment rest ih =>
    change applyAll (apply old (assignment.below key)) (rest.map (below key)) = _
    by_cases hrest : rest = []
    · subst hrest
      obtain rfl := Option.some.inj h
      exact hfirst assignment old
    · rw [hfirst, ih hrest]
      · rw [Option.getD_some, Value.setChild_setChild]
      · rw [Option.bind_some, Value.child?_setChild]
        exact h

end Assignment

namespace Value

mutual

/-- The assignments that a value comes down to when it is laid over another. A table sets what its entries set,
and only itself where it has none. -/
def assignments : Value → List Assignment
  | .table origin entries =>
    if entries.isEmpty then [⟨[], .table origin []⟩] else entryAssignments entries
  | .list origin items => [⟨[], .list origin items⟩]
  | .leaf origin scalar => [⟨[], .leaf origin scalar⟩]

/-- The assignments that the entries of a table come down to. -/
def entryAssignments : List (String × Value) → List Assignment
  | [] => []
  | (key, value) :: rest => (assignments value).map (.below (foldKey key)) ++ entryAssignments rest

end

mutual

/-- Every value comes down to some assignments. -/
theorem assignments_ne_nil (value : Value) : value.assignments ≠ [] := by
  cases value with
  | table origin entries =>
    rw [assignments]
    split
    · simp
    · next h => exact entryAssignments_ne_nil entries (by simpa using h)
  | list origin items => simp [assignments]
  | leaf origin scalar => simp [assignments]

/-- Entries come down to some assignments, if there are any. -/
theorem entryAssignments_ne_nil (entries : List (String × Value)) (h : entries ≠ []) :
    entryAssignments entries ≠ [] := by
  match entries with
  | (key, value) :: rest =>
    have hvalue := assignments_ne_nil value
    simp [entryAssignments, hvalue]

end

mutual

/-- A value laid over another does what its assignments do. -/
theorem applyAll_assignments (value : Value) (old : Option Value) :
    Assignment.applyAll old value.assignments = some (overlay old value) := by
  cases value with
  | table origin entries =>
    rw [assignments, overlay]
    split
    · next h =>
      obtain rfl := List.isEmpty_iff.1 h
      rfl
    · next h => exact applyAll_entryAssignments entries (by simpa using h) old
  | list origin items => rfl
  | leaf origin scalar => rfl

/-- Entries laid over a table do what their assignments do. -/
theorem applyAll_entryAssignments (entries : List (String × Value)) (h : entries ≠ []) (old : Option Value) :
    Assignment.applyAll old (entryAssignments entries) = some (overlayEntries (old.getD empty) entries) := by
  match entries with
  | (key, value) :: rest =>
    have hvalue := applyAll_assignments value (old.bind (·.child? (foldKey key)))
    have hfirst := Assignment.applyAll_below (isFolded_foldKey key) value.assignments_ne_nil old hvalue
    rw [entryAssignments, Assignment.applyAll_append, hfirst, overlayEntries, child?_getD_empty]
    by_cases hrest : rest = []
    · subst hrest
      rfl
    · exact applyAll_entryAssignments rest hrest (some _)

end

/-- The assignments that a value comes down to when it is set at a path. One that ends in a list is set as it
is. -/
def assignmentsAt (value : Value) : List Step → List Assignment
  | [] => assignments value
  | .child key :: path => (assignmentsAt value path).map (.below (foldKey key))
  | .index place :: path => [⟨.index place :: path, value⟩]

/-- A value set at a path comes down to some assignments. -/
theorem assignmentsAt_ne_nil (value : Value) (path : List Step) : value.assignmentsAt path ≠ [] := by
  induction path with
  | nil => exact value.assignments_ne_nil
  | cons step path ih => cases step <;> simp [assignmentsAt, ih]

/-- A value set at a path does what its assignments there do. -/
theorem applyAll_assignmentsAt (value : Value) (path : List Step) (old : Option Value) :
    Assignment.applyAll old (value.assignmentsAt path) = some (setAt value path old) := by
  induction path generalizing old with
  | nil =>
    rw [setAt]
    exact value.applyAll_assignments old
  | cons step path ih =>
    cases step with
    | child key =>
      rw [setAt_child]
      exact Assignment.applyAll_below (isFolded_foldKey key) (value.assignmentsAt_ne_nil path) old (ih _)
    | index place => rfl

/-- A value without parts that is set at a path with its keys in small letters comes down to itself there. -/
theorem assignmentsAt_leaf (origin : Option Origin) (scalar : Scalar) {path : List Step} (hpath : FoldedPath path) :
    (leaf origin scalar).assignmentsAt path = [⟨path, leaf origin scalar⟩] := by
  induction path with
  | nil => rfl
  | cons step path ih =>
    cases step with
    | child key =>
      have hkey : foldKey key = key := hpath key (.head _)
      rw [assignmentsAt, ih fun name hname => hpath name (.tail _ hname), hkey]
      rfl
    | index place => rfl

end Value

/-- The assignments that a source of values comes down to. -/
def assignmentsOf (source : Entries) : List Assignment :=
  source.flatMap fun (key, value) => value.assignmentsAt (pathOf key)

/-- A source laid over a value does what its assignments do. -/
theorem applyAll_assignmentsOf (source : Entries) (root : Value) :
    Assignment.applyAll (some root) (assignmentsOf source) = some (root.add source) := by
  induction source generalizing root with
  | nil => rfl
  | cons entry rest ih =>
    obtain ⟨key, value⟩ := entry
    have hfirst := value.applyAll_assignmentsAt (pathOf key) (some root)
    rw [assignmentsOf, List.flatMap_cons, Assignment.applyAll_append, hfirst]
    exact ih _

/-- Sources laid over each other do what the assignments of all of them do, one source after the other. -/
theorem applyAll_flatMap_assignmentsOf (sources : List Entries) :
    Assignment.applyAll (some .empty) (sources.flatMap assignmentsOf) = some (.ofSources sources) := by
  have h : ∀ root, Assignment.applyAll (some root) (sources.flatMap assignmentsOf) =
      some (sources.foldl Value.add root) := by
    intro root
    induction sources generalizing root with
    | nil => rfl
    | cons source rest ih =>
      rw [List.flatMap_cons, Assignment.applyAll_append, applyAll_assignmentsOf, ih]
      rfl
  exact h .empty

end FlightPlanner.Config
