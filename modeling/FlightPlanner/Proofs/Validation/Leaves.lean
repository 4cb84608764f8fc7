import FlightPlanner.Validation.Range
import Mathlib.Data.List.Nodup
import Mathlib.Logic.Basic

/-!
# The complaints of a tree, one by one

A tree of complaints is read off as its leaves: the ways to the complaints with the complaints themselves. This
module says what every way of putting trees together does to the leaves, and that it never leaves a branch
without parts or takes one step to two parts. In a tree of that kind no two leaves stand at the end of one way.
-/

namespace FlightPlanner.Validation

/-- The steps from a value into those of its parts that are complained about. -/
def Forest.steps (parts : Forest) : List Step := parts.map Prod.fst

mutual

/-- Every branch has parts, and no two of them under one step. -/
def Tree.IsProper : Tree → Prop
  | .leaf _ => True
  | .branch parts => parts ≠ [] ∧ (Forest.steps parts).Nodup ∧ BranchesProper parts

/-- The same of the trees of some parts. -/
def BranchesProper : List (Step × Tree) → Prop
  | [] => True
  | (_, tree) :: rest => tree.IsProper ∧ BranchesProper rest

end

/-- Parts whose trees are proper and that are under different steps. -/
structure Forest.IsProper (parts : Forest) : Prop where
  /-- No step leads to two of them. -/
  nodup_steps : parts.steps.Nodup
  /-- Every tree among them is proper. -/
  branches : BranchesProper parts

/-- The trees of appended parts are those of the parts. -/
theorem branchesProper_append {parts others : Forest} :
    BranchesProper (parts ++ others) ↔ BranchesProper parts ∧ BranchesProper others := by
  induction parts with
  | nil => simp [BranchesProper]
  | cons part rest ih => simp [BranchesProper, ih, and_assoc]

/-- The leaves of appended parts are those of the parts. -/
@[simp] theorem leavesOfParts_append (parts others : Forest) :
    leavesOfParts (parts ++ others) = leavesOfParts parts ++ leavesOfParts others := by
  induction parts with
  | nil => rfl
  | cons part rest ih => simp [leavesOfParts, ih]

/-- Going under a step puts that step in front of every way. -/
theorem mem_leavesOfParts_under {step : Step} {parts : Forest} {way : List Step} {c : Complaint} :
    (way, c) ∈ leavesOfParts (Forest.under step parts) ↔
      ∃ rest, way = step :: rest ∧ (rest, c) ∈ leavesOfParts parts := by
  cases parts with
  | nil => simp [Forest.under, leavesOfParts]
  | cons part others =>
    simp only [Forest.under, List.isEmpty_cons, Bool.false_eq_true, if_false, leavesOfParts, Tree.leaves,
      List.append_nil, List.mem_map, Prod.mk.injEq, Prod.exists]
    constructor
    · rintro ⟨rest, _, hleaf, rfl, rfl⟩
      exact ⟨rest, rfl, hleaf⟩
    · rintro ⟨rest, rfl, hleaf⟩
      exact ⟨rest, c, hleaf, rfl, rfl⟩

/-- Under a step there is at most that step. -/
theorem steps_under_sublist (step : Step) (parts : Forest) : (Forest.under step parts).steps.Sublist [step] := by
  cases parts <;> simp [Forest.under, Forest.steps]

/-- Proper parts stay proper under a step: where there are none, the step is left out. -/
theorem Forest.IsProper.under {parts : Forest} (step : Step) (h : parts.IsProper) :
    BranchesProper (Forest.under step parts) := by
  cases parts with
  | nil => trivial
  | cons part rest => exact ⟨⟨List.cons_ne_nil _ _, h.nodup_steps, h.branches⟩, trivial⟩

/-- The leaf of a field is there exactly when its value breaks its range; it carries the declared bounds and the
value. -/
@[simp] theorem mem_leavesOfParts_check {α : Type} [LT α] [DecidableRel (LT.lt (α := α))] {amount : α → Amount}
    {range : Range α} {name : String} {value : α} {way : List Step} {c : Complaint} :
    (way, c) ∈ leavesOfParts (range.check amount name value) ↔
      range.isBroken value = true ∧ way = [.field name] ∧
        c = ⟨range.least.map amount, range.greatest.map amount, amount value⟩ := by
  unfold Range.check
  split <;> simp_all [leavesOfParts, Tree.leaves]

/-- A field is complained about under its own name. -/
theorem steps_check_sublist {α : Type} [LT α] [DecidableRel (LT.lt (α := α))] (amount : α → Amount)
    (range : Range α) (name : String) (value : α) :
    (range.check amount name value).steps.Sublist [.field name] := by
  unfold Range.check
  split <;> simp [Forest.steps]

/-- The complaint about a field is a leaf. -/
theorem branchesProper_check {α : Type} [LT α] [DecidableRel (LT.lt (α := α))] (amount : α → Amount)
    (range : Range α) (name : String) (value : α) : BranchesProper (range.check amount name value) := by
  unfold Range.check
  split <;> simp [BranchesProper, Tree.IsProper]

/-- The leaves of a list are those of its elements, under the places that these have when the first one is at
`start`. -/
theorem mem_leavesOfParts_ofListFrom {α : Type} {check : α → Forest} {start : Nat} {elements : List α}
    {way : List Step} {c : Complaint} :
    (way, c) ∈ leavesOfParts (Forest.ofListFrom check start elements) ↔
      ∃ i a rest, elements[i]? = some a ∧ way = .index (start + i) :: rest ∧
        (rest, c) ∈ leavesOfParts (check a) := by
  induction elements generalizing start with
  | nil => simp [Forest.ofListFrom, leavesOfParts]
  | cons first others ih =>
    rw [Forest.ofListFrom, leavesOfParts_append, List.mem_append, mem_leavesOfParts_under, ih]
    constructor
    · rintro (⟨rest, rfl, hleaf⟩ | ⟨i, a, rest, ha, rfl, hleaf⟩)
      · exact ⟨0, first, rest, rfl, rfl, hleaf⟩
      · exact ⟨i + 1, a, rest, ha, by rw [Nat.add_right_comm, Nat.add_assoc], hleaf⟩
    · rintro ⟨i, a, rest, ha, rfl, hleaf⟩
      cases i with
      | zero =>
        obtain rfl : first = a := Option.some.inj ha
        exact .inl ⟨rest, rfl, hleaf⟩
      | succ i => exact .inr ⟨i, a, rest, ha, by rw [Nat.add_right_comm, Nat.add_assoc], hleaf⟩

/-- The leaves of a list are those of its elements, under their places. -/
theorem mem_leavesOfParts_ofList {α : Type} {check : α → Forest} {elements : List α} {way : List Step}
    {c : Complaint} :
    (way, c) ∈ leavesOfParts (Forest.ofList check elements) ↔
      ∃ i a rest, elements[i]? = some a ∧ way = .index i :: rest ∧ (rest, c) ∈ leavesOfParts (check a) := by
  simp only [Forest.ofList, mem_leavesOfParts_ofListFrom, Nat.zero_add]

/-- The elements of a list are complained about at places from `start` on, in their order. -/
theorem steps_ofListFrom_sublist {α : Type} (check : α → Forest) (start : Nat) (elements : List α) :
    (Forest.ofListFrom check start elements).steps.Sublist ((List.range' start elements.length).map .index) := by
  induction elements generalizing start with
  | nil => exact List.Sublist.refl _
  | cons first others ih =>
    rw [Forest.ofListFrom, Forest.steps, List.map_append, List.length_cons, List.range'_succ]
    exact (steps_under_sublist _ _).append (ih (start + 1))

/-- A list whose elements have proper complaints has proper complaints. -/
theorem Forest.IsProper.ofList {α : Type} {check : α → Forest} (h : ∀ a, (check a).IsProper)
    (elements : List α) : (Forest.ofList check elements).IsProper := by
  constructor
  · apply (steps_ofListFrom_sublist check 0 elements).nodup
    exact List.Nodup.map (fun _ _ => Step.index.inj) List.nodup_range'
  · rw [Forest.ofList]
    generalize 0 = start
    induction elements generalizing start with
    | nil => trivial
    | cons first others ih => exact branchesProper_append.mpr ⟨(h first).under _, ih _⟩

/-- A part that may be absent has the leaves that it has when it is there. -/
theorem mem_leavesOfParts_ofOption {α : Type} {check : α → Forest} {part : Option α} {way : List Step}
    {c : Complaint} :
    (way, c) ∈ leavesOfParts (Forest.ofOption check part) ↔ ∃ a ∈ part, (way, c) ∈ leavesOfParts (check a) := by
  cases part <;> simp [Forest.ofOption, leavesOfParts]

/-- A part that may be absent has the steps that it has when it is there. -/
theorem steps_ofOption_sublist {α : Type} {check : α → Forest} {steps : List Step}
    (h : ∀ a, (check a).steps.Sublist steps) (part : Option α) : (Forest.ofOption check part).steps.Sublist steps := by
  cases part with
  | none => exact List.nil_sublist _
  | some a => exact h a

/-- A part that may be absent has proper trees if it has them when it is there. -/
theorem branchesProper_ofOption {α : Type} {check : α → Forest} (h : ∀ a, BranchesProper (check a))
    (part : Option α) : BranchesProper (Forest.ofOption check part) := by
  cases part with
  | none => trivial
  | some a => exact h a

/-- A part that may be absent has proper complaints if it has them when it is there. -/
theorem Forest.IsProper.ofOption {α : Type} {check : α → Forest} (h : ∀ a, (check a).IsProper)
    (part : Option α) : (Forest.ofOption check part).IsProper := by
  cases part with
  | none => exact ⟨List.nodup_nil, trivial⟩
  | some a => exact h a

mutual

/-- A proper tree has a leaf. -/
theorem Tree.leaves_ne_nil : (tree : Tree) → tree.IsProper → tree.leaves ≠ []
  | .leaf _, _ => List.cons_ne_nil _ _
  | .branch parts, ⟨hparts, _, hbranches⟩ => leavesOfParts_ne_nil parts hparts hbranches

/-- Parts whose trees are proper have a leaf, if there are any. -/
theorem leavesOfParts_ne_nil : (parts : List (Step × Tree)) → parts ≠ [] → BranchesProper parts →
    leavesOfParts parts ≠ []
  | [], hparts, _ => absurd rfl hparts
  | (_, tree) :: _, _, ⟨htree, _⟩ => by
    exact List.append_ne_nil_of_left_ne_nil (mt List.map_eq_nil_iff.mp (tree.leaves_ne_nil htree)) _

end

/-- Proper complaints have a leaf exactly when there are any. -/
theorem Forest.IsProper.leaves_ne_nil_iff {parts : Forest} (h : parts.IsProper) :
    leavesOfParts parts ≠ [] ↔ parts ≠ [] := by
  constructor
  · rintro hleaves rfl
    exact hleaves rfl
  · intro hparts
    exact leavesOfParts_ne_nil parts hparts h.branches

/-- Every way starts with one of the steps. -/
theorem exists_step_of_mem_leavesOfParts {parts : Forest} {way : List Step} {c : Complaint}
    (h : (way, c) ∈ leavesOfParts parts) : ∃ step ∈ parts.steps, ∃ rest, way = step :: rest := by
  induction parts with
  | nil => cases h
  | cons part others ih =>
    obtain ⟨step, tree⟩ := part
    rcases List.mem_append.mp h with hhere | hthere
    · obtain ⟨⟨rest, c'⟩, -, heq⟩ := List.mem_map.mp hhere
      exact ⟨step, List.mem_cons_self, rest, (Prod.mk.inj heq).1.symm⟩
    · obtain ⟨step', hstep', rest, hway⟩ := ih hthere
      exact ⟨step', List.mem_cons_of_mem _ hstep', rest, hway⟩

mutual

/-- In a proper tree one way leads to one leaf. -/
theorem Tree.nodup_ways : (tree : Tree) → tree.IsProper → (tree.leaves.map Prod.fst).Nodup
  | .leaf _, _ => List.nodup_singleton _
  | .branch parts, ⟨_, hsteps, hbranches⟩ => nodup_waysOfParts parts hsteps hbranches

/-- In proper parts one way leads to one leaf. -/
theorem nodup_waysOfParts : (parts : List (Step × Tree)) → (Forest.steps parts).Nodup →
    BranchesProper parts → ((leavesOfParts parts).map Prod.fst).Nodup
  | [], _, _ => List.nodup_nil
  | (step, tree) :: rest, hsteps, ⟨htree, hrest⟩ => by
    obtain ⟨hfresh, hsteps⟩ := List.nodup_cons.mp hsteps
    rw [leavesOfParts, List.map_append, List.map_map]
    refine List.Nodup.append ?_ (nodup_waysOfParts rest hsteps hrest) ?_
    · have hways := (tree.nodup_ways htree).map (List.cons_injective (a := step))
      rwa [List.map_map] at hways
    · intro way hhere hthere
      obtain ⟨⟨w, c⟩, -, rfl⟩ := List.mem_map.mp hhere
      obtain ⟨⟨w', c'⟩, hleaf, rfl⟩ := List.mem_map.mp hthere
      obtain ⟨step', hstep', rest', heq⟩ := exists_step_of_mem_leavesOfParts hleaf
      obtain rfl : step = step' := (List.cons.inj heq).1
      exact hfresh hstep'

end

end FlightPlanner.Validation
