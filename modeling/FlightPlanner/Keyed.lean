/-!
# Values by key

Lists of keys with their values, in the order in which the keys were first set. Setting a key changes what it
leads to, and nothing else.
-/

namespace FlightPlanner

/-- Values by key. -/
abbrev Keyed (α : Type) := List (String × α)

namespace Keyed

/-- The values with a key set, in its place where it is there already. -/
def set (key : String) (value : α) : Keyed α → Keyed α
  | [] => [(key, value)]
  | (name, old) :: rest =>
    if name = key then (key, value) :: rest else (name, old) :: set key value rest

/-- The values without a key. -/
def erase (key : String) (entries : Keyed α) : Keyed α := entries.filter fun (name, _) => name ≠ key

/-- What the first of some keys leads to, and what the others do. -/
theorem lookup_cons (first name : String) (value : α) (rest : Keyed α) :
    List.lookup name ((first, value) :: rest) = if name = first then some value else List.lookup name rest := by
  by_cases h : name = first
  · simp [h]
  · have hb : (name == first) = false := beq_false_of_ne h
    simp [List.lookup_cons, hb, h]

/-- A key that was set leads to its value, and every other key to what it led to before. -/
theorem lookup_set (key name : String) (value : α) (entries : Keyed α) :
    List.lookup name (set key value entries) = if name = key then some value else List.lookup name entries := by
  induction entries with
  | nil => simp [set, lookup_cons]
  | cons entry rest ih =>
    obtain ⟨first, old⟩ := entry
    by_cases hf : first = key
    · subst hf
      simp only [set, if_true, lookup_cons]
      split <;> rfl
    · simp only [set, hf, if_false, lookup_cons, ih]
      by_cases h : name = first
      · subst h
        simp [hf]
      · simp [h]

/-- Of two values set at a key the second one stays. -/
theorem set_set (key : String) (first second : α) (entries : Keyed α) :
    set key second (set key first entries) = set key second entries := by
  induction entries with
  | nil => simp [set]
  | cons entry rest ih =>
    obtain ⟨name, old⟩ := entry
    by_cases h : name = key <;> simp [set, h, ih]

/-- An entry after a key was set is that of the key, or was there before. -/
theorem mem_set {key : String} {value : α} {entries : Keyed α} {entry : String × α}
    (h : entry ∈ set key value entries) : entry = (key, value) ∨ entry ∈ entries := by
  induction entries with
  | nil => exact .inl (List.mem_singleton.1 h)
  | cons first rest ih =>
    obtain ⟨name, old⟩ := first
    rw [set] at h
    split at h
    · obtain h | h := List.mem_cons.1 h
      · exact .inl h
      · exact .inr (.tail _ h)
    · obtain h | h := List.mem_cons.1 h
      · exact .inr (h ▸ .head _)
      · exact (ih h).imp_right (.tail _)

/-- Without a key, every other key leads to what it led to before. -/
theorem lookup_erase (key name : String) (entries : Keyed α) :
    List.lookup name (erase key entries) = if name = key then none else List.lookup name entries := by
  induction entries with
  | nil => simp [erase]
  | cons entry rest ih =>
    obtain ⟨first, old⟩ := entry
    rw [erase] at ih ⊢
    by_cases hf : first = key
    · subst hf
      simp only [List.filter_cons, ne_eq, not_true_eq_false, decide_false, Bool.false_eq_true, if_false, ih,
        lookup_cons]
      split <;> rfl
    · simp only [List.filter_cons, ne_eq, hf, not_false_eq_true, decide_true, if_true, lookup_cons, ih]
      by_cases h : name = first
      · subst h
        simp [hf]
      · simp [h]

/-- What a key leads to is there under it. -/
theorem mem_of_lookup {key : String} {value : α} {entries : Keyed α} (h : entries.lookup key = some value) :
    (key, value) ∈ entries := by
  obtain ⟨before, after, rfl, -⟩ := List.lookup_eq_some_iff.1 h
  exact List.mem_append_right _ (.head _)

end Keyed

end FlightPlanner
