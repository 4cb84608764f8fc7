import FlightPlanner.Proofs.Config.Paths
import FlightPlanner.Config.Value
import Mathlib.Data.List.Nodup

/-!
# A configuration as a source

What sources laid over each other make is settled: its tables come from no single source, and hold each key once
and in small letters. Laid over nothing, a settled value is itself. So a configuration that becomes a source in
its turn brings everything it holds to the same place.
-/

namespace FlightPlanner

namespace Keyed

/-- A key that is set is held once where every key is. -/
theorem nodup_set {key : String} {value : α} {entries : Keyed α} (h : (entries.map Prod.fst).Nodup) :
    ((set key value entries).map Prod.fst).Nodup := by
  induction entries with
  | nil => simp [set]
  | cons first rest ih =>
    obtain ⟨name, old⟩ := first
    obtain ⟨hname, hrest⟩ := List.nodup_cons.1 h
    by_cases hkey : name = key
    · simpa [set, hkey] using h
    · simp only [set, hkey, if_false, List.map_cons, List.nodup_cons]
      refine ⟨fun hmem => ?_, ih hrest⟩
      obtain ⟨entry, hentry, hfst⟩ := List.mem_map.1 hmem
      obtain rfl | hentry := mem_set hentry
      · exact hkey hfst.symm
      · exact hname (List.mem_map.2 ⟨entry, hentry, hfst⟩)

/-- A key that is not held yet is set behind those that are. -/
theorem set_of_notMem {key : String} {value : α} {entries : Keyed α} (h : key ∉ entries.map Prod.fst) :
    set key value entries = entries ++ [(key, value)] := by
  induction entries with
  | nil => rfl
  | cons first rest ih =>
    obtain ⟨name, old⟩ := first
    obtain ⟨hname, hrest⟩ : ¬key = name ∧ key ∉ rest.map Prod.fst := by simpa using h
    simp [set, Ne.symm hname, ih hrest]

end Keyed

namespace Config

/-- A value as a configuration holds it: its tables come from no single source, and each key in them is in small
letters and there once. -/
inductive Value.Settled : Value → Prop where
  /-- A value without parts. -/
  | leaf (origin : Option Origin) (scalar : Scalar) : Settled (.leaf origin scalar)
  /-- A list, which is never laid over another. -/
  | list (origin : Option Origin) (items : List Value) : Settled (.list origin items)
  /-- A table of such values. -/
  | table {entries : Entries} (distinct : (entries.map Prod.fst).Nodup)
      (folded : ∀ entry ∈ entries, IsFolded entry.1) (values : ∀ entry ∈ entries, Settled entry.2) :
      Settled (.table none entries)

namespace Value

/-- A table without entries is settled. -/
theorem settled_empty : empty.Settled := .table .nil (by simp) (by simp)

/-- A key in small letters set to a settled value leaves a settled table. -/
theorem Settled.setChild {below value : Value} {key : String} (hbelow : below.Settled) (hkey : IsFolded key)
    (hvalue : value.Settled) : (below.setChild key value).Settled := by
  cases hbelow with
  | @table entries distinct folded values =>
    refine .table (Keyed.nodup_set distinct) ?_ ?_
    · intro entry hentry
      obtain rfl | hentry := Keyed.mem_set hentry
      · exact hkey
      · exact folded entry hentry
    · intro entry hentry
      obtain rfl | hentry := Keyed.mem_set hentry
      · exact hvalue
      · exact values entry hentry
  | _ => exact .table (by simp) (by simpa using hkey) (by simpa using hvalue)

/-- What a key of a settled value leads to is settled. -/
theorem Settled.child {below value : Value} {key : String} (hbelow : below.Settled)
    (h : below.child? key = some value) : value.Settled := by
  cases hbelow with
  | table distinct folded values => exact values _ (Keyed.mem_of_lookup h)
  | _ => simp [child?] at h

mutual

/-- A value laid over what is settled is settled. -/
theorem settled_overlay (value : Value) {old : Option Value} (hold : ∀ below, old = some below → below.Settled) :
    (overlay old value).Settled := by
  cases value with
  | table origin entries =>
    rw [overlay]
    refine settled_overlayEntries entries ?_
    cases old with
    | none => exact settled_empty
    | some below => exact hold below rfl
  | list origin items => exact .list origin items
  | leaf origin scalar => exact .leaf origin scalar

/-- Entries laid over what is settled are settled. -/
theorem settled_overlayEntries (entries : List (String × Value)) {below : Value} (hbelow : below.Settled) :
    (overlayEntries below entries).Settled := by
  match entries with
  | [] => exact hbelow
  | (key, value) :: rest =>
    rw [overlayEntries]
    refine settled_overlayEntries rest (hbelow.setChild (isFolded_foldKey key) ?_)
    exact settled_overlay value fun inner hinner => hbelow.child hinner

end

/-- What is settled stays so when a value is set in it. -/
theorem settled_setAt (value : Value) (path : List Step) {old : Option Value}
    (hold : ∀ below, old = some below → below.Settled) : (setAt value path old).Settled := by
  induction path generalizing old with
  | nil =>
    rw [setAt]
    exact settled_overlay value hold
  | cons step path ih =>
    cases step with
    | child key =>
      have hbelow : (old.getD empty).Settled := by
        cases old with
        | none => exact settled_empty
        | some below => exact hold below rfl
      rw [setAt]
      exact hbelow.setChild (isFolded_foldKey key) (ih fun inner hinner => hbelow.child hinner)
    | index place =>
      rw [setAt]
      exact .list _ _

mutual

/-- A settled value laid over nothing is itself. -/
theorem overlay_none_of_settled (value : Value) (h : value.Settled) : overlay none value = value := by
  cases h with
  | leaf origin scalar => rfl
  | list origin items => rfl
  | @table entries distinct folded values =>
    rw [overlay]
    exact overlayEntries_of_settled entries [] (by simpa using distinct) folded values

/-- Entries of a settled table laid over others with other keys come behind them. -/
theorem overlayEntries_of_settled (entries held : Entries) (distinct : ((held ++ entries).map Prod.fst).Nodup)
    (folded : ∀ entry ∈ entries, IsFolded entry.1) (values : ∀ entry ∈ entries, entry.2.Settled) :
    overlayEntries (.table none held) entries = .table none (held ++ entries) := by
  match entries with
  | [] => simp [overlayEntries]
  | (key, value) :: rest =>
    have hkey : foldKey key = key := folded _ (.head _)
    have hnew : key ∉ held.map Prod.fst := by
      rw [List.map_append, List.map_cons] at distinct
      exact fun h => (List.nodup_append.1 distinct).2.2 key h key (.head _) rfl
    have hnone : (Value.table none held).child? key = none := by
      refine Option.eq_none_iff_forall_ne_some.2 fun inner hinner => hnew ?_
      exact List.mem_map.2 ⟨_, Keyed.mem_of_lookup hinner, rfl⟩
    have hvalue := overlay_none_of_settled value (values _ (.head _))
    rw [overlayEntries, hkey, hnone, hvalue, setChild, Keyed.set_of_notMem hnew,
      overlayEntries_of_settled rest (held ++ [(key, value)]) (by simpa using distinct)
        (fun entry h => folded entry (.tail _ h)) (fun entry h => values entry (.tail _ h)), List.append_assoc]
    rfl

end

/-- The table of everything as sources make it: it is settled, and each of its keys spells itself only. -/
structure IsRoot (root : Value) : Prop where
  /-- It is a table. -/
  table : ∃ entries, root = .table none entries
  /-- It is settled. -/
  settled : root.Settled
  /-- Its keys are no longer paths. -/
  keys : ∀ entry ∈ root.entries, pathOf entry.1 = [.child entry.1]

/-- A source laid over the table of everything leaves such a table. -/
theorem IsRoot.add {root : Value} (h : root.IsRoot) (source : Entries) : (root.add source).IsRoot := by
  induction source generalizing root with
  | nil => exact h
  | cons entry rest ih =>
    obtain ⟨key, value⟩ := entry
    obtain ⟨⟨held, rfl⟩, hsettled, hkeys⟩ := h
    obtain ⟨first, path, hpath, hfolded, hfirst⟩ := pathOf_eq key
    have hkey : foldKey first = first := hfolded first (.head _)
    have hroot : (setAt value (pathOf key) (some (.table none held))).IsRoot := by
      refine ⟨?table, ?settled, ?keys⟩
      case table =>
        rw [hpath, setAt]
        exact ⟨_, rfl⟩
      case settled => exact settled_setAt value _ fun below hbelow => Option.some.inj hbelow ▸ hsettled
      case keys =>
        rw [hpath, setAt, hkey]
        intro entry hentry
        obtain rfl | hentry := Keyed.mem_set hentry
        · exact hfirst
        · exact hkeys entry hentry
    exact ih hroot

/-- What sources laid over each other make is a table of everything. -/
theorem isRoot_ofSources (sources : List Entries) : (ofSources sources).IsRoot := by
  have h : ∀ root : Value, root.IsRoot → (sources.foldl add root).IsRoot := by
    induction sources with
    | nil => exact fun root h => h
    | cons source rest ih => exact fun root h => ih _ (h.add source)
  exact h empty ⟨⟨[], rfl⟩, settled_empty, by simp [entries, empty]⟩

/-- Entries whose keys spell themselves only are laid over a value as those of a table are. -/
theorem add_eq_overlayEntries {source : Entries} (hkeys : ∀ entry ∈ source, pathOf entry.1 = [.child entry.1])
    (root : Value) : root.add source = overlayEntries root source := by
  induction source generalizing root with
  | nil => rfl
  | cons entry rest ih =>
    obtain ⟨key, value⟩ := entry
    have hfirst : setAt value (pathOf key) (some root) =
        root.setChild (foldKey key) (overlay (root.child? (foldKey key)) value) := by
      rw [hkeys _ (.head _), setAt, setAt]
      rfl
    rw [overlayEntries, ← hfirst]
    exact ih (fun entry h => hkeys entry (.tail _ h)) _

/-- A configuration laid over nothing as a source is itself. -/
theorem add_entries_ofSources (sources : List Entries) :
    empty.add (ofSources sources).entries = ofSources sources := by
  obtain ⟨⟨held, hroot⟩, hsettled, hkeys⟩ := isRoot_ofSources sources
  rw [hroot] at hsettled hkeys ⊢
  cases hsettled with
  | table distinct folded values =>
    rw [add_eq_overlayEntries hkeys]
    exact overlayEntries_of_settled held [] distinct folded values

/-- Sources over a configuration that has become a source are sources behind those that made it. -/
theorem ofSources_entries_cons (sources more : List Entries) :
    ofSources ((ofSources sources).entries :: more) = ofSources (sources ++ more) := by
  rw [ofSources, List.foldl_cons, add_entries_ofSources, ofSources, ofSources, List.foldl_append]

end Value

end Config

end FlightPlanner
