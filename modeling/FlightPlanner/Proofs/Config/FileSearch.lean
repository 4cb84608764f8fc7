import FlightPlanner.Config.Files
import Mathlib.Data.List.Basic

/-!
# Which file a path leads to

A path without steps back to the directory above leads to the file with its names, if there is one: the walk finds a
directory in front of each name, since the file is in it. So such a path stands for this file, if its name has the
ending of a document, or else for the file whose name is longer by this ending. A file that is searched upwards is
that of the innermost directory that has one.
-/

namespace FlightPlanner.Config.Files

variable {files : Files} {text : String}

/-- There is a directory in front of each name on the way to a file. -/
theorem hasDirectory_of_get? {reached rest : List (List Char)} {name : List Char}
    (h : files.get? (reached ++ name :: rest) = some text) : files.hasDirectory reached = true := by
  obtain ⟨⟨path, _⟩, hfind, -⟩ := Option.map_eq_some_iff.1 h
  have hnames : files.namesFromRoot path.toList = reached ++ name :: rest := by
    simpa using List.find?_some hfind
  rw [hasDirectory, Bool.or_eq_true]
  refine .inr (List.any_eq_true.2 ⟨_, List.mem_of_find?_eq_some hfind, ?_⟩)
  simp [hnames]

/-- A path without steps back leads to where it says, if there is a file. -/
theorem walk?_of_get? {rest : List (List Char)} (reached : List (List Char)) (habove : above ∉ rest)
    (h : files.get? (reached ++ rest) = some text) : files.walk? reached rest = some (reached ++ rest) := by
  induction rest generalizing reached with
  | nil => rw [walk?, List.append_nil]
  | cons name rest ih =>
    have hname : name ≠ above := fun heq => habove (heq ▸ .head _)
    have hnext := ih (reached ++ [name]) (fun hmem => habove (.tail _ hmem)) (by simpa using h)
    rw [walk?, hasDirectory_of_get? h, Bool.not_true, if_neg Bool.false_ne_true, if_neg hname, hnext]
    simp

/-- A path without steps back leads to where it says, or nowhere. -/
theorem eq_of_walk? {reached rest target : List (List Char)} (habove : above ∉ rest)
    (h : files.walk? reached rest = some target) : target = reached ++ rest := by
  induction rest generalizing reached with
  | nil =>
    obtain rfl := Option.some.inj h
    rw [List.append_nil]
  | cons name rest ih =>
    have hname : name ≠ above := fun heq => habove (heq ▸ .head _)
    rw [walk?, if_neg hname] at h
    split at h
    · contradiction
    · rw [ih (fun hmem => habove (.tail _ hmem)) h]
      simp

/-- A path without steps back leads to the file with its names. -/
theorem at?_eq_get? {path : List (List Char)} (habove : above ∉ path) : files.at? path = files.get? path := by
  rw [at?]
  cases hwalk : files.walk? [] path with
  | some target =>
    rw [eq_of_walk? habove hwalk]
    rfl
  | none =>
    cases hget : files.get? path with
    | none => rfl
    | some text => exact nomatch hwalk.symm.trans (walk?_of_get? [] habove hget)

/-- The last name of a path is what stands behind its last slash, if this counts as a name. -/
theorem getLast?_namesFromRoot {path last : List Char} (hlast : (segments path).getLast? = some last)
    (hempty : last ≠ []) (hpoint : last ≠ ['.']) : (files.namesFromRoot path).getLast? = some last := by
  obtain ⟨front, hfront⟩ : ∃ front, segments path = front ++ [last] := List.getLast?_eq_some_iff.1 hlast
  have hnames : names path = (front.filter fun name => !name.isEmpty && name ≠ ['.']) ++ [last] := by
    simp [names, hfront, hempty, hpoint]
  rw [namesFromRoot]
  split
  · rw [hnames, List.getLast?_concat]
  · rw [hnames, ← List.append_assoc, List.getLast?_concat]

/-- A path without steps back that ends in a name stands for the file with its names, if the name is that of a
document, or else for the one whose name is longer by the ending. -/
theorem find?_eq {path : String} {last : List Char} (hlast : (segments path.toList).getLast? = some last)
    (hempty : last ≠ []) (hpoint : last ≠ ['.']) (habove : above ∉ files.namesFromRoot path.toList) :
    files.find? path =
      match files.get? (files.namesFromRoot path.toList) with
      | some text =>
        if ending? last = some documentEnding then some (files.namesFromRoot path.toList, text) else none
      | none =>
        let longer := (files.namesFromRoot path.toList).dropLast ++ [withEnding last]
        (files.get? longer).map (longer, ·) := by
  have hfound := @getLast?_namesFromRoot files _ last hlast hempty hpoint
  have hname : last ≠ above := fun heq => habove (heq ▸ List.mem_of_getLast? hfound)
  have hlonger : above ∉ (files.namesFromRoot path.toList).dropLast ++ [withEnding last] := by
    rw [List.mem_append, List.mem_singleton, not_or]
    refine ⟨fun hmem => habove (List.dropLast_subset _ hmem), fun heq => ?_⟩
    have hlength := congrArg List.length heq
    simp [above, withEnding, documentEnding] at hlength
  cases hget : files.get? (files.namesFromRoot path.toList) <;>
    simp [find?, hfound, hlast, hname, at?_eq_get? habove, at?_eq_get? hlonger, hget]

/-- A path without steps back whose name is that of a document stands for the file with its names, wherever the path
starts. -/
theorem find?_document {path : String} {last : List Char} (hlast : (segments path.toList).getLast? = some last)
    (hending : ending? last = some documentEnding) (habove : above ∉ files.namesFromRoot path.toList)
    (h : files.get? (files.namesFromRoot path.toList) = some text) :
    files.find? path = some (files.namesFromRoot path.toList, text) := by
  have hempty : last ≠ [] := by
    rintro rfl
    exact absurd hending (by decide)
  have hpoint : last ≠ ['.'] := by
    rintro rfl
    exact absurd hending (by decide)
  rw [find?_eq hlast hempty hpoint habove, h]
  exact if_pos hending

/-- A name in the directory of the settings stands for the document of this name there, where no file has the name
itself. -/
theorem find?_settings {name : String} (hname : name = "default" ∨ name = "local") (habove : above ∉ files.directory)
    (hexact : files.get? (files.directory ++ ["config".toList, name.toList]) = none) :
    files.find? ("config/" ++ name) =
      (files.get? (files.directory ++ ["config".toList, withEnding name.toList])).map
        (files.directory ++ ["config".toList, withEnding name.toList], ·) := by
  obtain ⟨hlast, hnames, hrelative, hplain⟩ : (segments ("config/" ++ name).toList).getLast? = some name.toList ∧
      names ("config/" ++ name).toList = ["config".toList, name.toList] ∧
      isAbsolute ("config/" ++ name).toList = false ∧ name.toList ≠ [] ∧ name.toList ≠ ['.'] ∧ name.toList ≠ above := by
    obtain rfl | rfl := hname <;> decide
  have hfull : files.namesFromRoot ("config/" ++ name).toList = files.directory ++ ["config".toList, name.toList] := by
    rw [namesFromRoot, hrelative, hnames]
    rfl
  have habove : above ∉ files.namesFromRoot ("config/" ++ name).toList := by
    have hconfig : above ≠ "config".toList := by decide
    rw [hfull, List.mem_append, List.mem_cons, List.mem_singleton]
    exact not_or.2 ⟨habove, not_or.2 ⟨hconfig, hplain.2.2.symm⟩⟩
  rw [find?_eq hlast hplain.1 hplain.2.1 habove, hfull, hexact]
  simp

/-- Whether a text is that of the file with a name in the innermost of some directories that has one; each is inside
the one before it, and `outer` is around them all. -/
def IsNearest (files : Files) (name : List Char) (outer directories : List (List Char)) (text : String) : Prop :=
  ∃ front back, directories = front ++ back ∧ files.get? (outer ++ front ++ [name]) = some text ∧
    ∀ more, more <+: back → more ≠ [] → files.get? (outer ++ front ++ more ++ [name]) = none

/-- No file is found upwards where no directory on the way has one. -/
theorem nearest?_eq_none_iff {name : List Char} {outer directories : List (List Char)} :
    files.nearest? name outer directories = none ↔
      ∀ more, more <+: directories → files.get? (outer ++ more ++ [name]) = none := by
  induction directories generalizing outer with
  | nil => simp [nearest?]
  | cons directory inner ih =>
    rw [nearest?, Option.or_eq_none_iff, ih]
    refine ⟨fun ⟨hinner, houter⟩ more hmore => ?_, fun h => ⟨fun more hmore => ?_, ?_⟩⟩
    · cases more with
      | nil => simpa using houter
      | cons first more =>
        obtain ⟨rfl, hrest⟩ := List.cons_prefix_cons.1 hmore
        simpa using hinner more hrest
    · simpa using h (directory :: more) ((List.prefix_append_right_inj [directory]).2 hmore)
    · simpa using h [] List.nil_prefix

/-- The file that is searched upwards is the nearest one. -/
theorem nearest?_eq_some_iff {name : List Char} {outer directories : List (List Char)} :
    files.nearest? name outer directories = some text ↔ files.IsNearest name outer directories text := by
  induction directories generalizing outer with
  | nil =>
    refine ⟨fun h => ⟨[], [], rfl, by simpa [nearest?] using h, by simp⟩, ?_⟩
    rintro ⟨front, back, hsplit, h, -⟩
    obtain ⟨rfl, rfl⟩ := List.append_eq_nil_iff.1 hsplit.symm
    simpa [nearest?] using h
  | cons directory inner ih =>
    rw [nearest?, Option.or_eq_some_iff]
    constructor
    · rintro (h | ⟨hnone, h⟩)
      · obtain ⟨front, back, rfl, hget, hinner⟩ := ih.1 h
        exact ⟨directory :: front, back, rfl, by simpa using hget, by simpa using hinner⟩
      · refine ⟨[], directory :: inner, rfl, by simpa using h, fun more hmore hne => ?_⟩
        cases more with
        | nil => contradiction
        | cons first more =>
          obtain ⟨rfl, hrest⟩ := List.cons_prefix_cons.1 hmore
          simpa using nearest?_eq_none_iff.1 hnone more hrest
    · rintro ⟨front, back, hsplit, hget, hinner⟩
      cases front with
      | nil =>
        obtain rfl : directory :: inner = back := hsplit
        refine .inr ⟨nearest?_eq_none_iff.2 fun more hmore => ?_, by simpa using hget⟩
        simpa using hinner (directory :: more) ((List.prefix_append_right_inj [directory]).2 hmore) (by simp)
      | cons first front =>
        obtain ⟨rfl, rfl⟩ := List.cons.inj hsplit
        exact .inl (ih.2 ⟨front, back, rfl, by simpa using hget, by simpa using hinner⟩)

end FlightPlanner.Config.Files
