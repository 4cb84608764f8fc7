import FlightPlanner.Config.KeyPath
import Mathlib.Data.List.TakeWhile

/-!
# Folded keys and the paths they spell

Small letters are folded once: folding a key again changes nothing. A key that spells a path spells one that
starts in a table and has folded keys only, and its first key spells nothing but itself. So what a source stands
at is found under the same keys when the table it went into becomes a source in its turn.
-/

namespace FlightPlanner.Config

/-- The small form of a capital of ASCII is a small letter, and any other character is its own. -/
theorem toLower_eq_or (c : Char) : c.toLower = c ∨ 97 ≤ c.toLower.toNat ∧ c.toLower.toNat ≤ 122 := by
  by_cases h : c.val ≥ 'A'.val ∧ c.val ≤ 'Z'.val
  · right
    have hlow : 65 ≤ c.val.toNat := UInt32.le_iff_toNat_le.1 h.1
    have hhigh : c.val.toNat ≤ 90 := UInt32.le_iff_toNat_le.1 h.2
    have hval : c.toLower.toNat = (c.val.toNat + 32) % 2 ^ 32 := congrArg Char.toNat (dif_pos h)
    omega
  · left
    exact dif_neg h

/-- What is no capital is its own small form. -/
theorem toLower_of_not_capital {c : Char} (hc : c.toNat < 65 ∨ 90 < c.toNat) : c.toLower = c := by
  have h : ¬(c.val ≥ 'A'.val ∧ c.val ≤ 'Z'.val) := by
    intro h
    have hlow : 65 ≤ c.toNat := UInt32.le_iff_toNat_le.1 h.1
    have hhigh : c.toNat ≤ 90 := UInt32.le_iff_toNat_le.1 h.2
    omega
  exact dif_neg h

/-- A small form is its own small form. -/
theorem foldChar_foldChar (c : Char) : foldChar (foldChar c) = foldChar c := by
  by_cases hk : c = '\u212A'
  · subst hk
    rfl
  · have hc : foldChar c = c.toLower := by simp [foldChar, hk]
    rw [hc]
    obtain h | ⟨hlow, hhigh⟩ := toLower_eq_or c
    · rw [h, hc, h]
    · have hne : c.toLower ≠ '\u212A' := by
        intro heq
        rw [heq] at hhigh
        exact absurd hhigh (by decide)
      have hbeyond : 90 < c.toLower.toNat := by omega
      simp only [foldChar, hne, if_false, toLower_of_not_capital (.inr hbeyond)]

/-- A key in small letters is one that folding leaves as it is. -/
def IsFolded (key : String) : Prop := foldKey key = key

instance (key : String) : Decidable (IsFolded key) := inferInstanceAs (Decidable (foldKey key = key))

/-- A key is folded when all its characters are. -/
theorem isFolded_iff {key : String} : IsFolded key ↔ ∀ c ∈ key.toList, foldChar c = c := by
  have h : IsFolded key ↔ key.toList.map foldChar = key.toList.map id := by
    rw [IsFolded, foldKey, ← String.toList_inj, String.toList_ofList, List.map_id]
  rw [h, List.map_inj_left]
  rfl

/-- What folding makes of a key is folded. -/
theorem isFolded_foldKey (key : String) : IsFolded (foldKey key) := by
  refine isFolded_iff.2 fun c hc => ?_
  obtain ⟨d, -, rfl⟩ : ∃ d ∈ key.toList, foldChar d = c := by simpa [foldKey] using hc
  exact foldChar_foldChar d

/-- A path with all its keys in small letters. -/
def FoldedPath (path : List Step) : Prop := ∀ key, .child key ∈ path → IsFolded key

/-- The key in front of a text and the rest make up the text, and the key has some characters, all of a key. -/
theorem spanKey?_eq_some {text rest : List Char} {key : String} (h : spanKey? text = some (key, rest)) :
    text = key.toList ++ rest ∧ (∀ c ∈ key.toList, isKeyChar c = true) ∧ key.toList ≠ [] := by
  simp only [spanKey?] at h
  split at h
  · contradiction
  · next hne =>
    obtain ⟨rfl, rfl⟩ := Prod.mk.injEq .. ▸ Option.some.inj h
    rw [String.toList_ofList]
    refine ⟨List.takeWhile_append_dropWhile.symm, ?_, by simpa using hne⟩
    exact List.all_eq_true.1 List.all_takeWhile

/-- The rest behind a place in brackets ends the text. -/
theorem spanPlace?_suffix {text rest : List Char} {place : Int} (h : spanPlace? text = some (place, rest)) :
    rest <:+ text := by
  have hbehind : ∀ unsigned closed : List Char, unsigned <:+ text →
      (unsigned.dropWhile Char.isDigit).dropWhile isGap = ']' :: closed → closed <:+ text := by
    intro unsigned closed hunsigned h
    have hclosed : closed <:+ unsigned.dropWhile Char.isDigit :=
      (List.suffix_cons ']' closed).trans (h ▸ List.dropWhile_suffix isGap)
    exact (hclosed.trans (List.dropWhile_suffix _)).trans hunsigned
  have hstart : text.dropWhile isGap <:+ text := List.dropWhile_suffix isGap
  simp only [spanPlace?, Decimal.spanDigits] at h
  split at h
  case h_1 unsigned hminus =>
    have hunsigned : unsigned <:+ text := (List.suffix_cons '-' unsigned).trans (hminus ▸ hstart)
    split at h
    · contradiction
    · split at h
      · next closed hclosed =>
        obtain ⟨-, -, -, rfl⟩ := by simpa only [Option.map_eq_some_iff, Prod.mk.injEq] using h
        exact hbehind _ _ hunsigned hclosed
      · contradiction
  case h_2 =>
    split at h
    · contradiction
    · split at h
      · next closed hclosed =>
        obtain ⟨-, -, -, rfl⟩ := by simpa only [Option.map_eq_some_iff, Prod.mk.injEq] using h
        exact hbehind _ _ hstart hclosed
      · contradiction

/-- A key in front of a path with its keys in small letters. -/
theorem FoldedPath.cons_child {key : String} {path : List Step} (hkey : IsFolded key) (hpath : FoldedPath path) :
    FoldedPath (.child key :: path) := by
  intro name hname
  obtain h | h := List.mem_cons.1 hname
  · exact Step.child.inj h ▸ hkey
  · exact hpath name h

/-- A place in front of a path with its keys in small letters. -/
theorem FoldedPath.cons_index {place : Int} {path : List Step} (hpath : FoldedPath path) :
    FoldedPath (.index place :: path) := by
  intro name hname
  obtain h | h := List.mem_cons.1 hname
  · contradiction
  · exact hpath name h

/-- The steps that a text in small letters spells have their keys in small letters. -/
theorem readSteps?_folded (fuel : Nat) {text : List Char} {path : List Step}
    (htext : ∀ c ∈ text, foldChar c = c) (h : readSteps? fuel text = some path) : FoldedPath path := by
  induction fuel generalizing text path with
  | zero =>
    cases text with
    | nil => simp_all [readSteps?, FoldedPath]
    | cons => simp [readSteps?] at h
  | succ fuel ih =>
    unfold readSteps? at h
    split at h
    · simp_all [FoldedPath]
    · contradiction
    · next after hfuel =>
      obtain rfl := Nat.succ.inj hfuel
      obtain ⟨⟨key, rest⟩, hkey, steps, hsteps, rfl⟩ := by
        simpa only [bind, pure, Option.bind_eq_some_iff, Option.some.injEq] using h
      obtain ⟨rfl, -, -⟩ := spanKey?_eq_some hkey
      refine .cons_child (isFolded_iff.2 fun c hc => htext c (by simp [hc])) (ih ?_ hsteps)
      exact fun c hc => htext c (by simp [hc])
    · next after hfuel =>
      obtain rfl := Nat.succ.inj hfuel
      obtain ⟨⟨place, rest⟩, hplace, steps, hsteps, rfl⟩ := by
        simpa only [bind, pure, Option.bind_eq_some_iff, Option.some.injEq] using h
      refine .cons_index (ih ?_ hsteps)
      exact fun c hc => htext c (.tail _ ((spanPlace?_suffix hplace).subset hc))
    · contradiction

/-- A key of key characters only is all that it spells. -/
theorem readPath?_of_all {key : String} (hkey : ∀ c ∈ key.toList, isKeyChar c = true) (hne : key.toList ≠ []) :
    readPath? key = some [.child key] := by
  have htake : key.toList.takeWhile isKeyChar = key.toList := List.takeWhile_eq_self_iff.2 hkey
  have hdrop : key.toList.dropWhile isKeyChar = [] := List.dropWhile_eq_nil_iff.2 hkey
  have hspan : spanKey? key.toList = some (key, []) := by
    simp [spanKey?, htake, hdrop, hne]
  simp [readPath?, hspan, readSteps?]

/-- A key spells a path that starts in a table. Its keys are in small letters, and the first one spells itself
only. -/
theorem pathOf_eq (text : String) :
    ∃ key path, pathOf text = .child key :: path ∧ FoldedPath (.child key :: path) ∧ pathOf key = [.child key] := by
  have htext := isFolded_iff.1 (isFolded_foldKey text)
  unfold pathOf
  cases hread : readPath? (foldKey text) with
  | none =>
    have hfolded : foldKey (foldKey text) = foldKey text := isFolded_foldKey text
    refine ⟨foldKey text, [], rfl, .cons_child hfolded (by simp [FoldedPath]), ?_⟩
    rw [hfolded, hread]
    rfl
  | some path =>
    obtain ⟨⟨key, rest⟩, hkey, steps, hsteps, rfl⟩ := by
      simpa only [readPath?, bind, pure, Option.bind_eq_some_iff, Option.some.injEq] using hread
    obtain ⟨hsplit, hall, hne⟩ := spanKey?_eq_some hkey
    have hfolded : IsFolded key := isFolded_iff.2 fun c hc => htext c (by simp [hsplit, hc])
    have hrest : ∀ c ∈ rest, foldChar c = c := fun c hc => htext c (by simp [hsplit, hc])
    refine ⟨key, steps, rfl, .cons_child hfolded (readSteps?_folded _ hrest hsteps), ?_⟩
    rw [hfolded, readPath?_of_all hall hne]
    rfl

/-- The keys of the path are in small letters. -/
theorem foldedPath_pathOf (text : String) : FoldedPath (pathOf text) := by
  obtain ⟨key, path, hpath, hfolded, -⟩ := pathOf_eq text
  exact hpath ▸ hfolded

end FlightPlanner.Config
