import Mathlib.Data.List.Sort
import Mathlib.Data.List.FinRange

/-!
# The places of a list once it is put in order

Sorting is stated here on the places of a list and not on its elements, for two equal elements can be told
apart by their places only. Putting the kept elements of a list in order visits the places of exactly these,
each once, and where neither of two elements has to stand before the other one, the earlier place comes first.
-/

namespace FlightPlanner.Ranking

variable {α ι : Type}

/-- Whether one place of a list comes before another one once the list is put in order: its element may stand
first, and where the other element might as well, it is the earlier place. -/
def ComesBefore (ahead : α → α → Bool) (list : List α) (i j : Fin list.length) : Prop :=
  ahead list[i] list[j] ∧ (ahead list[j] list[i] → i < j)

/-- In a list without repetitions, what stands before has the smaller index. -/
theorem pairwise_idxOf_lt [DecidableEq ι] {list : List ι} (h : list.Nodup) :
    list.Pairwise fun i j => list.idxOf i < list.idxOf j := by
  rw [List.pairwise_iff_getElem]
  intro i j hi hj hij
  rw [h.idxOf_getElem i hi, h.idxOf_getElem j hj]
  exact hij

/-- Sorting an increasing list by any total order keeps it increasing among elements that are tied. -/
theorem pairwise_mergeSort_of_increasing [LinearOrder ι] {ahead : ι → ι → Bool}
    (trans : ∀ a b c, ahead a b → ahead b c → ahead a c) (total : ∀ a b, ahead a b || ahead b a)
    {list : List ι} (increasing : list.Pairwise (· < ·)) :
    (list.mergeSort ahead).Pairwise fun i j => ahead i j ∧ (ahead j i → i < j) := by
  have hnodup : (list.mergeSort ahead).Nodup :=
    (List.mergeSort_perm list ahead).nodup_iff.mpr (increasing.imp ne_of_lt)
  have hindex := pairwise_idxOf_lt hnodup
  rw [List.pairwise_iff_forall_sublist]
  intro i j hij
  have hahead := (List.pairwise_mergeSort trans total list).forall_sublist hij
  refine ⟨hahead, fun htie => ?_⟩
  by_contra hle
  have hne : i ≠ j := hnodup.forall_sublist hij
  have hji : j < i := lt_of_le_of_ne (not_lt.mp hle) hne.symm
  have hmem : ∀ k ∈ [j, i], k ∈ list := by
    intro k hk
    have hk' : k ∈ list.mergeSort ahead := hij.subset (by simpa [or_comm] using hk)
    exact List.mem_mergeSort.mp hk'
  -- The tied pair stands in increasing order before the sort, and a stable sort keeps it so.
  have hbefore : [j, i].Sublist list := by
    apply List.sublist_of_subperm_of_pairwise (r := (· < ·)) _ (List.pairwise_pair.mpr hji) increasing
    exact List.subperm_of_subset (by simpa using hne.symm) hmem
  have hafter := List.pair_sublist_mergeSort trans total htie hbefore
  have hlt := hindex.forall_sublist hij
  have hgt := hindex.forall_sublist hafter
  omega

/-- Keeping some elements of a list and putting them in order amounts to visiting their places: each place of
a kept element once, in an order in which ties are broken by the place. -/
theorem exists_places (ahead : α → α → Bool) (trans : ∀ a b c, ahead a b → ahead b c → ahead a c)
    (total : ∀ a b, ahead a b || ahead b a) (keep : α → Bool) (list : List α) :
    ∃ places : List (Fin list.length), places.Nodup ∧ (∀ i, i ∈ places ↔ keep list[i] = true) ∧
      (list.filter keep).mergeSort ahead = places.map (fun i => list[i]) ∧
      places.Pairwise (ComesBefore ahead list) := by
  let kept := (List.finRange list.length).filter fun i => keep list[i]
  have hkept : kept.Pairwise (· < ·) := (List.pairwise_lt_finRange _).filter _
  have hlist : (List.finRange list.length).map (fun i => list[i]) = list := by
    simp
  refine ⟨kept.mergeSort fun i j => ahead list[i] list[j], ?_, ?_, ?_, ?_⟩
  · exact (List.mergeSort_perm _ _).nodup_iff.mpr (hkept.imp ne_of_lt)
  · simp [kept]
  · rw [List.map_mergeSort (s := ahead) (fun _ _ _ _ => rfl)]
    congr 1
    conv_lhs => rw [← hlist, List.filter_map]
    rfl
  · exact pairwise_mergeSort_of_increasing (fun i j k => trans list[i] list[j] list[k])
      (fun i j => total list[i] list[j]) hkept

end FlightPlanner.Ranking
