import Mathlib.Data.List.Sort

/-!
# Orders put together from parts

A list that is put in order is known by its tied elements: for each element, those that are tied with it stand in it as
they stood before. So what is in order and has the same ties is the same list. Keeping some elements may therefore
come before the sorting or behind it, the order of two lists in one is their two orders merged, and the first elements
of a merged list are found among the first ones of its parts.
-/

namespace FlightPlanner.Ranking

variable {α : Type} (ahead : α → α → Bool)

/-- Whether neither of two elements has to stand before the other one. -/
def tied (a b : α) : Bool := ahead a b && ahead b a

variable {ahead}

/-- Two elements are tied when either may stand before the other one. -/
theorem tied_iff {a b : α} : tied ahead a b = true ↔ ahead a b = true ∧ ahead b a = true := by
  rw [tied, Bool.and_eq_true]

/-- The first elements of a merged list are found among the first ones of its parts. -/
theorem take_merge (xs ys : List α) {count m n : ℕ} (hm : count ≤ m) (hn : count ≤ n) :
    (xs.merge ys ahead).take count = ((xs.take m).merge (ys.take n) ahead).take count := by
  induction count generalizing xs ys m n with
  | zero => rw [List.take_zero, List.take_zero]
  | succ count ih =>
    obtain ⟨m, rfl⟩ := Nat.exists_eq_add_of_lt hm
    obtain ⟨n, rfl⟩ := Nat.exists_eq_add_of_lt hn
    cases xs with
    | nil => rw [List.take_nil, List.nil_merge, List.nil_merge, List.take_take, min_eq_left hn]
    | cons x xs =>
      cases ys with
      | nil => rw [List.take_nil, List.merge_right, List.merge_right, List.take_take, min_eq_left hm]
      | cons y ys =>
        simp only [List.take_succ_cons, List.cons_merge_cons]
        by_cases hxy : ahead x y = true
        · have hrest := ih xs (y :: ys) (m := count + m) (n := count + n + 1) (by omega) (by omega)
          rw [List.take_succ_cons] at hrest
          rw [if_pos hxy, if_pos hxy, List.take_succ_cons, List.take_succ_cons, hrest]
        · have hrest := ih (x :: xs) ys (m := count + m + 1) (n := count + n) (by omega) (by omega)
          rw [List.take_succ_cons] at hrest
          rw [if_neg hxy, if_neg hxy, List.take_succ_cons, List.take_succ_cons, hrest]

section Ordered

variable (trans : ∀ a b c, ahead a b → ahead b c → ahead a c) (total : ∀ a b, ahead a b || ahead b a)

include total

/-- An element is tied with itself. -/
theorem tied_self (a : α) : tied ahead a a = true := by
  have h := total a a
  rw [Bool.or_self] at h
  exact tied_iff.mpr ⟨h, h⟩

/-- Lists that have the same ties have the same elements. -/
theorem mem_iff_of_filter_tied {xs ys : List α} (h : ∀ a, xs.filter (tied ahead a) = ys.filter (tied ahead a))
    (a : α) : a ∈ xs ↔ a ∈ ys := by
  have hself := tied_self total a
  have hboth : a ∈ xs.filter (tied ahead a) ↔ a ∈ ys.filter (tied ahead a) := by rw [h a]
  simpa only [List.mem_filter, hself, and_true] using hboth

/-- The first element of a list in order may stand before every element of it. -/
theorem ahead_of_mem_cons {x y : α} {xs : List α} (hxs : ∀ z ∈ xs, ahead x z = true) (hy : y ∈ x :: xs) :
    ahead x y = true := by
  rcases List.mem_cons.mp hy with rfl | hy
  · exact (tied_iff.mp (tied_self total _)).1
  · exact hxs y hy

/-- Lists in order that have the same ties are the same. -/
theorem eq_of_filter_tied {xs ys : List α} (hxs : xs.Pairwise fun a b => ahead a b)
    (hys : ys.Pairwise fun a b => ahead a b)
    (h : ∀ a, xs.filter (tied ahead a) = ys.filter (tied ahead a)) : xs = ys := by
  induction xs generalizing ys with
  | nil =>
    cases ys with
    | nil => rfl
    | cons y ys => exact absurd ((mem_iff_of_filter_tied total h y).mpr List.mem_cons_self) List.not_mem_nil
  | cons x xs ih =>
    cases ys with
    | nil => exact absurd ((mem_iff_of_filter_tied total h x).mp List.mem_cons_self) List.not_mem_nil
    | cons y ys =>
      obtain ⟨hx, hxs'⟩ := List.pairwise_cons.mp hxs
      obtain ⟨hy, hys'⟩ := List.pairwise_cons.mp hys
      -- each of the two heads is in the other list
      have hxy := ahead_of_mem_cons total hx ((mem_iff_of_filter_tied total h y).mpr List.mem_cons_self)
      have hyx := ahead_of_mem_cons total hy ((mem_iff_of_filter_tied total h x).mp List.mem_cons_self)
      have hheads := h x
      rw [List.filter_cons_of_pos (tied_self total x),
        List.filter_cons_of_pos (tied_iff.mpr ⟨hxy, hyx⟩)] at hheads
      obtain rfl : x = y := (List.cons.inj hheads).1
      have htails : ∀ a, xs.filter (tied ahead a) = ys.filter (tied ahead a) := by
        intro a
        have ha := h a
        cases htied : tied ahead a x with
        | true =>
          rw [List.filter_cons_of_pos htied, List.filter_cons_of_pos htied] at ha
          exact (List.cons.inj ha).2
        | false =>
          have hnot : ¬ tied ahead a x = true := by rw [htied]; exact Bool.false_ne_true
          rwa [List.filter_cons_of_neg hnot, List.filter_cons_of_neg hnot] at ha
      rw [ih hxs' hys' htails]

include trans

/-- Sorting keeps tied elements as they stand. -/
theorem filter_tied_mergeSort (a : α) (list : List α) :
    (list.mergeSort ahead).filter (tied ahead a) = list.filter (tied ahead a) := by
  have hpairs : (list.filter (tied ahead a)).Pairwise fun b c => ahead b c := by
    apply List.pairwise_of_forall_mem_list
    intro b hb c hc
    have hab := tied_iff.mp (List.mem_filter.mp hb).2
    have hac := tied_iff.mp (List.mem_filter.mp hc).2
    exact trans b a c hab.2 hac.1
  have hsub := (List.sublist_mergeSort trans total hpairs List.filter_sublist).filter (tied ahead a)
  rw [List.filter_filter, funext fun b => Bool.and_self (tied ahead a b)] at hsub
  refine (hsub.eq_of_length ?_).symm
  exact ((List.mergeSort_perm list ahead).filter _).length_eq.symm

/-- Keeping some elements may come before the sorting or behind it. -/
theorem mergeSort_filter (keep : α → Bool) (list : List α) :
    (list.filter keep).mergeSort ahead = (list.mergeSort ahead).filter keep := by
  apply eq_of_filter_tied total
  · exact List.pairwise_mergeSort trans total _
  · exact (List.pairwise_mergeSort trans total list).filter _
  · intro a
    rw [filter_tied_mergeSort trans total, List.filter_comm, List.filter_comm (tied ahead a) keep,
      filter_tied_mergeSort trans total]

/-- Merging two lists in order keeps tied elements as they stand, those of the first list in front. -/
theorem filter_tied_merge (a : α) {xs ys : List α} (hxs : xs.Pairwise fun a b => ahead a b)
    (hys : ys.Pairwise fun a b => ahead a b) :
    (xs.merge ys ahead).filter (tied ahead a) = xs.filter (tied ahead a) ++ ys.filter (tied ahead a) := by
  induction xs generalizing ys with
  | nil => rw [List.nil_merge, List.filter_nil, List.nil_append]
  | cons x xs ihx =>
    obtain ⟨hx, hxs'⟩ := List.pairwise_cons.mp hxs
    induction ys with
    | nil => rw [List.merge_right, List.filter_nil, List.append_nil]
    | cons y ys ihy =>
      obtain ⟨-, hys'⟩ := List.pairwise_cons.mp hys
      rw [List.cons_merge_cons]
      by_cases hxy : ahead x y = true
      · rw [if_pos hxy, List.filter_cons, ihx hxs' hys, List.filter_cons (x := x)]
        split
        · rw [List.cons_append]
        · rfl
      · rw [if_neg hxy, List.filter_cons, ihy hys', List.filter_cons (x := y)]
        split
        · next htied =>
          -- what is tied with the second head is not tied with anything in the first list
          have hnone : (x :: xs).filter (tied ahead a) = [] := by
            rw [List.filter_eq_nil_iff]
            intro z hz hza
            have hxz := ahead_of_mem_cons total hx hz
            have hzy := trans z a y (tied_iff.mp hza).2 (tied_iff.mp htied).1
            exact hxy (trans x z y hxz hzy)
          rw [hnone, List.nil_append, List.nil_append]
        · rfl

/-- Two lists in one are put in order by merging their orders. -/
theorem mergeSort_append (xs ys : List α) :
    (xs ++ ys).mergeSort ahead = (xs.mergeSort ahead).merge (ys.mergeSort ahead) ahead := by
  have hxs := List.pairwise_mergeSort trans total xs
  have hys := List.pairwise_mergeSort trans total ys
  apply eq_of_filter_tied total
  · exact List.pairwise_mergeSort trans total _
  · exact List.pairwise_merge trans total _ _ hxs hys
  · intro a
    rw [filter_tied_mergeSort trans total, filter_tied_merge trans total a hxs hys, filter_tied_mergeSort trans total,
      filter_tied_mergeSort trans total, List.filter_append]

/-- The first elements of a list in order are in order. -/
theorem mergeSort_take_mergeSort (list : List α) (count : ℕ) :
    ((list.mergeSort ahead).take count).mergeSort ahead = (list.mergeSort ahead).take count :=
  List.mergeSort_of_pairwise ((List.pairwise_mergeSort trans total list).sublist (List.take_sublist _ _))

/-- The first elements of two lists in one are the first ones among the first ones of each. -/
theorem take_mergeSort_append (xs ys : List α) (count : ℕ) :
    ((xs ++ ys).mergeSort ahead).take count =
      (((xs.mergeSort ahead).take count ++ (ys.mergeSort ahead).take count).mergeSort ahead).take count := by
  rw [mergeSort_append trans total, mergeSort_append trans total, mergeSort_take_mergeSort trans total,
    mergeSort_take_mergeSort trans total]
  exact take_merge _ _ le_rfl le_rfl

end Ordered

end FlightPlanner.Ranking
