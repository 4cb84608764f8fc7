import FlightPlanner.Planning.Planner
import FlightPlanner.Proofs.Ranking.StableOrder
import FlightPlanner.Proofs.Validation.Ranges

/-!
# What a flight search answers

A search is answered exactly when it keeps the declared ranges. Its answer lists the flights that its filters
admit, each once for every time it was offered, with its score and otherwise unchanged: the best first, and of
two flights with one score the one that was offered earlier.
-/

namespace FlightPlanner

open Ranking Validation

/-- A request is answered exactly when there is nothing to complain about and there is an answer. -/
theorem Planner.checked_eq_ok_iff {α : Type} {complaints : Forest} {answer : Except PlannerError α} {a : α} :
    Planner.checked complaints answer = .ok a ↔ complaints = [] ∧ answer = .ok a := by
  cases complaints <;> simp [Planner.checked]

/-- A request whose answer cannot fail fails exactly when there is something to complain about, and with that. -/
theorem Planner.checked_eq_error_iff {α : Type} {complaints : Forest} {a : α} {error : PlannerError} :
    Planner.checked complaints (.ok a) = .error error ↔ complaints ≠ [] ∧ error = .outOfRange complaints := by
  cases complaints <;> simp [Planner.checked, eq_comm]

/-- What each bound of some filters asks of a flight. -/
@[mk_iff]
structure Filters.Admits (filters : Filters) (flight : Flight) : Prop where
  /-- It goes without a stop where that is wanted. -/
  direct : filters.directOnly = true → flight.stops = 0
  /-- Its price is not above the greatest one. -/
  price : ∀ greatest ∈ filters.maxPrice, ¬ greatest < flight.price
  /-- It stops at most as often as wanted. -/
  stops : ∀ greatest ∈ filters.maxStops, flight.stops ≤ greatest
  /-- Its rating is not below the least one. -/
  safetyRating : ∀ least ∈ filters.minSafetyRating, ¬ flight.safetyRating < least

/-- A present bound is crossed by what is beyond it, an absent one by nothing. -/
theorem crosses_eq_false_iff {α : Type} {bound : Option α} {beyond : α → Bool} :
    crosses bound beyond = false ↔ ∀ limit ∈ bound, beyond limit = false := by
  cases bound <;> simp [crosses]

/-- The filters pass exactly the flights that every bound admits. -/
theorem Filters.passes_iff {filters : Filters} {flight : Flight} :
    filters.passes flight = true ↔ filters.Admits flight := by
  rw [admits_iff]
  simp [Filters.passes, Flight.isDirect, crosses_eq_false_iff, and_assoc, imp_iff_not_or]

/-- A score that may stand before one that may stand before a third may stand before the third. -/
theorem ScoredFlight.ahead_trans (a b c : ScoredFlight) (hab : a.ahead b) (hbc : b.ahead c) : a.ahead c := by
  simp only [ScoredFlight.ahead, decide_eq_true_eq] at hab hbc ⊢
  exact UInt32.le_trans hbc hab

/-- Of two scored flights one may stand before the other. -/
theorem ScoredFlight.ahead_total (a b : ScoredFlight) : a.ahead b || b.ahead a := by
  simp only [ScoredFlight.ahead, Bool.or_eq_true, decide_eq_true_eq]
  exact UInt32.le_total b.score a.score

/-- Flights are ranked as they are put in order by their scores before these are written beside them. -/
theorem rankFlights_eq_map (weights : Weights) (flights : List Flight) :
    rankFlights weights flights =
      (flights.mergeSort fun a b => (ScoredFlight.of weights a).ahead (.of weights b)).map (.of weights) := by
  rw [rankFlights, List.map_mergeSort (s := ScoredFlight.ahead) (fun _ _ _ _ => rfl)]

/-- The ranking of the flights that pass some filters visits the places of the offered flights: every place of
a flight that is admitted once, greater scores first, and equal scores in the order of the offers. -/
theorem exists_places_rankFlights (weights : Weights) (filters : Filters) (offered : List Flight) :
    ∃ places : List (Fin offered.length), places.Nodup ∧ (∀ i, i ∈ places ↔ filters.Admits offered[i]) ∧
      rankFlights weights (offered.filter filters.passes) =
        places.map (fun i => ⟨offered[i], offered[i].score weights⟩) ∧
      places.Pairwise fun i j => offered[j].score weights ≤ offered[i].score weights ∧
        (offered[i].score weights = offered[j].score weights → i < j) := by
  obtain ⟨places, hnodup, hmem, hranked, hbefore⟩ :=
    exists_places (fun a b => (ScoredFlight.of weights a).ahead (.of weights b))
      (fun _ _ _ => ScoredFlight.ahead_trans _ _ _) (fun _ _ => ScoredFlight.ahead_total _ _)
      filters.passes offered
  refine ⟨places, hnodup, fun i => (hmem i).trans Filters.passes_iff, ?_, hbefore.imp ?_⟩
  · rw [rankFlights_eq_map, hranked, List.map_map]
    rfl
  · intro i j ⟨hahead, htie⟩
    exact ⟨of_decide_eq_true hahead, fun heq => htie (decide_eq_true (UInt32.le_of_eq heq))⟩

/-- A flight search is answered exactly when every field with a declared range keeps it. The answer lists the
flights that the filters admit under the priorities of the search, or else under the planner's own weights:
each with its score, none lost, added or changed, the scores never rising, and flights of one score in the order
in which they were offered. The counts are those of the listed and of the offered flights. -/
theorem Planner.searchFlights_exact (planner : Planner) (search : FlightSearch) :
    ((∃ results, planner.searchFlights search = .ok results) ↔ search.KeepsRanges) ∧
      ∀ results, planner.searchFlights search = .ok results →
        let weights := search.priorities.getD planner.weights
        let offered := search.flights
        results.flights.Perm
            ((offered.filter search.filters.passes).map fun flight => ⟨flight, flight.score weights⟩) ∧
          results.flights.Pairwise (fun a b => b.score ≤ a.score) ∧
          (∃ places : List (Fin offered.length), places.Nodup ∧
            (∀ i, i ∈ places ↔ search.filters.Admits offered[i]) ∧
            results.flights = places.map (fun i => ⟨offered[i], offered[i].score weights⟩) ∧
            places.Pairwise fun i j => offered[i].score weights = offered[j].score weights → i < j) ∧
          results.totalResults = .ofNat results.flights.length ∧
          results.totalCandidates = .ofNat offered.length ∧
          (offered.length < UInt64.size → results.totalResults.toNat = results.flights.length ∧
            results.totalCandidates.toNat = offered.length) := by
  constructor
  · simp only [Planner.searchFlights, checked_eq_ok_iff, FlightSearch.complaints_eq_nil_iff]
    exact ⟨fun ⟨_, h, _⟩ => h, fun h => ⟨_, h, rfl⟩⟩
  · intro results h weights offered
    obtain ⟨-, hanswer⟩ := checked_eq_ok_iff.mp h
    obtain rfl := Except.ok.inj hanswer
    obtain ⟨places, hnodup, hmem, hranked, hbefore⟩ :=
      exists_places_rankFlights weights search.filters offered
    have hperm : (planner.rank search).Perm
        ((offered.filter search.filters.passes).map fun flight => ⟨flight, flight.score weights⟩) :=
      List.mergeSort_perm _ _
    have hlength : (planner.rank search).length ≤ offered.length := by
      rw [hperm.length_eq, List.length_map]
      exact List.length_filter_le _ _
    refine ⟨hperm, ?_, ⟨places, hnodup, hmem, hranked, hbefore.imp And.right⟩, rfl, rfl, fun hfits => ?_⟩
    · rw [show planner.rank search = _ from hranked, List.pairwise_map]
      exact hbefore.imp And.left
    · exact ⟨UInt64.toNat_ofNat_of_lt' (Nat.lt_of_le_of_lt hlength hfits), UInt64.toNat_ofNat_of_lt' hfits⟩

end FlightPlanner
