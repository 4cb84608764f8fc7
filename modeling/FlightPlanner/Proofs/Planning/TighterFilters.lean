import FlightPlanner.Proofs.Binary64.Intervals
import FlightPlanner.Proofs.Planning.FlightSearch
import FlightPlanner.Proofs.Ranking.Parts
import FlightPlanner.Proofs.Results

/-!
# Tighter filters only remove flights

Filters that rule out at least as much as others admit only flights that these admit. As flights may just as well be
ranked before they are filtered, the ranking under the tighter filters is what is left of the ranking under the looser
ones: the same flights with the same scores in the same order, less those that are ruled out.
-/

namespace FlightPlanner

open Binary64 Ranking

/-- One choice of filters is at least as strict as another one. A bound of the other one that is not a number need not
be matched, as it rules nothing out, and wanting only flights without a stop is a bound of no stops. -/
structure Filters.AtLeastAsStrictAs (filters others : Filters) : Prop where
  /-- A greatest price is matched by one that is not above it. -/
  maxPrice : ∀ price ∈ others.maxPrice, price.isNaN = true ∨ ∃ lower ∈ filters.maxPrice, lower ≤ price
  /-- A greatest number of stops is matched by one that is not above it. -/
  maxStops : ∀ stops ∈ others.maxStops, filters.directOnly = true ∨ ∃ fewer ∈ filters.maxStops, fewer ≤ stops
  /-- A least rating is matched by one that is not below it. -/
  minSafetyRating : ∀ rating ∈ others.minSafetyRating,
    rating.isNaN = true ∨ ∃ higher ∈ filters.minSafetyRating, rating ≤ higher
  /-- Where only flights without a stop are wanted, they are here too, or no stops are the greatest number. -/
  directOnly : others.directOnly = true → filters.directOnly = true ∨ 0 ∈ filters.maxStops

/-- What stricter filters admit is admitted by looser ones. -/
theorem Filters.AtLeastAsStrictAs.admits {filters others : Filters} (h : filters.AtLeastAsStrictAs others)
    {flight : Flight} (hadmits : filters.Admits flight) : others.Admits flight where
  direct hdirect := by
    rcases h.directOnly hdirect with hown | hnone
    · exact hadmits.direct hown
    · exact UInt32.le_zero_iff.mp (hadmits.stops 0 hnone)
  price price hprice hover := by
    rcases h.maxPrice price hprice with hnan | ⟨lower, hlower, hle⟩
    · rw [(isNaN_of_lt hover).1] at hnan
      contradiction
    · exact hadmits.price lower hlower (lt_of_le_of_lt_number hle hover)
  stops stops hstops := by
    rcases h.maxStops stops hstops with hown | ⟨fewer, hfewer, hle⟩
    · rw [hadmits.direct hown]
      exact UInt32.zero_le
    · exact UInt32.le_trans (hadmits.stops fewer hfewer) hle
  safetyRating rating hrating hunder := by
    rcases h.minSafetyRating rating hrating with hnan | ⟨higher, hhigher, hle⟩
    · rw [(isNaN_of_lt hunder).2] at hnan
      contradiction
    · exact hadmits.safetyRating higher hhigher (lt_of_lt_of_le_number hunder hle)

/-- Flights may be filtered before they are ranked or behind it. -/
theorem rankFlights_filter (weights : Weights) (filters : Filters) (flights : List Flight) :
    rankFlights weights (flights.filter filters.passes) =
      (rankFlights weights flights).filter fun scored => filters.passes scored.flight := by
  rw [rankFlights, rankFlights, ← mergeSort_filter ScoredFlight.ahead_trans ScoredFlight.ahead_total, List.filter_map]
  rfl

/-- Filters that are at least as strict leave some of the ranked flights, as they stand. -/
theorem rankFlights_sublist (weights : Weights) {filters others : Filters} (h : filters.AtLeastAsStrictAs others)
    (flights : List Flight) :
    (rankFlights weights (flights.filter filters.passes)).Sublist
      (rankFlights weights (flights.filter others.passes)) := by
  have hpasses : ∀ flight, filters.passes flight = true → others.passes flight = true :=
    fun flight hpass => Filters.passes_iff.mpr (h.admits (Filters.passes_iff.mp hpass))
  rw [rankFlights_filter, rankFlights_filter]
  exact List.monotone_filter_right _ fun scored => hpasses scored.flight

/-- Of two answered searches for the same flights under the same priorities, the one whose filters are at least as
strict lists some of the flights that the other one lists, with their scores and in their order. Any filters may be put
before the ranking or behind it. -/
theorem Planner.searchFlights_sublist (planner : Planner) :
    (∀ (search other : FlightSearch) (results others : FlightResults), search.flights = other.flights →
        search.priorities = other.priorities → search.filters.AtLeastAsStrictAs other.filters →
        planner.searchFlights search = .ok results → planner.searchFlights other = .ok others →
        results.flights.Sublist others.flights) ∧
      ∀ (weights : Weights) (filters : Filters) (flights : List Flight),
        rankFlights weights (flights.filter filters.passes) =
          (rankFlights weights flights).filter fun scored => filters.passes scored.flight := by
  refine ⟨?_, rankFlights_filter⟩
  intro search other results others hflights hpriorities hstrict hsearch hother
  obtain rfl := Except.ok.inj (checked_eq_ok_iff.mp hsearch).2
  obtain rfl := Except.ok.inj (checked_eq_ok_iff.mp hother).2
  have hweights : planner.weightsFor search = planner.weightsFor other := by
    rw [weightsFor, weightsFor, hpriorities]
  change (planner.rank search).Sublist (planner.rank other)
  rw [rank, rank, hweights, hflights]
  exact rankFlights_sublist _ hstrict _

/-- A search among two offers, one with a stop and one without, under some filters. -/
def twoOffers (filters : Filters) : FlightSearch where
  flights := [⟨some "SK100", none, none, none, 250, "4h", 1, 1, 4⟩,
    ⟨some "SK200", none, none, none, 200, "3h", 0, 0, 4.5⟩]
  priorities := none
  filters := filters

/-- A bound of no stops and one on the price are at least as strict as the wish for flights without a stop and a bound
on the price that is not a number. -/
theorem Planner.searchFlights_sublist_two_offers :
    let filters : Filters := ⟨some 225, some 0, none, false⟩
    let others : Filters := ⟨some nan, none, none, true⟩
    filters.AtLeastAsStrictAs others ∧
      ∃ listed more, standard.searchFlights (twoOffers filters) = .ok listed ∧
        standard.searchFlights (twoOffers others) = .ok more ∧ listed.flights.Sublist more.flights := by
  intro filters others
  have hstrict : filters.AtLeastAsStrictAs others := by
    refine ⟨?_, fun _ => nofun, fun _ => nofun, fun _ => .inr rfl⟩
    rintro price ⟨rfl⟩
    exact .inl (by decide)
  obtain ⟨listed, hlisted⟩ : ∃ listed, standard.searchFlights (twoOffers filters) = .ok listed :=
    exists_eq_ok (by decide +kernel)
  obtain ⟨more, hmore⟩ : ∃ more, standard.searchFlights (twoOffers others) = .ok more :=
    exists_eq_ok (by decide +kernel)
  exact ⟨hstrict, listed, more, hlisted, hmore,
    (searchFlights_sublist standard).1 (twoOffers filters) (twoOffers others) _ _ rfl rfl hstrict hlisted hmore⟩

end FlightPlanner
