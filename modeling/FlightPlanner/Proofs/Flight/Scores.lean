import FlightPlanner.Proofs.Binary64.Bounds
import FlightPlanner.Proofs.Planning.FlightSearch

/-!
# How far scores reach

Every part of a score is within a hundred for a flight that keeps its ranges, with one exception: a duration
whose magnitude is below zero adds to the hundred instead of taking away from it. Without such a duration the
score of a flight is at most that of the flight with every part and every weight at a hundred.
-/

namespace FlightPlanner

open Binary64

namespace SubScores

/-- Every part is within a hundred. -/
structure KeepsRange (parts : SubScores) : Prop where
  /-- The one for the price. -/
  cost : Within 100 parts.cost
  /-- The one for the duration. -/
  time : Within 100 parts.time
  /-- The one for the safety rating. -/
  safety : Within 100 parts.safety
  /-- The one for the stops. -/
  comfort : Within 100 parts.comfort
  /-- The one for the layovers. -/
  layover : Within 100 parts.layover

/-- Every part at a hundred. -/
def full : SubScores := ⟨100, 100, 100, 100, 100⟩

/-- What is left of a hundred is within it. -/
theorem within_deduction {deduction : Float} (h : ¬ deduction < 0) : Within 100 (atLeastZero (100 - deduction)) :=
  within_atLeastZero_sub (by decide) (by decide) h

/-- A price that is not below zero earns a part within a hundred. -/
theorem within_ofPrice {price : Float} (h : ¬ price < 0) : Within 100 (ofPrice price) :=
  within_deduction (not_neg_div (by decide) (by decide) h)

/-- A duration earns a part within a hundred, unless its magnitude is below zero. -/
theorem within_ofDuration {label : String} (h : ∀ magnitude ∈ Duration.magnitude? label, ¬ magnitude < 0) :
    Within 100 (ofDuration label) := by
  unfold ofDuration
  split
  · next magnitude hmagnitude => exact within_deduction (not_neg_div (by decide) (by decide) (h magnitude hmagnitude))
  · exact ⟨by decide, by decide⟩

/-- A rating up to five earns a part within a hundred. -/
theorem within_ofSafety {rating : Float} (h : ¬ rating < 0 ∧ ¬ 5 < rating) : Within 100 (ofSafety rating) := by
  have hfull : (100 : Float) = 5 * 20 := by decide +kernel
  have hrating : Within 5 rating := h
  rw [ofSafety, hfull]
  exact hrating.mul (by decide) (by decide) ⟨by decide, by decide⟩

/-- A counter is within the greatest one. -/
theorem within_toFloat_uint32 (n : UInt32) : Within (4294967295 : UInt32).toFloat n.toFloat :=
  within_of_standsAt (standsAt_toFloat_uint32 n) (standsAt_toFloat_uint32 _) (Nat.cast_nonneg _)
    (by exact_mod_cast Nat.le_of_lt_succ n.toNat_lt)

/-- Stops earn a part within a hundred. -/
theorem within_ofStops (stops : UInt32) : Within 100 (ofStops stops) := by
  unfold ofStops
  split
  · exact ⟨by decide, by decide⟩
  · have hstop : Within 30 30 := ⟨by decide, by decide⟩
    exact within_deduction ((within_toFloat_uint32 stops).mul (by decide) (by decide) hstop).1

/-- Layovers earn a part within a hundred. -/
theorem within_ofLayovers (layovers : UInt32) : Within 100 (ofLayovers layovers) := by
  have hlayover : Within 25 25 := ⟨by decide, by decide⟩
  exact within_deduction ((within_toFloat_uint32 layovers).mul (by decide) (by decide) hlayover).1

/-- The parts of a flight that keeps its ranges are within a hundred, unless its duration is below zero. -/
theorem keepsRange_ofFlight {flight : Flight} (h : flight.KeepsRanges)
    (hduration : ∀ magnitude ∈ Duration.magnitude? flight.duration, ¬ magnitude < 0) :
    (ofFlight flight).KeepsRange where
  cost := within_ofPrice h.price
  time := within_ofDuration hduration
  safety := within_ofSafety h.safetyRating
  comfort := within_ofStops flight.stops
  layover := within_ofLayovers flight.layovers

/-- A weight up to a hundred is within a hundred. -/
theorem within_toFloat_weight {weight : UInt8} (h : weight ≤ 100) : Within 100 weight.toFloat := by
  have hfull : (100 : Float) = (100 : UInt8).toFloat := by decide
  have hnat : weight.toNat ≤ (100 : UInt8).toNat := UInt8.le_iff_toNat_le.1 h
  rw [hfull]
  exact within_of_standsAt (standsAt_toFloat_uint8 weight) (standsAt_toFloat_uint8 100) (Nat.cast_nonneg _)
    (by exact_mod_cast hnat)

/-- What all parts and all weights at a hundred weigh. -/
theorem weighed_full : full.weighed (.uniform 100) = 50000 := by decide +kernel

/-- Parts and weights within a hundred weigh no more than all of them at a hundred. -/
theorem KeepsRange.within_weighed {parts : SubScores} {weights : Weights} (h : parts.KeepsRange)
    (hweights : weights.KeepsRanges) : Within 50000 (parts.weighed weights) := by
  have hpart : ∀ {part : Float} {weight : UInt8}, Within 100 part → weight ≤ 100 →
      Within (100 * (100 : UInt8).toFloat) (part * weight.toFloat) :=
    fun hpart hweight => hpart.mul (by decide) (by decide) (within_toFloat_weight hweight)
  have hcost := hpart h.cost hweights.cost
  have htime := hpart h.time hweights.time
  have hsafety := hpart h.safety hweights.safety
  have hcomfort := hpart h.comfort hweights.comfort
  have hlayover := hpart h.layover hweights.layoverSensitivity
  have htwo := hcost.add (by decide) (by decide) htime
  have hthree := htwo.add (by decide) (by decide) hsafety
  have hfour := hthree.add (by decide) (by decide) hcomfort
  rw [← weighed_full]
  exact hfour.add (by decide) (by decide) hlayover

end SubScores

/-- A flight that keeps its ranges scores at most a hundred under weights up to a hundred, unless its duration is
below zero. -/
theorem Flight.score_le {flight : Flight} {weights : Weights} (h : flight.KeepsRanges) (hweights : weights.KeepsRanges)
    (hduration : ∀ magnitude ∈ Duration.magnitude? flight.duration, ¬ magnitude < 0) :
    flight.score weights ≤ 100 := by
  have hweighed := (SubScores.keepsRange_ofFlight h hduration).within_weighed hweights
  have hhundredth := hweighed.div (y := 100) (by decide) (by decide) (by decide)
  have hmean := hhundredth.div (y := 5) (by decide) (by decide) (by decide)
  have hrounded := hmean.nearestNat_le (by decide) greatestScore
  have hfull : nearestNat greatestScore (50000 / 100 / 5) = 100 := by decide +kernel
  rw [hfull] at hrounded
  have hfits : nearestNat greatestScore ((SubScores.ofFlight flight).weighed weights / 100 / 5) < UInt32.size :=
    hrounded.trans_lt (by decide)
  rw [UInt32.le_iff_toNat_le, Flight.score, UInt32.toNat_ofNat_of_lt' hfits]
  exact hrounded

/-- Under a planner's weights up to a hundred, every flight listed in an answer scores at most a hundred, unless its
duration is below zero. -/
theorem Planner.searchFlights_score_le {planner : Planner} {search : FlightSearch} {results : FlightResults}
    (hweights : planner.weights.KeepsRanges) (h : planner.searchFlights search = .ok results) :
    ∀ scored ∈ results.flights,
      (∀ magnitude ∈ Duration.magnitude? scored.flight.duration, ¬ magnitude < 0) → scored.score ≤ 100 := by
  obtain ⟨hcomplaints, hanswer⟩ := checked_eq_ok_iff.1 h
  have hkeeps := FlightSearch.complaints_eq_nil_iff.1 hcomplaints
  obtain rfl := Except.ok.inj hanswer
  intro scored hscored hduration
  have hperm : (planner.rank search).Perm
      ((search.flights.filter search.filters.passes).map (ScoredFlight.of (planner.weightsFor search))) :=
    List.mergeSort_perm _ _
  obtain ⟨flight, hflight, rfl⟩ := List.mem_map.1 (hperm.mem_iff.1 hscored)
  have hused : (planner.weightsFor search).KeepsRanges := by
    unfold Planner.weightsFor
    cases hown : search.priorities with
    | none => exact hweights
    | some weights => exact hkeeps.priorities weights hown
  exact Flight.score_le (hkeeps.flights flight (List.mem_filter.1 hflight).1) hused hduration

/-- A search for one flight that its filters pass answers with this flight and its score. -/
theorem Planner.searchFlights_singleton {planner : Planner} {search : FlightSearch} {flight : Flight}
    (hflights : search.flights = [flight]) (hcomplaints : search.complaints = [])
    (hpasses : search.filters.passes flight = true) :
    planner.searchFlights search = .ok ⟨[.of (planner.weightsFor search) flight], 1, 1⟩ := by
  have hrank : planner.rank search = [.of (planner.weightsFor search) flight] := by
    rw [Planner.rank, hflights, List.filter_singleton, hpasses]
    exact List.mergeSort_singleton _
  refine checked_eq_ok_iff.2 ⟨hcomplaints, ?_⟩
  rw [hrank, hflights]
  rfl

/-- A flight of five hours for two hundred scores at most a hundred. -/
theorem Planner.searchFlights_score_le_five_hours :
    let flight : Flight := ⟨none, none, none, none, 200, "5h 15m", 0, 0, 4⟩
    let planner : Planner := ⟨.uniform 100, 5, 50⟩
    planner.searchFlights ⟨[flight], none, .none⟩ = .ok ⟨[.of (.uniform 100) flight], 1, 1⟩ ∧
      flight.score (.uniform 100) ≤ 100 := by
  intro flight planner
  have hanswer : planner.searchFlights ⟨[flight], none, .none⟩ = .ok ⟨[.of (.uniform 100) flight], 1, 1⟩ :=
    searchFlights_singleton rfl (by decide +kernel) (by decide +kernel)
  have hweights : planner.weights.KeepsRanges := ⟨by decide, by decide, by decide, by decide, by decide⟩
  exact ⟨hanswer, searchFlights_score_le hweights hanswer _ (List.mem_singleton_self _) (by decide +kernel)⟩

/-- A duration below zero lets a flight score more than a hundred. -/
theorem Planner.searchFlights_score_exceeds :
    let flight : Flight := ⟨none, none, none, none, 0, "-5h", 0, 0, 5⟩
    let planner : Planner := ⟨.uniform 100, 5, 50⟩
    planner.weights.KeepsRanges ∧
      planner.searchFlights ⟨[flight], none, .none⟩ = .ok ⟨[⟨flight, 101⟩], 1, 1⟩ := by
  intro flight planner
  have hscore : flight.score (.uniform 100) = 101 := by decide +kernel
  refine ⟨⟨by decide, by decide, by decide, by decide, by decide⟩, ?_⟩
  rw [searchFlights_singleton rfl (by decide +kernel) (by decide +kernel), ← hscore]
  rfl

end FlightPlanner
