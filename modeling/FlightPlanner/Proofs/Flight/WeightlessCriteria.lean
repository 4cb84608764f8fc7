import FlightPlanner.Proofs.Binary64.Zeros
import FlightPlanner.Proofs.Flight.DurationGrammar
import FlightPlanner.Proofs.Flight.Monotonicity

/-!
# Criteria that weigh nothing

A criterion whose weight is zero has no part in the score: whatever it earns is finite, comes to a zero when it is
weighed, and adds nothing. Two criteria may earn something that is not finite, and no zero comes of that. A rating
that is not a number is accepted and earns what is not a number, and digits without end behind a minus sign are a
magnitude of minus infinity, which earns an infinity. A flight with such a criterion scores nothing.
-/

namespace FlightPlanner

open Binary64

/-- What a flight is scored by. -/
inductive Criterion where
  /-- The price. -/
  | price
  /-- The duration. -/
  | duration
  /-- The safety rating. -/
  | safetyRating
  /-- The number of stops. -/
  | stops
  /-- The number of layovers. -/
  | layovers
deriving DecidableEq, Repr

/-- The weight of a criterion. -/
def Weights.weightOf (weights : Weights) : Criterion → UInt8
  | .price => weights.cost
  | .duration => weights.time
  | .safetyRating => weights.safety
  | .stops => weights.comfort
  | .layovers => weights.layoverSensitivity

/-- A flight with one criterion as another flight has it. -/
def Flight.borrow (flight other : Flight) : Criterion → Flight
  | .price => { flight with price := other.price }
  | .duration => { flight with duration := other.duration }
  | .safetyRating => { flight with safetyRating := other.safetyRating }
  | .stops => { flight with stops := other.stops }
  | .layovers => { flight with layovers := other.layovers }

/-- Two flights differ in one criterion at most: with it, the first one is the second one. -/
def Flight.AgreesBesides (criterion : Criterion) (flight other : Flight) : Prop :=
  flight.borrow other criterion = other

/-- A criterion is not one of the two that earn what is not finite. -/
def Flight.Weighable (flight : Flight) : Criterion → Prop
  | .duration => Duration.magnitude? flight.duration ≠ some (infinity true)
  | .safetyRating => flight.safetyRating.isNaN = false
  | _ => True

/-- A magnitude that is not finite is one of the infinities. -/
theorem Duration.magnitude?_cases {label : String} {magnitude : Float} (h : magnitude? label = some magnitude) :
    magnitude.isFinite = true ∨ magnitude = infinity false ∨ magnitude = infinity true := by
  obtain ⟨n, -, x, hround, rfl⟩ := (magnitude?_eq_some_iff label magnitude).mp h
  obtain hover | hless := le_or_gt overflow (Decimal.ofDigits n.digits : ℚ)
  · rw [hround.infinite hover]
    cases n.sign.negative with
    | false => exact .inr (.inl rfl)
    | true => exact .inr (.inr (by decide))
  · exact .inl (isFinite_signed _ (hround.unsigned hless).isFinite)

namespace SubScores

/-- The part that a criterion earns. -/
def part (parts : SubScores) : Criterion → Float
  | .price => parts.cost
  | .duration => parts.time
  | .safetyRating => parts.safety
  | .stops => parts.comfort
  | .layovers => parts.layover

/-- What another criterion earns does not change with a criterion. -/
theorem part_borrow {criterion earning : Criterion} (h : earning ≠ criterion) (flight other : Flight) :
    (ofFlight (flight.borrow other criterion)).part earning = (ofFlight flight).part earning := by
  cases criterion <;> cases earning <;>
    first | exact absurd rfl h | simp only [Flight.borrow, ofFlight, part]

/-- What a criterion earns is finite for a flight that keeps its ranges, if the criterion is weighable. -/
theorem isFinite_part {flight : Flight} (h : flight.KeepsRanges) {criterion : Criterion}
    (hweighable : flight.Weighable criterion) : ((ofFlight flight).part criterion).isFinite = true := by
  have hbounded : ∀ {x : Float}, Within 100 (atLeastZero x) → (atLeastZero x).isFinite = true := fun hx =>
    isFinite_of_within (by decide) hx (isNaN_of_le (atLeastZero_nonneg _)).2
  cases criterion with
  | price => exact hbounded (within_ofPrice h.price)
  | duration =>
    change (ofDuration flight.duration).isFinite = true
    unfold ofDuration
    split
    · next magnitude hmagnitude =>
      rcases Duration.magnitude?_cases hmagnitude with hfinite | rfl | rfl
      · exact isFinite_ofMagnitude hfinite
      · decide
      · exact absurd hmagnitude hweighable
    · decide
  | safetyRating =>
    have hrating : Within 5 flight.safetyRating := h.safetyRating
    rcases hrating.cases (by decide) with hnan | ⟨hfinite, -⟩
    · rw [show flight.safetyRating.isNaN = false from hweighable] at hnan
      contradiction
    · exact isFinite_of_within (by decide) (within_ofSafety h.safetyRating) (standsAt_mul hfinite (by decide)).1
  | stops =>
    change (ofStops flight.stops).isFinite = true
    have hrise := rises_ofStops (UInt32.le_refl flight.stops)
    exact hrise.2.2
  | layovers => exact hbounded (within_ofLayovers flight.layovers)

/-- What a criterion that is not weighable earns comes to no number when its weight is zero. -/
theorem isNaN_part_mul_zero {flight : Flight} {criterion : Criterion} (h : ¬ flight.Weighable criterion) :
    ((ofFlight flight).part criterion * 0).isNaN = true := by
  cases criterion with
  | duration =>
    have hmagnitude : Duration.magnitude? flight.duration = some (infinity true) := not_not.mp h
    change (ofDuration flight.duration * 0).isNaN = true
    rw [ofDuration, hmagnitude]
    decide +kernel
  | safetyRating =>
    have hrating : flight.safetyRating.isNaN = true := Bool.not_eq_false _ ▸ h
    exact isNaN_mul (.inl (isNaN_mul (.inl hrating)))
  | price => exact absurd trivial h
  | stops => exact absurd trivial h
  | layovers => exact absurd trivial h

/-- The weighed parts are added up criterion by criterion. -/
theorem weighed_eq (parts : SubScores) (weights : Weights) :
    parts.weighed weights =
      parts.part .price * (weights.weightOf .price).toFloat + parts.part .duration * (weights.weightOf .duration).toFloat +
        parts.part .safetyRating * (weights.weightOf .safetyRating).toFloat +
        parts.part .stops * (weights.weightOf .stops).toFloat +
        parts.part .layovers * (weights.weightOf .layovers).toFloat := rfl

/-- Where each part comes to the like when it is weighed, so does the sum. -/
theorem alike_weighed {parts others : SubScores} {weights : Weights}
    (h : ∀ criterion, Alike (parts.part criterion * (weights.weightOf criterion).toFloat)
      (others.part criterion * (weights.weightOf criterion).toFloat)) :
    Alike (parts.weighed weights) (others.weighed weights) := by
  rw [weighed_eq, weighed_eq]
  exact ((((h .price).add (h .duration)).add (h .safetyRating)).add (h .stops)).add (h .layovers)

/-- Where one part comes to no number when it is weighed, the sum is none. -/
theorem isNaN_weighed {parts : SubScores} {weights : Weights} {criterion : Criterion}
    (h : (parts.part criterion * (weights.weightOf criterion).toFloat).isNaN = true) :
    (parts.weighed weights).isNaN = true := by
  rw [weighed_eq]
  cases criterion with
  | price => exact isNaN_add (.inl (isNaN_add (.inl (isNaN_add (.inl (isNaN_add (.inl h)))))))
  | duration => exact isNaN_add (.inl (isNaN_add (.inl (isNaN_add (.inl (isNaN_add (.inr h)))))))
  | safetyRating => exact isNaN_add (.inl (isNaN_add (.inl (isNaN_add (.inr h)))))
  | stops => exact isNaN_add (.inl (isNaN_add (.inr h)))
  | layovers => exact isNaN_add (.inr h)

end SubScores

namespace Flight

/-- Flights whose weighed parts are alike have the same score. -/
theorem score_eq_of_alike {flight other : Flight} {weights : Weights}
    (h : Alike ((SubScores.ofFlight flight).weighed weights) ((SubScores.ofFlight other).weighed weights)) :
    flight.score weights = other.score weights := by
  have hmean := (h.div (z := 100) (by decide) (by decide)).div (z := 5) (by decide) (by decide)
  rw [score, score, hmean.nearestNat_eq]

/-- A flight whose weighed parts come to no number scores nothing. -/
theorem score_eq_zero_of_isNaN {flight : Flight} {weights : Weights}
    (h : ((SubScores.ofFlight flight).weighed weights).isNaN = true) : flight.score weights = 0 := by
  have hmean : ((SubScores.ofFlight flight).weighed weights / 100 / 5).isNaN = true :=
    isNaN_div (.inl (isNaN_div (.inl h)))
  rw [score, nearestNat, view, unpack_of_isNaN hmean]
  rfl

/-- Two flights that keep their ranges and differ only in a criterion without weight have the same score, as long as
the criterion is weighable in both; where it is not, the flight scores nothing. -/
theorem score_of_weightless {flight other : Flight} {weights : Weights} {criterion : Criterion}
    (hflight : flight.KeepsRanges) (hother : other.KeepsRanges) (h : flight.AgreesBesides criterion other)
    (hweight : weights.weightOf criterion = 0) :
    (flight.Weighable criterion → other.Weighable criterion → flight.score weights = other.score weights) ∧
      (¬ flight.Weighable criterion → flight.score weights = 0) ∧
      (¬ other.Weighable criterion → other.score weights = 0) := by
  have hzero : (0 : UInt8).toFloat = 0 := by decide
  have hnothing : ∀ {flight : Flight}, ¬ flight.Weighable criterion → flight.score weights = 0 := by
    intro flight hunweighable
    have hpart : ((SubScores.ofFlight flight).part criterion * (weights.weightOf criterion).toFloat).isNaN = true := by
      rw [hweight, hzero]
      exact SubScores.isNaN_part_mul_zero hunweighable
    exact score_eq_zero_of_isNaN (SubScores.isNaN_weighed hpart)
  refine ⟨fun hweighable hweighable' => score_eq_of_alike (SubScores.alike_weighed fun earning => ?_), hnothing,
    hnothing⟩
  by_cases hearning : earning = criterion
  · subst hearning
    have hstands : ∀ {flight : Flight}, flight.KeepsRanges → flight.Weighable earning →
        StandsAt ((SubScores.ofFlight flight).part earning * (weights.weightOf earning).toFloat) 0 := by
      intro flight hkeeps hweighable
      rw [hweight, hzero]
      exact standsAt_mul_zero (SubScores.isFinite_part hkeeps hweighable) standsAt_ofNat_zero
    exact .inr ⟨hstands hflight hweighable, hstands hother hweighable'⟩
  · have hsame := SubScores.part_borrow hearning flight other
    rw [show flight.borrow other criterion = other from h] at hsame
    rw [hsame]
    exact .refl _

/-- A duration that counts for nothing may be five hours below zero or be missing. -/
theorem score_of_weightless_duration :
    let flight : Flight := ⟨none, none, none, none, 200, "-5h", 1, 0, 4⟩
    let other : Flight := { flight with duration := "unknown" }
    let weights : Weights := ⟨70, 0, 90, 50, 40⟩
    flight.score weights = 38 ∧ flight.score weights = other.score weights := by
  intro flight other weights
  have hflight : flight.KeepsRanges := ⟨by decide, by decide⟩
  have hother : other.KeepsRanges := ⟨by decide, by decide⟩
  have hweighable : flight.Weighable .duration := by
    change Duration.magnitude? "-5h" ≠ _
    decide +kernel
  have hweighable' : other.Weighable .duration := by
    change Duration.magnitude? "unknown" ≠ _
    decide +kernel
  have hagrees : flight.AgreesBesides .duration other := rfl
  exact ⟨by decide +kernel, (score_of_weightless hflight hother hagrees rfl).1 hweighable hweighable'⟩

/-- Digits without end behind a minus sign, and a rating that is not a number, take away the whole score, although
their weight is zero. -/
theorem score_of_weightless_lost :
    let flight : Flight := ⟨none, none, none, none, 0, "5h", 0, 0, 5⟩
    let endless : Flight := { flight with duration := String.ofList ('-' :: List.replicate 309 '9') }
    let unrated : Flight := { flight with safetyRating := nan }
    (flight.KeepsRanges ∧ endless.KeepsRanges ∧ flight.AgreesBesides .duration endless ∧
      flight.score ⟨100, 0, 100, 100, 100⟩ = 80 ∧ endless.score ⟨100, 0, 100, 100, 100⟩ = 0) ∧
    (unrated.KeepsRanges ∧ flight.AgreesBesides .safetyRating unrated ∧
      flight.score ⟨100, 100, 0, 100, 100⟩ = 80 ∧ unrated.score ⟨100, 100, 0, 100, 100⟩ = 0) := by
  intro flight endless unrated
  have hmagnitude : Duration.magnitude? endless.duration = some (infinity true) := by
    rw [Duration.magnitude?, String.toList_ofList]
    decide +kernel
  have hpart : ((SubScores.ofFlight endless).part .duration * 0).isNaN = true :=
    SubScores.isNaN_part_mul_zero (not_not.mpr hmagnitude)
  have hlost : endless.score ⟨100, 0, 100, 100, 100⟩ = 0 :=
    score_eq_zero_of_isNaN (SubScores.isNaN_weighed hpart)
  exact ⟨⟨⟨by decide, by decide⟩, ⟨by decide, by decide⟩, rfl, by decide +kernel, hlost⟩,
    ⟨by decide, by decide⟩, rfl, by decide +kernel, by decide +kernel⟩

end Flight

end FlightPlanner
