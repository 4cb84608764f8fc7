import FlightPlanner.Proofs.Binary64.Monotonicity
import FlightPlanner.Proofs.Flight.Scores

/-!
# Better flights score no less

Each part of a score grows, or stays, as the attribute behind it gets better, and every step from the parts to the score
keeps the order: weighing, adding, dividing down and rounding, the infinity included to which a great negative duration
may lead. So a flight that is at least as good in every respect never scores less, under weights that are no smaller.
-/

namespace FlightPlanner

open Binary64

/-- An amount and a finite one that is at least as great. -/
def Rises (x y : Float) : Prop := 0 ≤ x ∧ x ≤ y ∧ y.isFinite = true

/-- One choice of weights is nowhere above another one. -/
structure Weights.AtMost (weights others : Weights) : Prop where
  /-- The weight of a low price is not. -/
  cost : weights.cost ≤ others.cost
  /-- The weight of a short duration is not. -/
  time : weights.time ≤ others.time
  /-- The weight of the safety rating is not. -/
  safety : weights.safety ≤ others.safety
  /-- The weight of few stops is not. -/
  comfort : weights.comfort ≤ others.comfort
  /-- The weight of few layovers is not. -/
  layoverSensitivity : weights.layoverSensitivity ≤ others.layoverSensitivity

/-- One flight is at least as good as another one in every respect. Prices and ratings that are compared are numbers. -/
structure Flight.AtLeastAsGoodAs (flight other : Flight) : Prop where
  /-- It costs no more. -/
  price : flight.price ≤ other.price
  /-- Its rating is no lower. -/
  safetyRating : other.safetyRating ≤ flight.safetyRating
  /-- It stops no more often. -/
  stops : flight.stops ≤ other.stops
  /-- It has no more layovers. -/
  layovers : flight.layovers ≤ other.layovers
  /-- The duration of the other one has no magnitude, or its own one has one that is no greater. -/
  duration : Duration.magnitude? other.duration = none ∨
    ∃ magnitude greater, Duration.magnitude? flight.duration = some magnitude ∧
      Duration.magnitude? other.duration = some greater ∧ magnitude ≤ greater

namespace SubScores

/-- Every part of a score rises. -/
structure Rise (parts others : SubScores) : Prop where
  /-- The one for the price does. -/
  cost : Rises parts.cost others.cost
  /-- The one for the duration does. -/
  time : Rises parts.time others.time
  /-- The one for the safety rating does. -/
  safety : Rises parts.safety others.safety
  /-- The one for the stops does. -/
  comfort : Rises parts.comfort others.comfort
  /-- The one for the layovers does. -/
  layover : Rises parts.layover others.layover

/-- What is within a finite bound and is a number is finite. -/
theorem isFinite_of_within {high x : Float} (hhigh : high.isFinite = true) (h : Within high x)
    (hx : x.isNaN = false) : x.isFinite = true := by
  rcases h.cases hhigh with hnan | ⟨hfinite, -⟩
  · rw [hx] at hnan
    contradiction
  · exact hfinite

/-- A smaller finite deduction, after which not too much is left, leaves a part that is no smaller. -/
theorem rises_deduction {deduction greater : Float} (hdeduction : deduction.isFinite = true)
    (hgreater : greater.isFinite = true) (h : deduction ≤ greater)
    (hleft : (atLeastZero (100 - deduction)).isFinite = true) :
    Rises (atLeastZero (100 - greater)) (atLeastZero (100 - deduction)) :=
  ⟨atLeastZero_nonneg _, atLeastZero_mono (difference_le_difference (by decide) hdeduction hgreater h), hleft⟩

/-- A lower price earns no less. -/
theorem rises_ofPrice {price higher : Float} (hprice : 0 ≤ price) (h : price ≤ higher) :
    Rises (ofPrice higher) (ofPrice price) := by
  obtain ⟨hfifth, hfifths⟩ := quotient_le_quotient (z := 5) hprice h (by decide) (by decide)
  have hnumber := (isNaN_of_le hfifth).2
  have hpart : (ofPrice price).isFinite = true :=
    isFinite_of_within (by decide)
      (within_ofPrice ((not_lt_iff_le (by decide) (isNaN_of_le hprice).2).mpr hprice))
      (isNaN_of_le (atLeastZero_nonneg _)).2
  rcases amount_cases (le_trans_number hfifth hfifths) with ⟨hfinite, -⟩ | hinfinite
  · exact rises_deduction (isFinite_of_between (by decide) hfinite hfifth hfifths) hfinite hfifths hpart
  · refine ⟨atLeastZero_nonneg _, ?_, hpart⟩
    rw [ofPrice, hinfinite, atLeastZero_sub_infinity (by decide)]
    exact atLeastZero_nonneg _

/-- Half of a finite magnitude is finite, and that of a greater one is no smaller. -/
theorem half_magnitude {magnitude : Float} (h : magnitude.isFinite = true) :
    (magnitude / 2).isFinite = true ∧
      ∀ greater : Float, greater.isFinite = true → magnitude ≤ greater → magnitude / 2 ≤ greater / 2 := by
  have htwo := (le_iff_valueOf (x := 1) (y := 2) (by decide) (by decide)).mp (by decide)
  rw [valueOf_one] at htwo
  have hpos : 0 < valueOf 2 := one_pos.trans_le htwo
  refine ⟨isFinite_div h (by decide) htwo, fun greater hgreater hle => ?_⟩
  refine le_of_standsAt (standsAt_div h (by decide) hpos.ne') (standsAt_div hgreater (by decide) hpos.ne') ?_
  exact div_le_div_of_nonneg_right ((le_iff_valueOf h hgreater).mp hle) hpos.le

/-- What a finite magnitude leaves is finite, however far below zero the magnitude is. -/
theorem isFinite_ofMagnitude {magnitude : Float} (h : magnitude.isFinite = true) :
    (atLeastZero (100 - magnitude / 2)).isFinite = true := by
  have hhalf := (half_magnitude h).1
  have hform : (100 : Float).toModel.unpack = .finite .positive 0x19000000000000 (-46) (by decide) := by rfl
  have hhundred : valueOf 100 = 100 := by
    rw [valueOf, hform, exactOf_positive]
    norm_num
  refine isFinite_atLeastZero (isFinite_sub (by decide) hhalf ?_)
  calc |valueOf 100 - valueOf (magnitude / 2)| ≤ |valueOf 100| + |valueOf (magnitude / 2)| := abs_sub _ _
    _ ≤ 100 + greatest := add_le_add (by rw [hhundred]; norm_num) (abs_valueOf_le hhalf)
    _ = greatest + 100 := add_comm _ _
    _ < overflow := greatest_add_lt (by norm_num)

/-- A duration with a finite magnitude, or with none, earns a finite amount. -/
theorem ofDuration_amount {label : String} (h : ∀ magnitude ∈ Duration.magnitude? label, magnitude.isFinite = true) :
    0 ≤ ofDuration label ∧ (ofDuration label).isFinite = true := by
  unfold ofDuration
  split
  · next magnitude hmagnitude => exact ⟨atLeastZero_nonneg _, isFinite_ofMagnitude (h magnitude hmagnitude)⟩
  · exact ⟨le_refl_number (by decide), by decide⟩

/-- A shorter duration earns no less. -/
theorem rises_ofDuration {label longer : String}
    (hlabel : ∀ magnitude ∈ Duration.magnitude? label, magnitude.isFinite = true)
    (hlonger : ∀ magnitude ∈ Duration.magnitude? longer, magnitude.isFinite = true)
    (h : Duration.magnitude? longer = none ∨ ∃ magnitude greater, Duration.magnitude? label = some magnitude ∧
      Duration.magnitude? longer = some greater ∧ magnitude ≤ greater) :
    Rises (ofDuration longer) (ofDuration label) := by
  obtain ⟨hamount, hfinite⟩ := ofDuration_amount hlabel
  rcases h with hnone | ⟨magnitude, greater, hsome, hsome', hle⟩
  · have hzero : ofDuration longer = 0 := by rw [ofDuration, hnone]
    rw [hzero]
    exact ⟨le_refl_number (by decide), hamount, hfinite⟩
  · have hmagnitude := hlabel magnitude hsome
    have hgreater := hlonger greater hsome'
    rw [ofDuration, ofDuration, hsome, hsome']
    exact rises_deduction (half_magnitude hmagnitude).1 (half_magnitude hgreater).1
      ((half_magnitude hmagnitude).2 greater hgreater hle) (isFinite_ofMagnitude hmagnitude)

/-- A higher rating earns no less. -/
theorem rises_ofSafety {rating higher : Float} (hrating : 0 ≤ rating) (h : rating ≤ higher) (hhigher : higher ≤ 5) :
    Rises (ofSafety rating) (ofSafety higher) := by
  have hfinite : higher.isFinite = true :=
    isFinite_of_between (by decide) (by decide) (le_trans_number hrating h) hhigher
  have hlow : rating.isFinite = true := isFinite_of_between (by decide) hfinite hrating h
  have htwenty : (0 : Float) ≤ 20 := by decide
  have hpart : (ofSafety higher).isFinite = true := by
    refine isFinite_of_within (by decide) (within_ofSafety ?_) (standsAt_mul hfinite (by decide)).1
    exact ⟨(not_lt_iff_le (by decide) (isNaN_of_isFinite hfinite)).mpr (le_trans_number hrating h),
      (not_lt_iff_le (isNaN_of_isFinite hfinite) (by decide)).mpr hhigher⟩
  exact ⟨amount_mul hrating htwenty hlow (by decide),
    product_le_product hrating htwenty h (le_refl_number (by decide)) hfinite (by decide), hpart⟩

/-- A counter as a double is a finite amount, and a greater one is no smaller. -/
theorem rises_toFloat_uint32 {n m : UInt32} (h : n ≤ m) : Rises n.toFloat m.toFloat := by
  have hfinite : m.toFloat.isFinite = true :=
    isFinite_of_within (by decide) (within_toFloat_uint32 m) (standsAt_toFloat_uint32 m).1
  have hnat : (n.toNat : ℚ) ≤ m.toNat := by exact_mod_cast UInt32.le_iff_toNat_le.mp h
  refine ⟨?_, le_of_standsAt (standsAt_toFloat_uint32 n) (standsAt_toFloat_uint32 m) hnat, hfinite⟩
  rw [← not_lt_iff_le (by decide) (standsAt_toFloat_uint32 n).1]
  exact (within_toFloat_uint32 n).1

/-- Fewer of what is counted, each deducted with the same finite amount, leave no less. -/
theorem rises_counted {n m : UInt32} {each : Float} (h : n ≤ m) (heach : 0 ≤ each ∧ each ≤ 30) :
    Rises (atLeastZero (100 - m.toFloat * each)) (atLeastZero (100 - n.toFloat * each)) := by
  obtain ⟨hamount, hle, hm⟩ := rises_toFloat_uint32 h
  have hn : n.toFloat.isFinite = true := isFinite_of_between (by decide) hm hamount hle
  have hfinite : each.isFinite = true := isFinite_of_between (by decide) (by decide) heach.1 heach.2
  have hwithin : Within 30 each :=
    ⟨(not_lt_iff_le (by decide) (isNaN_of_isFinite hfinite)).mpr heach.1,
      (not_lt_iff_le (isNaN_of_isFinite hfinite) (by decide)).mpr heach.2⟩
  have hproduct : ∀ k : UInt32, k.toFloat.isFinite = true →
      Within ((4294967295 : UInt32).toFloat * 30) (k.toFloat * each) ∧ (k.toFloat * each).isFinite = true := by
    intro k hk
    have hbound := (within_toFloat_uint32 k).mul (by decide) (by decide) hwithin
    exact ⟨hbound, isFinite_of_within (by decide +kernel) hbound (standsAt_mul hk hfinite).1⟩
  have hleft : (atLeastZero (100 - n.toFloat * each)).isFinite = true :=
    isFinite_of_within (by decide) (within_deduction (hproduct n hn).1.1) (isNaN_of_le (atLeastZero_nonneg _)).2
  have hmono : n.toFloat * each ≤ m.toFloat * each :=
    product_le_product hamount heach.1 hle (le_refl_number (isNaN_of_isFinite hfinite)) hm hfinite
  exact rises_deduction (hproduct n hn).2 (hproduct m hm).2 hmono hleft

/-- Fewer stops earn no less, none the most. -/
theorem rises_ofStops {stops more : UInt32} (h : stops ≤ more) : Rises (ofStops more) (ofStops stops) := by
  have hcounted : Rises (atLeastZero (100 - more.toFloat * 30)) (atLeastZero (100 - stops.toFloat * 30)) :=
    rises_counted h ⟨by decide, by decide⟩
  by_cases hnone : stops = 0
  · have hbound := within_ofStops more
    have hnumber : 0 ≤ ofStops more := by
      unfold ofStops
      split
      · decide
      · exact atLeastZero_nonneg _
    have hfull : ofStops stops = 100 := by rw [ofStops, if_pos hnone]
    rw [hfull]
    exact ⟨hnumber, (not_lt_iff_le (isNaN_of_le hnumber).2 (by decide)).mp hbound.2, by decide⟩
  · have hmore : more ≠ 0 := by
      rintro rfl
      exact hnone (UInt32.le_zero_iff.mp h)
    rw [ofStops, ofStops, if_neg hnone, if_neg hmore]
    exact hcounted

/-- Every part of a flight rises to that of one that is at least as good. -/
theorem rise_ofFlight {flight other : Flight} (hflight : flight.KeepsRanges) (hother : other.KeepsRanges)
    (hmagnitude : ∀ magnitude ∈ Duration.magnitude? flight.duration, magnitude.isFinite = true)
    (hmagnitude' : ∀ magnitude ∈ Duration.magnitude? other.duration, magnitude.isFinite = true)
    (h : flight.AtLeastAsGoodAs other) : (ofFlight other).Rise (ofFlight flight) where
  cost := rises_ofPrice ((not_lt_iff_le (by decide) (isNaN_of_le h.price).1).mp hflight.price) h.price
  time := rises_ofDuration hmagnitude hmagnitude' h.duration
  safety := by
    obtain ⟨hlow, hhigh⟩ := isNaN_of_le h.safetyRating
    exact rises_ofSafety ((not_lt_iff_le (by decide) hlow).mp hother.safetyRating.1) h.safetyRating
      ((not_lt_iff_le hhigh (by decide)).mp hflight.safetyRating.2)
  comfort := rises_ofStops h.stops
  layover := rises_counted h.layovers ⟨by decide, by decide⟩

/-- A weight as a double is a finite amount, and a greater one is no smaller. -/
theorem rises_toFloat_weight {weight greater : UInt8} (h : weight ≤ greater) :
    Rises weight.toFloat greater.toFloat := by
  have hgreatest : (greater.toNat : ℚ) < 2 ^ 64 := by
    have hcast : (greater.toNat : ℚ) ≤ 255 := by exact_mod_cast Nat.le_of_lt_succ greater.toNat_lt
    linarith
  have hnat : (weight.toNat : ℚ) ≤ greater.toNat := by exact_mod_cast UInt8.le_iff_toNat_le.mp h
  have hstands := standsAt_toFloat_uint8 weight
  refine ⟨?_, le_of_standsAt hstands (standsAt_toFloat_uint8 greater) hnat, ?_⟩
  · rw [← not_lt_iff_le (by decide) hstands.1]
    exact not_neg_of_standsAt hstands (Nat.cast_nonneg _)
  · refine isFinite_of_standsAt (standsAt_toFloat_uint8 greater) ?_
    rw [abs_of_nonneg (Nat.cast_nonneg _)]
    exact lt_overflow hgreatest

/-- Parts that rise weigh no less under greater weights. -/
theorem Rise.weighed_le {parts others : SubScores} {weights greater : Weights} (h : parts.Rise others)
    (hweights : weights.AtMost greater) :
    0 ≤ parts.weighed weights ∧ parts.weighed weights ≤ others.weighed greater := by
  have hpart : ∀ {part rising : Float} {weight above : UInt8}, Rises part rising → weight ≤ above →
      0 ≤ part * weight.toFloat ∧ part * weight.toFloat ≤ rising * above.toFloat := by
    rintro part rising weight above ⟨hamount, hle, hfinite⟩ hweight
    obtain ⟨hweightamount, hweightle, hweightfinite⟩ := rises_toFloat_weight hweight
    exact ⟨amount_mul hamount hweightamount (isFinite_of_between (by decide) hfinite hamount hle)
        (isFinite_of_between (by decide) hweightfinite hweightamount hweightle),
      product_le_product hamount hweightamount hle hweightle hfinite hweightfinite⟩
  obtain ⟨hcost, hcostle⟩ := hpart h.cost hweights.cost
  obtain ⟨htime, htimele⟩ := hpart h.time hweights.time
  obtain ⟨hsafety, hsafetyle⟩ := hpart h.safety hweights.safety
  obtain ⟨hcomfort, hcomfortle⟩ := hpart h.comfort hweights.comfort
  obtain ⟨hlayover, hlayoverle⟩ := hpart h.layover hweights.layoverSensitivity
  have htwo := amount_add hcost htime
  have hthree := amount_add htwo hsafety
  have hfour := amount_add hthree hcomfort
  have htwole := sum_le_sum hcost htime hcostle htimele
  have hthreele := sum_le_sum htwo hsafety htwole hsafetyle
  have hfourle := sum_le_sum hthree hcomfort hthreele hcomfortle
  exact ⟨amount_add hfour hlayover, sum_le_sum hfour hlayover hfourle hlayoverle⟩

end SubScores

/-- A flight that is at least as good as another one scores no less, also under greater weights. Both keep their ranges,
and the magnitudes of their durations are finite where they have one; the products of parts and weights may still add
up to an infinity, which scores the most. -/
theorem Flight.score_le_score {flight other : Flight} {weights greater : Weights} (hflight : flight.KeepsRanges)
    (hother : other.KeepsRanges)
    (hmagnitude : ∀ magnitude ∈ Duration.magnitude? flight.duration, magnitude.isFinite = true)
    (hmagnitude' : ∀ magnitude ∈ Duration.magnitude? other.duration, magnitude.isFinite = true)
    (h : flight.AtLeastAsGoodAs other) (hweights : weights.AtMost greater) :
    other.score weights ≤ flight.score greater := by
  have hrise := SubScores.rise_ofFlight hflight hother hmagnitude hmagnitude' h
  obtain ⟨hamount, hle⟩ := hrise.weighed_le hweights
  obtain ⟨hhundredth, hhundredthle⟩ := quotient_le_quotient (z := 100) hamount hle (by decide) (by decide)
  have hmean := (quotient_le_quotient (z := 5) hhundredth hhundredthle (by decide) (by decide)).2
  have hfits : ∀ x : Float, nearestNat greatestScore x < UInt32.size := fun x =>
    (nearestNat_le_limit greatestScore x).trans_lt (by decide)
  rw [UInt32.le_iff_toNat_le, Flight.score, Flight.score, UInt32.toNat_ofNat_of_lt' (hfits _),
    UInt32.toNat_ofNat_of_lt' (hfits _)]
  exact nearestNat_mono greatestScore hmean

/-- A free flight with a duration below zero scores no less than one for an infinite price that shows no duration. -/
theorem Flight.score_le_score_infinite_price :
    let flight : Flight := ⟨none, none, none, none, 0, "-5h", 0, 0, 5⟩
    let other : Flight := ⟨none, none, none, none, infinity false, "unknown", 3, 3, 1⟩
    flight.score (.uniform 255) = 256 ∧ other.score .standard = 7 ∧
      other.score .standard ≤ flight.score (.uniform 255) := by
  intro flight other
  have hflight : flight.KeepsRanges := ⟨by decide, by decide⟩
  have hother : other.KeepsRanges := ⟨by decide, by decide⟩
  have hbetter : flight.AtLeastAsGoodAs other :=
    ⟨by decide, by decide, by decide, by decide, .inl (by decide +kernel)⟩
  have hweights : Weights.standard.AtMost (.uniform 255) := ⟨by decide, by decide, by decide, by decide, by decide⟩
  exact ⟨by decide +kernel, by decide +kernel,
    score_le_score hflight hother (by decide +kernel) (by decide +kernel) hbetter hweights⟩

end FlightPlanner
