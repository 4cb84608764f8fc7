import FlightPlanner.Proofs.Binary64.Order
import FlightPlanner.Proofs.Planning.FlightSearch

/-!
# What an airport search answers

A search for airports fails only for its origin. Its answer lists the nearest of the wanted airports, as many as
are asked for and allowed, by an order on the places of the catalog that holds for any distances whatever:
numbers rise, what is not a number comes last, and one and the same distance keeps the order of the catalog. An
airport that is left out would have come after every airport that is listed.
-/

namespace FlightPlanner

open Binary64 Ranking Validation

/-- What it means for one place of a list of airports to come before another one around a position. -/
structure Gauge.Precedes (gauge : Gauge) (origin : Geo.Coordinate) (airports : List Airport)
    (i j : Fin airports.length) : Prop where
  /-- What is not a number comes before nothing but its like. -/
  numbersFirst : (gauge.distance origin airports[i].location).isNaN = true →
    (gauge.distance origin airports[j].location).isNaN = true
  /-- Numbers do not fall, and zero does not come before negative zero. -/
  rising : (gauge.distance origin airports[i].location).isNaN = false →
    (gauge.distance origin airports[j].location).isNaN = false →
    gauge.distance origin airports[i].location ≤ gauge.distance origin airports[j].location ∧
      ¬ (gauge.distance origin airports[i].location = 0 ∧ gauge.distance origin airports[j].location = -0)
  /-- One number at both places leaves them in their order. -/
  sameNumber : (gauge.distance origin airports[i].location).isNaN = false →
    gauge.distance origin airports[i].location = gauge.distance origin airports[j].location → i < j
  /-- Where neither is a number, the ranks of the patterns do not fall. -/
  risingPatterns : (gauge.distance origin airports[i].location).isNaN = true →
    (gauge.distance origin airports[j].location).isNaN = true →
    (gauge.pattern origin airports[i].location).rank ≤ (gauge.pattern origin airports[j].location).rank
  /-- One pattern at both places leaves them in their order. -/
  samePattern : gauge.pattern origin airports[i].location = gauge.pattern origin airports[j].location → i < j

/-- The order of airports passes on. -/
theorem Gauge.ahead_trans (gauge : Gauge) (origin : Geo.Coordinate) (a b c : Airport)
    (hab : gauge.ahead origin a b) (hbc : gauge.ahead origin b c) : gauge.ahead origin a c :=
  Std.TransCmp.isLE_trans hab hbc

/-- Of two airports one may stand before the other. -/
theorem Gauge.ahead_total (gauge : Gauge) (origin : Geo.Coordinate) (a b : Airport) :
    gauge.ahead origin a b || gauge.ahead origin b a := by
  rw [Gauge.ahead, Gauge.ahead, Pattern.compareNumbersFirst_swap]
  cases (gauge.pattern origin b.location).compareNumbersFirst (gauge.pattern origin a.location) <;> rfl

/-- Places in the order of a ranking precede each other in every respect. -/
theorem Gauge.precedes_of_comesBefore {gauge : Gauge} {origin : Geo.Coordinate} {airports : List Airport}
    {i j : Fin airports.length} (h : ComesBefore (gauge.ahead origin) airports i j) :
    gauge.Precedes origin airports i j := by
  obtain ⟨hahead, htie⟩ := h
  simp only [Gauge.ahead, Pattern.isLE_compareNumbersFirst_iff] at hahead htie
  have hsame : gauge.pattern origin airports[i].location = gauge.pattern origin airports[j].location → i < j := by
    intro heq
    exact htie (.inr ⟨by rw [heq], by rw [heq]⟩)
  refine ⟨?numbersFirst, ?rising, ?sameNumber, ?risingPatterns, hsame⟩ <;>
    simp only [Gauge.distance, Pattern.isNaN_toFloat] <;> intro hi
  case numbersFirst =>
    rcases hahead with ⟨hnumber, -⟩ | ⟨hboth, -⟩
    · exact absurd (hnumber.symm.trans hi) Bool.false_ne_true
    · rw [← hboth, hi]
  case rising =>
    intro hj
    have hrank : (gauge.pattern origin airports[i].location).rank ≤
        (gauge.pattern origin airports[j].location).rank := by
      rcases hahead with ⟨-, hnan⟩ | ⟨-, hrank⟩
      · exact absurd (hj.symm.trans hnan) Bool.false_ne_true
      · exact hrank
    rw [Pattern.toFloat_le_iff hi hj]
    exact ⟨Pattern.signedMagnitude_le_of_rank_le hrank, Pattern.not_zero_of_rank_le hi hj hrank⟩
  case sameNumber =>
    intro heq
    exact hsame (Pattern.toFloat_inj hi heq)
  case risingPatterns =>
    intro hj
    rcases hahead with ⟨hnumber, -⟩ | ⟨-, hrank⟩
    · exact absurd (hnumber.symm.trans hi) Bool.false_ne_true
    · exact hrank

/-- Ranking airports visits some of their places, as many as the limit allows: each once, every one before the
next, and every one before each place that is left out. -/
theorem Gauge.exists_places_nearest (gauge : Gauge) (origin : Geo.Coordinate) (airports : List Airport)
    (limit : Nat) :
    (gauge.nearest origin airports limit).length = min limit airports.length ∧
      ∃ places : List (Fin airports.length), places.Nodup ∧
        gauge.nearest origin airports limit = places.map (fun i => gauge.see origin airports[i]) ∧
        places.Pairwise (gauge.Precedes origin airports) ∧
        ∀ i ∈ places, ∀ j ∉ places, gauge.Precedes origin airports i j := by
  obtain ⟨order, hnodup, hmem, hsorted, hbefore⟩ :=
    exists_places (gauge.ahead origin) (gauge.ahead_trans origin) (gauge.ahead_total origin) (fun _ => true) airports
  rw [List.filter_eq_self.mpr fun _ _ => rfl] at hsorted
  have hprecedes : order.Pairwise (gauge.Precedes origin airports) :=
    hbefore.imp Gauge.precedes_of_comesBefore
  rw [← List.take_append_drop limit order, List.pairwise_append] at hprecedes
  refine ⟨gauge.length_nearest origin airports limit, order.take limit, hnodup.sublist (List.take_sublist _ _), ?_,
    hprecedes.1, ?_⟩
  · rw [Gauge.nearest, hsorted, ← List.map_take, List.map_map]
    rfl
  · intro i hi j hj
    have hall : j ∈ order.take limit ++ order.drop limit := by
      rw [List.take_append_drop]
      exact (hmem j).mpr rfl
    have hdropped : j ∈ order.drop limit := (List.mem_append.mp hall).resolve_left hj
    exact hprecedes.2.2 i hi j hdropped

/-- The pattern of a great-circle distance holds that distance, whichever way it is no number. -/
theorem Geo.toFloat_distancePattern (trig : Geo.Trig) (a b : Geo.Coordinate) :
    (Geo.distancePattern trig a b).toFloat = Geo.distance trig a b := by
  have hnan : (Geo.distance trig a b).isNaN = true → nan = Geo.distance trig a b := by
    intro h
    rw [← Pattern.toFloat_ofFloat (Geo.distance trig a b)]
    exact (Pattern.toFloat_of_isNaN ((isNaN_ofFloat _).trans h)).symm
  rw [Geo.distancePattern]
  generalize Geo.distance trig a b = km at hnan ⊢
  by_cases h : km.isNaN = true
  · rw [if_pos h, ← hnan h]
    split
    · exact Pattern.toFloat_of_isNaN (by decide)
    · exact Pattern.toFloat_of_isNaN (by decide)
  · rw [if_neg h]
    exact Pattern.toFloat_ofFloat km

/-- Among great circles, airports are listed with their great-circle distances. -/
theorem Gauge.distance_greatCircle (trig : Geo.Trig) (a b : Geo.Coordinate) :
    (Gauge.greatCircle trig).distance a b = Geo.distance trig a b :=
  Geo.toFloat_distancePattern trig a b

/-- How many airports a search asks for: as many as the planner lists by default where it leaves that open, and
none for a limit that is not above zero. -/
def Planner.askedFor (planner : Planner) (search : AirportSearch) : Nat :=
  match search.limit with
  | none => planner.defaultLimit.toNat
  | some limit => if limit ≤ 0 then 0 else limit.toInt.toNat

/-- A limit that is no less than zero is kept as it is. -/
theorem toNat_effectiveLimit (limit : Int64) : (effectiveLimit limit).toNat = limit.toInt.toNat := by
  have h := limit.toInt_lt
  exact UInt64.toNat_ofNat_of_lt' (show limit.toInt.toNat < 2 ^ 64 by omega)

/-- The limit of a search is what it asks for, up to the greatest number that is listed. -/
theorem Planner.toNat_limitFor (planner : Planner) (search : AirportSearch) :
    (planner.limitFor search).toNat = min planner.maxLimit.toNat (planner.askedFor search) := by
  have hasked : ((search.limit.map effectiveLimit).getD planner.defaultLimit).toNat = planner.askedFor search := by
    unfold Planner.askedFor
    cases search.limit with
    | none => rfl
    | some limit =>
      change (effectiveLimit limit).toNat = if limit ≤ 0 then 0 else limit.toInt.toNat
      rw [toNat_effectiveLimit]
      split
      · next hle =>
        have hle' : limit.toInt ≤ (0 : Int64).toInt := Int64.le_iff_toInt_le.mp hle
        exact Int.toNat_of_nonpos hle'
      · rfl
  rw [← hasked, Planner.limitFor]
  generalize (search.limit.map effectiveLimit).getD planner.defaultLimit = asked
  change (if asked ≤ planner.maxLimit then asked else planner.maxLimit).toNat = _
  rw [min_comm, min_def]
  simp only [UInt64.le_iff_toNat_le]
  split <;> rfl

/-- The candidates of a search are the airports of the wanted classes, or all where no class is wanted. -/
theorem Planner.candidates_eq_filter (search : AirportSearch) (catalog : List Airport) :
    candidates search catalog =
      catalog.filter fun airport => search.classes = [] ∨ airport.airportClass ∈ search.classes := by
  apply List.filter_congr
  intro airport _
  cases h : search.classes <;> simp [Airport.isWanted]

/-- A search for airports fails only by being out of range, and exactly when its origin is. Otherwise it lists as
many of the wanted airports as are asked for and allowed, each at most once and unchanged, with its own distance
and bearing. Each is listed before those that it precedes, and none that is left out precedes one that is listed. -/
theorem Planner.nearestAirports_exact (planner : Planner) (gauge : Gauge) (search : AirportSearch)
    (catalog : List Airport) :
    let origin := search.origin
    let wanted := catalog.filter fun airport => search.classes = [] ∨ airport.airportClass ∈ search.classes
    (∀ error, planner.nearestAirports gauge search catalog = .error error →
        ∃ complaints, error = .outOfRange complaints) ∧
      ((∃ error, planner.nearestAirports gauge search catalog = .error error) ↔
        origin.latitude < -90 ∨ 90 < origin.latitude ∨ origin.longitude < -180 ∨ 180 < origin.longitude) ∧
      ∀ results, planner.nearestAirports gauge search catalog = .ok results →
        results.airports.length = min (min planner.maxLimit.toNat (planner.askedFor search)) wanted.length ∧
          ∃ places : List (Fin wanted.length), places.Nodup ∧
            results.airports = places.map (fun i =>
              ⟨wanted[i], gauge.distance origin wanted[i].location, gauge.bearing origin wanted[i].location⟩) ∧
            places.Pairwise (gauge.Precedes origin wanted) ∧
            ∀ i ∈ places, ∀ j ∉ places, gauge.Precedes origin wanted i j := by
  intro origin wanted
  refine ⟨?kind, ?failure, ?answer⟩
  case kind =>
    intro error h
    exact ⟨_, (checked_eq_error_iff.mp h).2⟩
  case failure =>
    rw [← Geo.Coordinate.not_keepsRanges_iff, ← AirportSearch.complaints_eq_nil_iff]
    exact ⟨fun ⟨_, h⟩ => (checked_eq_error_iff.mp h).1, fun h => ⟨_, checked_eq_error_iff.mpr ⟨h, rfl⟩⟩⟩
  case answer =>
    intro results h
    obtain ⟨-, hanswer⟩ := checked_eq_ok_iff.mp h
    obtain rfl := Except.ok.inj hanswer
    obtain ⟨hlength, hplaces⟩ :=
      gauge.exists_places_nearest origin wanted (planner.limitFor search).toNat
    rw [← Planner.toNat_limitFor, candidates_eq_filter]
    exact ⟨hlength, hplaces⟩

/-- Stand-ins for the functions of a triangle that agree with them on zero and on what is no finite number. -/
def Geo.Trig.aroundZero : Geo.Trig :=
  ⟨fun x => x - x, fun x => 1 + (x - x), fun y x => y + x, Float.sqrt⟩

/-- The position without degrees. -/
def Geo.Coordinate.zero : Geo.Coordinate := ⟨0, 0⟩

/-- An airport whose latitude is not a number. -/
def Airport.withoutLatitude : Airport := ⟨"NANA", "Not a number", ⟨nan, 0⟩, .major⟩

/-- An airport whose latitude is infinite. -/
def Airport.withInfiniteLatitude : Airport := ⟨"INFI", "Infinite", ⟨infinity false, 0⟩, .major⟩

/-- Two airports without a distance need not keep the order of the catalog: an infinite latitude leaves a pattern
of lower rank than one that is not a number to begin with. -/
theorem Planner.nearestAirports_swaps_catalog :
    ∃ results, Planner.standard.nearestAirports (.greatCircle .aroundZero) ⟨.zero, none, []⟩
        [.withoutLatitude, .withInfiniteLatitude] = .ok results ∧
      results.airports.map (·.airport) = [.withInfiniteLatitude, .withoutLatitude] ∧
      ∀ seen ∈ results.airports, seen.distance = nan := by
  have hcomplaints : AirportSearch.complaints ⟨.zero, none, []⟩ = [] := by decide +kernel
  have hlimit : (Planner.standard.limitFor ⟨.zero, none, []⟩).toNat = 5 := by decide
  have hwanted : candidates ⟨.zero, none, []⟩ [.withoutLatitude, .withInfiniteLatitude] =
      [.withoutLatitude, .withInfiniteLatitude] := rfl
  have hbehind : (Gauge.greatCircle .aroundZero).ahead .zero .withoutLatitude .withInfiniteLatitude = false := by
    decide +kernel
  have hnear : (Gauge.greatCircle .aroundZero).distance .zero Airport.withoutLatitude.location = nan := by
    decide +kernel
  have hfar : (Gauge.greatCircle .aroundZero).distance .zero Airport.withInfiniteLatitude.location = nan := by
    decide +kernel
  refine ⟨_, checked_eq_ok_iff.mpr ⟨hcomplaints, rfl⟩, ?_⟩
  rw [hlimit, hwanted]
  simp [Gauge.nearest, List.mergeSort, List.MergeSort.Internal.splitInTwo, hbehind, Gauge.see, hnear, hfar]

end FlightPlanner
