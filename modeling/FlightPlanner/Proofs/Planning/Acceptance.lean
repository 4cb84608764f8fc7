import FlightPlanner.Proofs.Flight.Scores

/-!
# What a request that is not refused has been found to keep

The planner refuses a request for what is below a least or above a greatest value. A number that is neither lies
between the two, but what is not a number is below and above nothing, so it passes at every field. A request goes
unrefused exactly when each of its fields with a range lies in it or holds no number; what was not refused may
therefore not be taken to lie in its ranges.
-/

namespace FlightPlanner

open Binary64 Validation

/-- A double lies between two bounds, if it is a number at all. -/
def LiesIn (least greatest x : Float) : Prop := x.isNaN = true ∨ least ≤ x ∧ x ≤ greatest

/-- A double is at least some bound, if it is a number at all. -/
def LiesFrom (least x : Float) : Prop := x.isNaN = true ∨ least ≤ x

/-- What is not a number is neither below nor above anything. -/
theorem not_lt_of_isNaN {x : Float} (h : x.isNaN = true) (y : Float) : ¬ x < y ∧ ¬ y < x := by
  constructor
  · intro hlt
    rw [(isNaN_of_lt hlt).1] at h
    contradiction
  · intro hlt
    rw [(isNaN_of_lt hlt).2] at h
    contradiction

/-- A double is not below a number exactly when it is no number or at least that one. -/
theorem liesFrom_iff {least x : Float} (hleast : least.isNaN = false) : LiesFrom least x ↔ ¬ x < least := by
  unfold LiesFrom
  cases hx : x.isNaN with
  | false => simp [not_lt_iff_le hleast hx]
  | true => simp [not_lt_of_isNaN hx]

/-- A double is neither below the one nor above the other of two numbers exactly when it is no number or lies between
them. -/
theorem liesIn_iff {least greatest x : Float} (hleast : least.isNaN = false) (hgreatest : greatest.isNaN = false) :
    LiesIn least greatest x ↔ ¬ x < least ∧ ¬ greatest < x := by
  unfold LiesIn
  cases hx : x.isNaN with
  | false => simp [not_lt_iff_le hleast hx, not_lt_iff_le hx hgreatest]
  | true => simp [not_lt_of_isNaN hx]

/-- Both numbers of a position lie in their ranges, as far as they are numbers. -/
structure Geo.Coordinate.LiesInRanges (position : Geo.Coordinate) : Prop where
  /-- The latitude lies between the poles. -/
  latitude : LiesIn (-90) 90 position.latitude
  /-- The longitude is at most half a turn to either side. -/
  longitude : LiesIn (-180) 180 position.longitude

/-- The price and the rating of a flight lie in their ranges, as far as they are numbers. -/
structure Flight.LiesInRanges (flight : Flight) : Prop where
  /-- The price is at least zero. -/
  price : LiesFrom 0 flight.price
  /-- The rating lies between zero and five. -/
  safetyRating : LiesIn 0 5 flight.safetyRating

/-- Every part of a flight search lies in its ranges, as far as it is a number. -/
structure FlightSearch.LiesInRanges (search : FlightSearch) : Prop where
  /-- Every flight does. -/
  flights : ∀ flight ∈ search.flights, flight.LiesInRanges
  /-- No weight is above a hundred, where weights are given. -/
  priorities : ∀ weights ∈ search.priorities, weights.KeepsRanges
  /-- A bound on the price is at least zero. -/
  maxPrice : ∀ price ∈ search.filters.maxPrice, LiesFrom 0 price
  /-- A bound on the rating lies between zero and five. -/
  minSafetyRating : ∀ rating ∈ search.filters.minSafetyRating, LiesIn 0 5 rating

/-- A position breaks no range exactly when its numbers lie in theirs. -/
theorem Geo.Coordinate.keepsRanges_iff_liesInRanges {position : Geo.Coordinate} :
    position.KeepsRanges ↔ position.LiesInRanges := by
  have hlatitude := @liesIn_iff (-90) 90 position.latitude (by decide) (by decide)
  have hlongitude := @liesIn_iff (-180) 180 position.longitude (by decide) (by decide)
  exact ⟨fun h => ⟨hlatitude.2 h.latitude, hlongitude.2 h.longitude⟩,
    fun h => ⟨hlatitude.1 h.latitude, hlongitude.1 h.longitude⟩⟩

/-- A flight breaks no range exactly when its numbers lie in theirs. -/
theorem Flight.keepsRanges_iff_liesInRanges {flight : Flight} : flight.KeepsRanges ↔ flight.LiesInRanges := by
  have hprice := @liesFrom_iff 0 flight.price (by decide)
  have hrating := @liesIn_iff 0 5 flight.safetyRating (by decide) (by decide)
  exact ⟨fun h => ⟨hprice.2 h.price, hrating.2 h.safetyRating⟩, fun h => ⟨hprice.1 h.price, hrating.1 h.safetyRating⟩⟩

/-- A flight search breaks no range exactly when its numbers lie in theirs. -/
theorem FlightSearch.keepsRanges_iff_liesInRanges {search : FlightSearch} :
    search.KeepsRanges ↔ search.LiesInRanges := by
  have hprice (price : Float) := @liesFrom_iff 0 price (by decide)
  have hrating (rating : Float) := @liesIn_iff 0 5 rating (by decide) (by decide)
  constructor
  · intro h
    exact ⟨fun flight hflight => Flight.keepsRanges_iff_liesInRanges.1 (h.flights flight hflight), h.priorities,
      fun price hgiven => (hprice price).2 (h.filters.maxPrice price hgiven),
      fun rating hgiven => (hrating rating).2 (h.filters.minSafetyRating rating hgiven)⟩
  · intro h
    exact ⟨fun flight hflight => Flight.keepsRanges_iff_liesInRanges.2 (h.flights flight hflight), h.priorities,
      ⟨fun price hgiven => (hprice price).1 (h.maxPrice price hgiven),
        fun rating hgiven => (hrating rating).1 (h.minSafetyRating rating hgiven)⟩⟩

/-- Whether an answer is something else than the refusal of a request for its ranges. -/
def Planner.Accepted {α : Type} (answer : Except PlannerError α) : Prop :=
  ∀ complaints, answer ≠ .error (.outOfRange complaints)

/-- A checked request is not refused exactly when there is nothing to complain about in it, as long as its answer is
no refusal itself. -/
theorem Planner.accepted_checked_iff {α : Type} {complaints : Forest} {answer : Except PlannerError α}
    (h : Accepted answer) : Accepted (checked complaints answer) ↔ complaints = [] := by
  cases complaints with
  | nil => simpa [checked] using h
  | cons part rest => simp [Accepted, checked]

/-- A request for flights, for airports or for the weather is not refused exactly when every field with a declared
range lies in it or holds no number. -/
theorem Planner.accepted_iff_liesInRanges (planner : Planner) (gauge : Gauge) (catalog : List Airport)
    (provider : Weather.Provider) (now : Time.Timestamp) (flights : FlightSearch) (airports : AirportSearch)
    (location : Geo.Coordinate) :
    (Accepted (planner.searchFlights flights) ↔ flights.LiesInRanges) ∧
      (Accepted (planner.nearestAirports gauge airports catalog) ↔ airports.origin.LiesInRanges) ∧
      (Accepted (weatherAt provider now location) ↔ location.LiesInRanges) := by
  refine ⟨?flights, ?airports, ?weather⟩
  case flights =>
    rw [searchFlights, accepted_checked_iff (fun _ => by simp), FlightSearch.complaints_eq_nil_iff,
      FlightSearch.keepsRanges_iff_liesInRanges]
  case airports =>
    rw [nearestAirports, accepted_checked_iff (fun _ => by simp), AirportSearch.complaints_eq_nil_iff,
      Geo.Coordinate.keepsRanges_iff_liesInRanges]
  case weather =>
    have hprovider : Accepted ((provider now location).mapError PlannerError.provider) := by
      intro complaints
      cases provider now location <;> simp [Except.mapError]
    rw [weatherAt, accepted_checked_iff hprovider, Geo.Coordinate.complaints_eq_nil_iff,
      Geo.Coordinate.keepsRanges_iff_liesInRanges]

/-- A flight whose price is not a number is listed, a position whose latitude is not a number has its airports
searched and its weather asked for, although neither number lies in its range. -/
theorem Planner.accepted_without_number :
    let flight : Flight := ⟨none, none, none, none, nan, "5h", 0, 0, 4⟩
    let origin : Geo.Coordinate := ⟨nan, 0⟩
    (∃ score, standard.searchFlights ⟨[flight], none, .none⟩ = .ok ⟨[⟨flight, score⟩], 1, 1⟩) ∧
      standard.nearestAirports (.greatCircle .machine) ⟨origin, none, []⟩ [] = .ok ⟨origin, origin.label, []⟩ ∧
      Accepted (weatherAt (fun _ place => .error (.unavailable place)) .epoch origin) ∧
      ¬ 0 ≤ flight.price ∧ ¬ -90 ≤ origin.latitude ∧ ¬ origin.latitude ≤ 90 := by
  intro flight origin
  have hposition : origin.complaints = [] := by decide +kernel
  refine ⟨⟨flight.score standard.weights, ?search⟩, ?nearest, ?weather, by decide +kernel, by decide +kernel,
    by decide +kernel⟩
  case search => exact searchFlights_singleton rfl (by decide +kernel) (by decide +kernel)
  case nearest =>
    rw [nearestAirports, AirportSearch.complaints, hposition]
    simp [checked, Forest.under, candidates, Gauge.nearest]
  case weather =>
    rw [weatherAt, hposition]
    intro complaints
    simp [checked, Except.mapError]

end FlightPlanner
