import FlightPlanner.Proofs.Planning.FlightSearch
import FlightPlanner.Proofs.Validation.Leaves

/-!
# What a refused request is told

A request is refused with a tree of complaints. The tree is exact: it has a leaf at the way to every field that is
there and below its least or above its greatest value, with these bounds and the value itself, and no other leaf.
All fields are told of at once, those of a list under the places that the elements have in it.
-/

namespace FlightPlanner

open Validation

/-- The numbers of a position that are out of range: the way to each, and what there is to say about it. -/
@[mk_iff]
inductive Geo.Coordinate.Breaks (position : Geo.Coordinate) : List Step → Complaint → Prop where
  /-- The latitude is south of the one pole or north of the other. -/
  | latitude (beyond : position.latitude < -90 ∨ 90 < position.latitude) :
      Breaks position [.field "latitude"] ⟨some (.real (-90)), some (.real 90), .real position.latitude⟩
  /-- The longitude is more than half a turn to one side. -/
  | longitude (beyond : position.longitude < -180 ∨ 180 < position.longitude) :
      Breaks position [.field "longitude"] ⟨some (.real (-180)), some (.real 180), .real position.longitude⟩

/-- The numbers of a flight that are out of range. -/
@[mk_iff]
inductive Flight.Breaks (flight : Flight) : List Step → Complaint → Prop where
  /-- The price is below zero. -/
  | price (below : flight.price < 0) :
      Breaks flight [.field "price"] ⟨some (.real 0), none, .real flight.price⟩
  /-- The rating is below zero or above five. -/
  | safetyRating (beyond : flight.safetyRating < 0 ∨ 5 < flight.safetyRating) :
      Breaks flight [.field "safety_rating"] ⟨some (.real 0), some (.real 5), .real flight.safetyRating⟩

/-- The weights above a hundred. -/
@[mk_iff]
inductive Weights.Breaks (weights : Weights) : List Step → Complaint → Prop where
  /-- The weight of a low price is. -/
  | cost (above : 100 < weights.cost) :
      Breaks weights [.field "cost"] ⟨none, some (.whole 100), .whole weights.cost.toNat⟩
  /-- The weight of a short duration is. -/
  | time (above : 100 < weights.time) :
      Breaks weights [.field "time"] ⟨none, some (.whole 100), .whole weights.time.toNat⟩
  /-- The weight of the safety rating is. -/
  | safety (above : 100 < weights.safety) :
      Breaks weights [.field "safety"] ⟨none, some (.whole 100), .whole weights.safety.toNat⟩
  /-- The weight of few stops is. -/
  | comfort (above : 100 < weights.comfort) :
      Breaks weights [.field "comfort"] ⟨none, some (.whole 100), .whole weights.comfort.toNat⟩
  /-- The weight of few layovers is. -/
  | layoverSensitivity (above : 100 < weights.layoverSensitivity) :
      Breaks weights [.field "layover_sensitivity"]
        ⟨none, some (.whole 100), .whole weights.layoverSensitivity.toNat⟩

/-- The bounds of some filters that are set and out of range. -/
@[mk_iff]
inductive Filters.Breaks (filters : Filters) : List Step → Complaint → Prop where
  /-- The greatest price is below zero. -/
  | maxPrice {price : Float} (given : filters.maxPrice = some price) (below : price < 0) :
      Breaks filters [.field "max_price"] ⟨some (.real 0), .none, .real price⟩
  /-- The least rating is below zero or above five. -/
  | minSafetyRating {rating : Float} (given : filters.minSafetyRating = some rating)
      (beyond : rating < 0 ∨ 5 < rating) :
      Breaks filters [.field "min_safety_rating"] ⟨some (.real 0), some (.real 5), .real rating⟩

/-- The fields of a flight search that are out of range. -/
@[mk_iff]
inductive FlightSearch.Breaks (search : FlightSearch) : List Step → Complaint → Prop where
  /-- A field of an offered flight is, told of under the place of the offer. -/
  | flight {place : Nat} {flight : Flight} {way : List Step} {complaint : Complaint}
      (offered : search.flights[place]? = some flight) (breaks : flight.Breaks way complaint) :
      Breaks search (.field "flights" :: .index place :: way) complaint
  /-- A weight is, where the search brings weights. -/
  | priorities {weights : Weights} {way : List Step} {complaint : Complaint}
      (given : search.priorities = some weights) (breaks : weights.Breaks way complaint) :
      Breaks search (.field "priorities" :: way) complaint
  /-- A bound of the filters is. -/
  | filters {way : List Step} {complaint : Complaint} (breaks : search.filters.Breaks way complaint) :
      Breaks search (.field "filters" :: way) complaint

/-- The fields of an airport search that are out of range. -/
@[mk_iff]
inductive AirportSearch.Breaks (search : AirportSearch) : List Step → Complaint → Prop where
  /-- A number of the origin is. -/
  | origin {way : List Step} {complaint : Complaint} (breaks : search.origin.Breaks way complaint) :
      Breaks search (.field "origin" :: way) complaint

/-- A forest tells exactly of some breaches: each of them is a leaf and there is no other leaf, no way is told of
twice, and no branch is without parts. -/
structure Validation.Forest.Tells (forest : Forest) (breaks : List Step → Complaint → Prop) : Prop where
  /-- The leaves are the breaches. -/
  leaves : ∀ way complaint, (way, complaint) ∈ leavesOfParts forest ↔ breaks way complaint
  /-- One way leads to one leaf. -/
  once : ((leavesOfParts forest).map Prod.fst).Nodup
  /-- Every branch has parts, each under a step of its own. -/
  proper : forest.IsProper

/-- Proper complaints tell of what their leaves say. -/
theorem Validation.Forest.IsProper.tells {forest : Forest} {breaks : List Step → Complaint → Prop}
    (proper : forest.IsProper)
    (leaves : ∀ way complaint, (way, complaint) ∈ leavesOfParts forest ↔ breaks way complaint) :
    forest.Tells breaks :=
  ⟨leaves, nodup_waysOfParts forest proper.nodup_steps proper.branches, proper⟩

/-- The leaves about a position. -/
theorem Geo.Coordinate.mem_leaves_iff {position : Geo.Coordinate} {way : List Step} {c : Complaint} :
    (way, c) ∈ leavesOfParts position.complaints ↔ position.Breaks way c := by
  rw [Geo.Coordinate.complaints, breaks_iff]
  simp [Range.checkReal, latitudeRange, longitudeRange, Range.isBroken]

/-- The complaints about a position are proper. -/
theorem Geo.Coordinate.isProper_complaints (position : Geo.Coordinate) : position.complaints.IsProper := by
  constructor
  · have hsteps : position.complaints.steps.Sublist [.field "latitude", .field "longitude"] := by
      rw [Geo.Coordinate.complaints, Forest.steps, List.map_append]
      exact (steps_check_sublist ..).append (steps_check_sublist ..)
    exact hsteps.nodup (by decide)
  · exact branchesProper_append.mpr ⟨branchesProper_check .., branchesProper_check ..⟩

/-- The leaves about a flight. -/
theorem Flight.mem_leaves_iff {flight : Flight} {way : List Step} {c : Complaint} :
    (way, c) ∈ leavesOfParts flight.complaints ↔ flight.Breaks way c := by
  rw [Flight.complaints, breaks_iff]
  simp [Range.checkReal, priceRange, ratingRange, Range.isBroken]

/-- The complaints about a flight are proper. -/
theorem Flight.isProper_complaints (flight : Flight) : flight.complaints.IsProper := by
  constructor
  · have hsteps : flight.complaints.steps.Sublist [.field "price", .field "safety_rating"] := by
      rw [Flight.complaints, Forest.steps, List.map_append]
      exact (steps_check_sublist ..).append (steps_check_sublist ..)
    exact hsteps.nodup (by decide)
  · exact branchesProper_append.mpr ⟨branchesProper_check .., branchesProper_check ..⟩

/-- The leaves about weights. -/
theorem Weights.mem_leaves_iff {weights : Weights} {way : List Step} {c : Complaint} :
    (way, c) ∈ leavesOfParts weights.complaints ↔ weights.Breaks way c := by
  rw [Weights.complaints, breaks_iff]
  simp [Range.checkByte, weightRange, Range.isBroken]

/-- The complaints about weights are proper. -/
theorem Weights.isProper_complaints (weights : Weights) : weights.complaints.IsProper := by
  constructor
  · have hsteps : weights.complaints.steps.Sublist
        ([.field "cost"] ++ [.field "time"] ++ [.field "safety"] ++ [.field "comfort"] ++
          [.field "layover_sensitivity"]) := by
      simp only [Weights.complaints, Forest.steps, List.map_append]
      refine .append (.append (.append (.append ?_ ?_) ?_) ?_) ?_ <;> exact steps_check_sublist ..
    exact hsteps.nodup (by decide)
  · simp only [Weights.complaints, branchesProper_append]
    refine ⟨⟨⟨⟨?_, ?_⟩, ?_⟩, ?_⟩, ?_⟩ <;> exact branchesProper_check ..

/-- The leaves about filters. -/
theorem Filters.mem_leaves_iff {filters : Filters} {way : List Step} {c : Complaint} :
    (way, c) ∈ leavesOfParts filters.complaints ↔ filters.Breaks way c := by
  rw [Filters.complaints, breaks_iff]
  simp [mem_leavesOfParts_ofOption, Range.checkReal, priceRange, ratingRange, Range.isBroken]

/-- The complaints about filters are proper. -/
theorem Filters.isProper_complaints (filters : Filters) : filters.complaints.IsProper := by
  constructor
  · have hsteps : filters.complaints.steps.Sublist [.field "max_price", .field "min_safety_rating"] := by
      rw [Filters.complaints, Forest.steps, List.map_append]
      exact (steps_ofOption_sublist (steps_check_sublist _ _ _) _).append
        (steps_ofOption_sublist (steps_check_sublist _ _ _) _)
    exact hsteps.nodup (by decide)
  · exact branchesProper_append.mpr
      ⟨branchesProper_ofOption (branchesProper_check _ _ _) _, branchesProper_ofOption (branchesProper_check _ _ _) _⟩

/-- The leaves about a flight search. -/
theorem FlightSearch.mem_leaves_iff {search : FlightSearch} {way : List Step} {c : Complaint} :
    (way, c) ∈ leavesOfParts search.complaints ↔ search.Breaks way c := by
  simp only [FlightSearch.complaints, leavesOfParts_append, List.mem_append, mem_leavesOfParts_under,
    mem_leavesOfParts_ofList, mem_leavesOfParts_ofOption, Flight.mem_leaves_iff, Weights.mem_leaves_iff,
    Filters.mem_leaves_iff]
  constructor
  · rintro ((⟨_, rfl, i, flight, way, hoffered, rfl, hbreaks⟩ | ⟨way, rfl, weights, hgiven, hbreaks⟩) |
      ⟨way, rfl, hbreaks⟩)
    · exact .flight hoffered hbreaks
    · exact .priorities hgiven hbreaks
    · exact .filters hbreaks
  · intro h
    cases h with
    | flight hoffered hbreaks => exact .inl (.inl ⟨_, rfl, _, _, _, hoffered, rfl, hbreaks⟩)
    | priorities hgiven hbreaks => exact .inl (.inr ⟨_, rfl, _, hgiven, hbreaks⟩)
    | filters hbreaks => exact .inr ⟨_, rfl, hbreaks⟩

/-- The complaints about a flight search are proper. -/
theorem FlightSearch.isProper_complaints (search : FlightSearch) : search.complaints.IsProper := by
  constructor
  · have hsteps : search.complaints.steps.Sublist
        ([.field "flights"] ++ [.field "priorities"] ++ [.field "filters"]) := by
      simp only [FlightSearch.complaints, Forest.steps, List.map_append]
      refine .append (.append ?_ ?_) ?_ <;> exact steps_under_sublist ..
    exact hsteps.nodup (by decide)
  · simp only [FlightSearch.complaints, branchesProper_append]
    have hflights := Forest.IsProper.ofList Flight.isProper_complaints search.flights
    have hpriorities := Forest.IsProper.ofOption Weights.isProper_complaints search.priorities
    exact ⟨⟨hflights.under _, hpriorities.under _⟩, search.filters.isProper_complaints.under _⟩

/-- The leaves about an airport search. -/
theorem AirportSearch.mem_leaves_iff {search : AirportSearch} {way : List Step} {c : Complaint} :
    (way, c) ∈ leavesOfParts search.complaints ↔ search.Breaks way c := by
  simp only [AirportSearch.complaints, mem_leavesOfParts_under, Geo.Coordinate.mem_leaves_iff]
  constructor
  · rintro ⟨way, rfl, hbreaks⟩
    exact .origin hbreaks
  · rintro ⟨hbreaks⟩
    exact ⟨_, rfl, hbreaks⟩

/-- The complaints about an airport search are proper. -/
theorem AirportSearch.isProper_complaints (search : AirportSearch) : search.complaints.IsProper :=
  ⟨(steps_under_sublist _ _).nodup (List.nodup_singleton _), search.origin.isProper_complaints.under _⟩

/-- A request whose answer cannot fail is refused exactly when its complaints have a leaf, and with them. -/
theorem Planner.checked_eq_error_iff_leaves {α : Type} {complaints : Forest} {a : α} {error : PlannerError}
    (proper : complaints.IsProper) :
    Planner.checked complaints (.ok a) = .error error ↔
      leavesOfParts complaints ≠ [] ∧ error = .outOfRange complaints := by
  rw [checked_eq_error_iff, proper.leaves_ne_nil_iff]

/-- A request for flights or for airports is refused exactly when its complaints have a leaf, and with nothing but
these. They tell exactly of the fields that are there and out of range: of each of them once, at the way to it, with
the declared bounds and the value. -/
theorem Planner.refusals_exact (planner : Planner) (gauge : Gauge) (catalog : List Airport)
    (flights : FlightSearch) (airports : AirportSearch) :
    (flights.complaints.Tells flights.Breaks ∧
        ∀ error, planner.searchFlights flights = .error error ↔
          leavesOfParts flights.complaints ≠ [] ∧ error = .outOfRange flights.complaints) ∧
      airports.complaints.Tells airports.Breaks ∧
        ∀ error, planner.nearestAirports gauge airports catalog = .error error ↔
          leavesOfParts airports.complaints ≠ [] ∧ error = .outOfRange airports.complaints := by
  refine ⟨⟨?flightLeaves, ?flightRefusal⟩, ?airportLeaves, ?airportRefusal⟩
  case flightLeaves =>
    exact flights.isProper_complaints.tells fun _ _ => FlightSearch.mem_leaves_iff
  case flightRefusal =>
    exact fun _ => checked_eq_error_iff_leaves flights.isProper_complaints
  case airportLeaves =>
    exact airports.isProper_complaints.tells fun _ _ => AirportSearch.mem_leaves_iff
  case airportRefusal =>
    exact fun _ => checked_eq_error_iff_leaves airports.isProper_complaints

end FlightPlanner
