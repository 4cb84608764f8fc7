import FlightPlanner.Proofs.Binary64.SquareRoots
import FlightPlanner.Proofs.Documents.Finiteness
import FlightPlanner.Proofs.Geo.CompassBearings
import FlightPlanner.Proofs.Json.Nulls
import FlightPlanner.Proofs.Planning.NearestAirports

/-!
# Answers to what is read can be read

Requests and catalogs that are read from texts hold finite doubles, and so do the answers to them: flights are listed
as they were offered, and distances and bearings are finite as the coordinates are. So the answers are written without
null in the place of a double, and are read again as they were, up to the roundings of their doubles.
-/

namespace FlightPlanner

open Json

/-- The names of what a flight may leave open. -/
def Flight.openNames : List String := ["flightNumber", "airline", "origin", "destination"]

variable {names : List String}

/-- Texts are not written as null. -/
theorem nullsUnder_text : Format.text.NullsUnder names := fun text _ => .text (.ok text)

/-- Counts are not written as null. -/
theorem nullsUnder_count : Format.count.NullsUnder names := fun _ _ => .number _

/-- Sizes are not written as null. -/
theorem nullsUnder_size : Format.size.NullsUnder names := fun _ _ => .number _

/-- Airport classes are not written as null. -/
theorem nullsUnder_airportClass : AirportClass.format.NullsUnder names := fun c _ => .text (.ok c.name)

/-- Nothing in a position is written as null. -/
theorem nullsUnder_position : Geo.Coordinate.record.format.NullsUnder names :=
  Members.NullsUnder.record ⟨nullsUnder_real.required _, nullsUnder_real.required _, trivial⟩

/-- The answer to a flight search has null only where its flights leave something open. -/
theorem nullsUnder_flightResults : FlightResults.record.format.NullsUnder Flight.openNames := by
  have hflight : Flight.record.members.NullsUnder Flight.openNames :=
    ⟨nullsUnder_text.optional (by decide), nullsUnder_text.optional (by decide), nullsUnder_text.optional (by decide),
      nullsUnder_text.optional (by decide), nullsUnder_real.required _, nullsUnder_text.required _,
      nullsUnder_count.defaulted _ _, nullsUnder_count.defaulted _ _, nullsUnder_real.required _, trivial⟩
  have hscored : ScoredFlight.extended.format.NullsUnder Flight.openNames :=
    Members.NullsUnder.extended ⟨nullsUnder_count.required _, trivial⟩ hflight
  exact Members.NullsUnder.record
    ⟨hscored.list.required _, nullsUnder_size.required _, nullsUnder_size.required _, trivial⟩

/-- The answer to an airport search has no null at all. -/
theorem nullsUnder_airportResults : AirportResults.record.format.NullsUnder [] := by
  have hairport : Airport.record.members.NullsUnder [] :=
    ⟨nullsUnder_text.required _, nullsUnder_text.required _, nullsUnder_position.required _,
      nullsUnder_airportClass.required _, trivial⟩
  have hranked : RankedAirport.extended.format.NullsUnder [] :=
    Members.NullsUnder.extended ⟨nullsUnder_real.required _, nullsUnder_real.required _, trivial⟩ hairport
  exact Members.NullsUnder.record
    ⟨nullsUnder_position.required _, nullsUnder_text.required _, hranked.list.required _, trivial⟩

/-- The answer to a flight search is the same as another one but for the prices and ratings of its flights. -/
structure FlightResults.SameButReals (results again : FlightResults) : Prop where
  /-- There are the same flights with the same scores in the same order. -/
  flights : results.flights.Forall₂ (fun scored other => ∃ price rating,
    other = ⟨{ scored.flight with price := price, safetyRating := rating }, scored.score⟩) again.flights
  /-- The numbers of offered flights are the same. -/
  totalCandidates : again.totalCandidates = results.totalCandidates
  /-- The numbers of listed flights are the same. -/
  totalResults : again.totalResults = results.totalResults

/-- The answer to an airport search is the same as another one but for the positions, distances and bearings. -/
structure AirportResults.SameButReals (results again : AirportResults) : Prop where
  /-- The labels are the same. -/
  originLabel : again.originLabel = results.originLabel
  /-- There are the same airports in the same order. -/
  airports : results.airports.Forall₂ (fun ranked other => ∃ location distance bearing,
    other = ⟨{ ranked.airport with location := location }, distance, bearing⟩) again.airports

/-- What the answer to a flight search comes back as is the same but for its doubles. -/
theorem FlightResults.sameButReals_back (results : FlightResults) :
    results.SameButReals (Echo.flightResults.back results) := by
  refine ⟨?_, rfl, rfl⟩
  have hback : (Echo.flightResults.back results).flights = results.flights.map Echo.scoredFlight.back := rfl
  rw [hback, List.forall₂_map_right_iff]
  refine List.forall₂_same.2 fun scored _ => ⟨reread scored.flight.price, reread scored.flight.safetyRating, ?_⟩
  -- what is left open comes back as it was, whether it is absent or not
  have hopen : ∀ text : Option String, Echo.optionalText.back text = text := fun _ => Option.map_id'
  have hflight : Echo.scoredFlight.back scored =
      ⟨⟨Echo.optionalText.back scored.flight.number, Echo.optionalText.back scored.flight.airline,
        Echo.optionalText.back scored.flight.origin, Echo.optionalText.back scored.flight.destination,
        reread scored.flight.price, scored.flight.duration, scored.flight.stops, scored.flight.layovers,
        reread scored.flight.safetyRating⟩, scored.score⟩ := rfl
  simp only [hflight, hopen]

/-- What the answer to an airport search comes back as is the same but for its doubles. -/
theorem AirportResults.sameButReals_back (results : AirportResults) :
    results.SameButReals (Echo.airportResults.back results) := by
  refine ⟨rfl, ?_⟩
  have hback : (Echo.airportResults.back results).airports = results.airports.map Echo.rankedAirport.back := rfl
  rw [hback, List.forall₂_map_right_iff]
  exact List.forall₂_same.2 fun ranked _ => ⟨_, _, _, rfl⟩

/-- The doubles in a flight search are finite only if they are in its flights. -/
theorem isFinite_flights {search : FlightSearch} (h : (FlightSearch.record.format.write search).IsFinite) :
    ∀ flight ∈ search.flights, (Flight.record.format.write flight).IsFinite := by
  intro flight hflight
  have hlist : (Value.list (search.flights.map Flight.record.format.write)).IsFinite :=
    isFinite_object.1 h ("flights", _) List.mem_cons_self
  exact isFinite_list.1 hlist _ (List.mem_map_of_mem hflight)

/-- The doubles in the answer to a flight search are finite when they are in its flights. -/
theorem isFinite_flightResults {results : FlightResults}
    (h : ∀ scored ∈ results.flights, (Flight.record.format.write scored.flight).IsFinite) :
    (FlightResults.record.format.write results).IsFinite := by
  have hscored : ∀ scored ∈ results.flights, (ScoredFlight.extended.format.write scored).IsFinite := by
    intro scored hmem
    refine isFinite_object.2 (List.forall_mem_append.2 ⟨isFinite_object.1 (h scored hmem), ?_⟩)
    exact List.forall_mem_singleton.2 (isFinite_of_reals_eq_nil rfl)
  refine isFinite_object.2 (List.forall_mem_cons.2 ⟨isFinite_list.2 ?_, List.forall_mem_cons.2
    ⟨isFinite_of_reals_eq_nil rfl, List.forall_mem_singleton.2 (isFinite_of_reals_eq_nil rfl)⟩⟩)
  intro item hitem
  obtain ⟨scored, hmem, rfl⟩ := List.mem_map.1 hitem
  exact hscored scored hmem

/-- The doubles in the answer to an airport search are finite when they are in its origin and its airports and when
distances and bearings are. -/
theorem isFinite_airportResults {results : AirportResults} (horigin : results.origin.IsFinite)
    (h : ∀ ranked ∈ results.airports, (Airport.record.format.write ranked.airport).IsFinite ∧
      ranked.distance.isFinite = true ∧ ranked.bearing.isFinite = true) :
    (AirportResults.record.format.write results).IsFinite := by
  have hranked : ∀ ranked ∈ results.airports, (RankedAirport.extended.format.write ranked).IsFinite := by
    intro ranked hmem
    obtain ⟨hairport, hdistance, hbearing⟩ := h ranked hmem
    refine isFinite_object.2 (List.forall_mem_append.2 ⟨isFinite_object.1 hairport, ?_⟩)
    exact List.forall_mem_cons.2 ⟨isFinite_real.2 hdistance, List.forall_mem_singleton.2 (isFinite_real.2 hbearing)⟩
  refine isFinite_object.2 (List.forall_mem_cons.2 ⟨isFinite_position.2 horigin, List.forall_mem_cons.2
    ⟨isFinite_of_reals_eq_nil rfl, List.forall_mem_singleton.2 (isFinite_list.2 ?_)⟩⟩)
  intro item hitem
  obtain ⟨ranked, hmem, rfl⟩ := List.mem_map.1 hitem
  exact hranked ranked hmem

/-- What is listed for a flight search was offered. -/
theorem Planner.offered_of_searchFlights {planner : Planner} {search : FlightSearch} {results : FlightResults}
    (h : planner.searchFlights search = .ok results) : ∀ scored ∈ results.flights, scored.flight ∈ search.flights := by
  obtain ⟨-, hanswer⟩ := checked_eq_ok_iff.1 h
  obtain rfl := Except.ok.inj hanswer
  intro scored hscored
  obtain ⟨flight, hflight, rfl⟩ := List.mem_map.1 ((List.mergeSort_perm _ _).mem_iff.1 hscored)
  exact (List.mem_filter.1 hflight).1

/-- An airport search is answered for its origin, which keeps its ranges, with airports of the catalog as they are seen
from there. -/
theorem Planner.seen_of_nearestAirports {planner : Planner} {gauge : Gauge} {search : AirportSearch}
    {catalog : List Airport} {results : AirportResults}
    (h : planner.nearestAirports gauge search catalog = .ok results) :
    search.origin.KeepsRanges ∧ results.origin = search.origin ∧
      ∀ ranked ∈ results.airports, ∃ airport ∈ catalog, ranked = gauge.see search.origin airport := by
  obtain ⟨hcomplaints, hanswer⟩ := checked_eq_ok_iff.1 h
  obtain rfl := Except.ok.inj hanswer
  refine ⟨AirportSearch.complaints_eq_nil_iff.1 hcomplaints, rfl, fun ranked hranked => ?_⟩
  obtain ⟨airport, hmem, rfl⟩ := List.mem_map.1 hranked
  have hcandidate := (List.mergeSort_perm _ _).mem_iff.1 (List.mem_of_mem_take hmem)
  exact ⟨airport, (List.mem_filter.1 hcandidate).1, rfl⟩

/-- A finite position that keeps its ranges is on the globe. -/
theorem Geo.Coordinate.KeepsRanges.onGlobe {a : Geo.Coordinate} (h : a.KeepsRanges) (hfinite : a.IsFinite) :
    a.OnGlobe := by
  have hlatitude := Binary64.isNaN_of_isFinite hfinite.latitude
  have hlongitude := Binary64.isNaN_of_isFinite hfinite.longitude
  exact ⟨⟨(Binary64.not_lt_iff_le (by decide) hlatitude).1 h.latitude.1,
      (Binary64.not_lt_iff_le hlatitude (by decide)).1 h.latitude.2⟩,
    (Binary64.not_lt_iff_le (by decide) hlongitude).1 h.longitude.1,
    (Binary64.not_lt_iff_le hlongitude (by decide)).1 h.longitude.2⟩

/-- The answer to a flight search whose doubles are finite is written with null only where its flights leave something
open, and read again as it was but for its doubles. -/
theorem Planner.searchFlights_readable {planner : Planner} {search : FlightSearch} {results : FlightResults}
    (hsearch : (FlightSearch.record.format.write search).IsFinite) (h : planner.searchFlights search = .ok results) :
    HasNullsUnder Flight.openNames (FlightResults.record.format.encode results) ∧
      ∃ again, FlightResults.record.format.decode (FlightResults.record.format.encode results) = .ok again ∧
        results.SameButReals again := by
  have hfinite := isFinite_flightResults fun scored hscored =>
    isFinite_flights hsearch scored.flight (offered_of_searchFlights h scored hscored)
  exact ⟨nullsUnder_flightResults.encode hfinite, _,
    Model.reads_back (.record (.plain .flightResults)) results nofun hfinite, results.sameButReals_back⟩

/-- The answer to an airport search is written without null and read again as it was but for its doubles, if all doubles
in the search and in the catalog are finite. -/
theorem Planner.nearestAirports_readable {planner : Planner} {trig : Geo.Trig} (htrig : trig.Bounded)
    {search : AirportSearch} {catalog : List Airport} {results : AirportResults} (hsearch : search.origin.IsFinite)
    (hcatalog : ∀ airport ∈ catalog, (Airport.record.format.write airport).IsFinite)
    (h : planner.nearestAirports (.greatCircle trig) search catalog = .ok results) :
    HasNullsUnder [] (AirportResults.record.format.encode results) ∧
      ∃ again, AirportResults.record.format.decode (AirportResults.record.format.encode results) = .ok again ∧
        results.SameButReals again := by
  obtain ⟨hranges, horigin, hseen⟩ := seen_of_nearestAirports h
  have hglobe := hranges.onGlobe hsearch
  have hairports : ∀ ranked ∈ results.airports, (Airport.record.format.write ranked.airport).IsFinite ∧
      ranked.distance.isFinite = true ∧ ranked.bearing.isFinite = true := by
    intro ranked hranked
    obtain ⟨airport, hairport, rfl⟩ := hseen ranked hranked
    have hlocation := isFinite_airport.1 (hcatalog airport hairport)
    have hdistance : ((Gauge.greatCircle trig).distance search.origin airport.location).isFinite = true := by
      rw [Gauge.distance_greatCircle]
      exact Geo.isFinite_distance htrig hglobe hlocation
    exact ⟨hcatalog airport hairport, hdistance, Geo.isFinite_bearing htrig hglobe hlocation⟩
  have hfinite := isFinite_airportResults (horigin ▸ hsearch) hairports
  exact ⟨nullsUnder_airportResults.encode hfinite, _,
    Model.reads_back (.record (.plain .airportResults)) results nofun hfinite, results.sameButReals_back⟩

/-- Whatever is read from a text holds only finite doubles; and the answers to searches and catalogs that are read from
texts are written with null only where a flight leaves something open, and read again with the same entries in the same
order: the same flights with the same scores, and the same airports, but for their doubles. -/
theorem Planner.answers_readable (planner : Planner) :
    (∀ {α : Type} (m : Model α) (text : String) (a : α), m.Reads text a → (m.format.write a).IsFinite) ∧
      (∀ text search results, FlightSearch.record.format.decode text = .ok search →
        planner.searchFlights search = .ok results →
        HasNullsUnder Flight.openNames (FlightResults.record.format.encode results) ∧
          ∃ again, FlightResults.record.format.decode (FlightResults.record.format.encode results) = .ok again ∧
            results.SameButReals again) ∧
      ∀ trig : Geo.Trig, trig.Bounded → ∀ text search catalogText catalog results,
        AirportSearch.record.format.decode text = .ok search → loadCatalog catalogText = .ok catalog →
        planner.nearestAirports (.greatCircle trig) search catalog = .ok results →
        HasNullsUnder [] (AirportResults.record.format.encode results) ∧
          ∃ again, AirportResults.record.format.decode (AirportResults.record.format.encode results) = .ok again ∧
            results.SameButReals again := by
  refine ⟨fun m text a hreads => m.isFinite_of_reads hreads, fun text search results hdecode h => ?flights,
    fun trig htrig text search catalogText catalog results hdecode hload h => ?airports⟩
  case flights =>
    exact searchFlights_readable (Model.isFinite_of_reads (m := .record (.plain .flightSearch)) hdecode) h
  case airports =>
    have hsearch := Model.isFinite_of_reads (m := .record (.plain .airportSearch)) hdecode
    have hcatalog := Model.isFinite_of_reads (m := .catalog) hload
    have horigin := isFinite_position.1 (isFinite_object.1 hsearch ("origin", _) List.mem_cons_self)
    exact nearestAirports_readable htrig horigin
      (fun airport hairport => isFinite_list.1 hcatalog _ (List.mem_map_of_mem hairport)) h

open Binary64 in
/-- The functions of a triangle for small angles are bounded as all such functions are. -/
theorem Geo.Trig.bounded_ofSmallAngles : Geo.Trig.ofSmallAngles.Bounded where
  sin := Geo.Trig.sidesWithinOne_ofSmallAngles.sin
  cos := Geo.Trig.sidesWithinOne_ofSmallAngles.cos
  sqrt x hlow hhigh := by
    have hfinite : x.isFinite = true := isFinite_of_between (by decide) (by decide) hlow hhigh
    have hvalue : 0 ≤ valueOf x := by
      rwa [le_iff_valueOf (by decide) hfinite, valueOf_zero] at hlow
    obtain hzero | hpos := hvalue.eq_or_lt
    · have hplace : StandsAt x 0 := by
        have h := standsAt_valueOf hfinite
        rwa [← hzero, nearestPlace_zero] at h
      -- the square root keeps the sign of a zero
      obtain rfl | rfl := mirrored_zero hplace <;> exact ⟨by decide, by decide⟩
    · obtain ⟨hroot, hone⟩ := sqrt_mem (.of_pos hfinite hpos) hhigh
      exact ⟨hroot.nonneg, hone⟩
  atan2 y x _ _ := Geo.Trig.atan2_ofSmallAngles y x

/-- A search with two flights; the first of them leaves everything open. -/
def twoFlightsText : String :=
  "\x7b\"flights\":[\x7b\"price\":100,\"duration\":\"2h\",\"safetyRating\":4\x7d," ++
    "\x7b\"flightNumber\":\"GU 12\",\"price\":70.5,\"duration\":\"5h\",\"stopCount\":1,\"safetyRating\":3\x7d]\x7d"

/-- The search. -/
def twoFlights : FlightSearch :=
  ⟨[⟨none, none, none, none, 100, "2h", 0, 0, 4⟩, ⟨some "GU 12", none, none, none, 70.5, "5h", 1, 0, 3⟩], none, .none⟩

/-- A search for airports where the equator meets the prime meridian. -/
def gulfText : String := "\x7b\"origin\":\x7b\"latitude\":0,\"longitude\":0\x7d\x7d"

/-- A catalog with an airstrip at that place and one close to it. -/
def gulfCatalogText : String :=
  "[\x7b\"code\":\"NULL\",\"name\":\"Soul Buoy\"," ++
    "\"location\":\x7b\"latitude\":0,\"longitude\":0\x7d,\"class\":\"airstrip\"\x7d," ++
    "\x7b\"code\":\"DECK\",\"name\":\"Passing Ship\"," ++
    "\"location\":\x7b\"latitude\":0.25,\"longitude\":-0.5\x7d,\"class\":\"airstrip\"\x7d]"

/-- The catalog. -/
def gulfCatalog : List Airport :=
  [⟨"NULL", "Soul Buoy", ⟨0, 0⟩, .airstrip⟩, ⟨"DECK", "Passing Ship", ⟨0.25, -0.5⟩, .airstrip⟩]

/-- The search with the flights and that for the airstrips, one of which is at some distance and in some direction, are
answered, and what is read again from the answers is the same but for the doubles. -/
theorem Planner.answers_readable_gulf :
    (∃ results, standard.searchFlights twoFlights = .ok results ∧
      ∃ again, FlightResults.record.format.decode (FlightResults.record.format.encode results) = .ok again ∧
        results.SameButReals again) ∧
    (0 < Geo.distance .ofSmallAngles ⟨0, 0⟩ ⟨0.25, -0.5⟩ ∧ 0 < Geo.bearing .ofSmallAngles ⟨0, 0⟩ ⟨0.25, -0.5⟩ ∧
      ∃ results, standard.nearestAirports (.greatCircle .ofSmallAngles) ⟨⟨0, 0⟩, none, []⟩ gulfCatalog = .ok results ∧
        HasNullsUnder [] (AirportResults.record.format.encode results) ∧
        ∃ again, AirportResults.record.format.decode (AirportResults.record.format.encode results) = .ok again ∧
          results.SameButReals again) ∧
    (AirportSearch.record.format.write ⟨⟨0, 0⟩, none, []⟩).IsFinite := by
  obtain ⟨hfinite, hflights, hairports⟩ := answers_readable standard
  have hsearch : AirportSearch.record.format.decode gulfText = .ok ⟨⟨0, 0⟩, none, []⟩ := by decide +kernel
  have hflight : ∃ results, standard.searchFlights twoFlights = .ok results := exists_eq_ok (by decide +kernel)
  have hairport : ∃ results,
      standard.nearestAirports (.greatCircle .ofSmallAngles) ⟨⟨0, 0⟩, none, []⟩ gulfCatalog = .ok results :=
    exists_eq_ok (by decide +kernel)
  obtain ⟨flights, hflight⟩ := hflight
  obtain ⟨airports, hairport⟩ := hairport
  refine ⟨⟨flights, hflight, (hflights twoFlightsText _ _ (by decide +kernel) hflight).2⟩,
    ⟨by decide +kernel, by decide +kernel, airports, hairport, ?_⟩,
    hfinite (.record (.plain .airportSearch)) gulfText _ hsearch⟩
  exact hairports .ofSmallAngles Geo.Trig.bounded_ofSmallAngles gulfText _ gulfCatalogText _ _ hsearch
    (by decide +kernel) hairport

end FlightPlanner
