import FlightPlanner.Proofs.Documents.Models
import FlightPlanner.Proofs.Geo.FiniteDistances
import FlightPlanner.Proofs.Json.Finiteness

/-!
# Models hold finite doubles

Whatever text a value of a model is read from, all doubles in it are finite. Those in a position and in an airport are
the two numbers of the position.
-/

namespace FlightPlanner

open Json

variable {α : Type}

/-- Texts have no doubles. -/
theorem readsFinite_text : Format.text.ReadsFinite := readsFinite_of_reals_eq_nil fun _ => rfl

/-- Counts have no doubles. -/
theorem readsFinite_count : Format.count.ReadsFinite := readsFinite_of_reals_eq_nil fun _ => rfl

/-- Airport classes have no doubles. -/
theorem readsFinite_airportClass : AirportClass.format.ReadsFinite := readsFinite_of_reals_eq_nil fun _ => rfl

/-- Moments have no doubles. -/
theorem readsFinite_moment : Time.Timestamp.format.ReadsFinite := readsFinite_of_reals_eq_nil fun _ => rfl

/-- Weights have no doubles. -/
theorem readsFinite_weights : Weights.record.format.ReadsFinite := readsFinite_of_reals_eq_nil fun _ => rfl

/-- Positions are read with finite doubles. -/
theorem readsFinite_position : Geo.Coordinate.record.format.ReadsFinite :=
  Members.ReadFinite.record ⟨readsFinite_real.required _, readsFinite_real.required _, trivial⟩ (by decide) fun _ => rfl

/-- The fields of flights are read with finite doubles. -/
theorem readFinite_flightMembers : Flight.record.members.ReadFinite :=
  ⟨readsFinite_text.optionalField _, readsFinite_text.optionalField _, readsFinite_text.optionalField _,
    readsFinite_text.optionalField _, readsFinite_real.required _, readsFinite_text.required _,
    readsFinite_count.defaulted _ nofun, readsFinite_count.defaulted _ nofun, readsFinite_real.required _, trivial⟩

/-- Flights are read with finite doubles. -/
theorem readsFinite_flight : Flight.record.format.ReadsFinite :=
  readFinite_flightMembers.record (by decide) fun _ => rfl

/-- The fields of airports are read with finite doubles. -/
theorem readFinite_airportMembers : Airport.record.members.ReadFinite :=
  ⟨readsFinite_text.required _, readsFinite_text.required _, readsFinite_position.required _,
    readsFinite_airportClass.required _, trivial⟩

/-- Airports are read with finite doubles. -/
theorem readsFinite_airport : Airport.record.format.ReadsFinite :=
  readFinite_airportMembers.record (by decide) fun _ => rfl

/-- Filters are read with finite doubles. -/
theorem readsFinite_filters : Filters.record.format.ReadsFinite :=
  Members.ReadFinite.record
    ⟨readsFinite_real.optionalField _, readsFinite_count.optionalField _, readsFinite_real.optionalField _,
      (readsFinite_of_reals_eq_nil fun _ => rfl).defaulted _ nofun, trivial⟩
    (by decide) fun _ => rfl

/-- Scored flights are read with finite doubles. -/
theorem readsFinite_scoredFlight : ScoredFlight.extended.format.ReadsFinite :=
  Members.ReadFinite.extended ⟨readsFinite_count.required _, trivial⟩ readFinite_flightMembers
    (by decide) (fun _ _ => rfl) fun _ => rfl

/-- Ranked airports are read with finite doubles. -/
theorem readsFinite_rankedAirport : RankedAirport.extended.format.ReadsFinite :=
  Members.ReadFinite.extended ⟨readsFinite_real.required _, readsFinite_real.required _, trivial⟩
    readFinite_airportMembers (by decide) (fun _ _ => rfl) fun _ => rfl

/-- Records whose fields are all their own are read with finite doubles. -/
theorem PlainModel.readsFinite : (m : PlainModel α) → m.record.format.ReadsFinite
  | .position => readsFinite_position
  | .flight => readsFinite_flight
  | .weights => readsFinite_weights
  | .airport => readsFinite_airport
  | .filters => readsFinite_filters
  | .report =>
    Members.ReadFinite.record
      ⟨readsFinite_position.required _, readsFinite_real.required _, readsFinite_real.required _,
        readsFinite_real.required _, readsFinite_real.required _, readsFinite_text.required _,
        readsFinite_moment.required _, trivial⟩
      (by decide) fun _ => rfl
  | .fix =>
    Members.ReadFinite.record
      ⟨readsFinite_position.required _, readsFinite_real.optionalField _, readsFinite_moment.required _, trivial⟩
      (by decide) fun _ => rfl
  | .flightSearch =>
    Members.ReadFinite.record
      ⟨readsFinite_flight.list.required _, readsFinite_weights.optionalField _, readsFinite_filters.defaulted _ nofun,
        trivial⟩
      (by decide) fun _ => rfl
  | .airportSearch =>
    Members.ReadFinite.record
      ⟨readsFinite_position.required _, (readsFinite_of_reals_eq_nil fun _ => rfl).optionalField _,
        readsFinite_airportClass.list.defaulted _ nofun, trivial⟩
      (by decide) fun _ => rfl
  | .flightResults =>
    Members.ReadFinite.record
      ⟨readsFinite_scoredFlight.list.required _, (readsFinite_of_reals_eq_nil fun _ => rfl).required _,
        (readsFinite_of_reals_eq_nil fun _ => rfl).required _, trivial⟩
      (by decide) fun _ => rfl
  | .airportResults =>
    Members.ReadFinite.record
      ⟨readsFinite_position.required _, readsFinite_text.required _, readsFinite_rankedAirport.list.required _, trivial⟩
      (by decide) fun _ => rfl

/-- The values of all models are read with finite doubles. -/
theorem Model.readsFinite : (m : Model α) → m.format.ReadsFinite
  | .record (.plain m) => m.readsFinite
  | .record (.extended .rankedAirport) => readsFinite_rankedAirport
  | .record (.extended .scoredFlight) => readsFinite_scoredFlight
  | .airportClass => readsFinite_airportClass
  | .catalog => readsFinite_airport.list

/-- All doubles in a value that is read from a text are finite. -/
theorem Model.isFinite_of_reads {m : Model α} {text : String} {a : α} (h : m.Reads text a) :
    (m.format.write a).IsFinite :=
  m.readsFinite.isFinite_of_decode (reads_iff.1 h)

/-- The doubles in a position are finite when its numbers are. -/
theorem isFinite_position {a : Geo.Coordinate} :
    (Geo.Coordinate.record.format.write a).IsFinite ↔ a.IsFinite := by
  have hmembers : (Geo.Coordinate.record.format.write a).IsFinite ↔
      (Value.real a.latitude).IsFinite ∧ (Value.real a.longitude).IsFinite := by
    refine isFinite_object.trans ?_
    simp [Geo.Coordinate.record, Members.write, Field.required, Format.real]
  rw [hmembers, isFinite_real, isFinite_real]
  exact ⟨fun h => ⟨h.1, h.2⟩, fun h => ⟨h.latitude, h.longitude⟩⟩

/-- The doubles in an airport are finite when its position is. -/
theorem isFinite_airport {airport : Airport} :
    (Airport.record.format.write airport).IsFinite ↔ airport.location.IsFinite := by
  constructor
  · intro h
    exact isFinite_position.1
      (isFinite_object.1 h ("location", _) (List.mem_cons_of_mem _ (List.mem_cons_of_mem _ List.mem_cons_self)))
  · intro h
    refine isFinite_object.2 (List.forall_mem_cons.2 ⟨isFinite_of_reals_eq_nil rfl, List.forall_mem_cons.2
      ⟨isFinite_of_reals_eq_nil rfl, List.forall_mem_cons.2 ⟨isFinite_position.2 h, ?_⟩⟩⟩)
    exact List.forall_mem_singleton.2 (isFinite_of_reals_eq_nil rfl)

end FlightPlanner
