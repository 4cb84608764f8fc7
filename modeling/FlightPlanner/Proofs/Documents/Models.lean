import FlightPlanner.Airport.Catalog
import FlightPlanner.Documents.Moment
import FlightPlanner.Documents.Search
import FlightPlanner.Proofs.Json.Echoes
import FlightPlanner.Proofs.Time.Texts

/-!
# Documents of models are read back

The models are the types whose values have documents: the records, two of which contain another record, the airport
classes and the catalogs. Every value of a model is read back from its document: its doubles as their written forms are
read, and everything else as it was. Moments must be in the years that are written in four digits.
-/

namespace FlightPlanner

open Json

/-- The records whose fields are all their own. -/
inductive PlainModel : Type → Type
  /-- Positions. -/
  | position : PlainModel Geo.Coordinate
  /-- Flights. -/
  | flight : PlainModel Flight
  /-- Weights. -/
  | weights : PlainModel Weights
  /-- Airports. -/
  | airport : PlainModel Airport
  /-- Filters. -/
  | filters : PlainModel Filters
  /-- Weather reports. -/
  | report : PlainModel Weather.Observation
  /-- Fixes. -/
  | fix : PlainModel Tracking.Fix
  /-- Flight searches. -/
  | flightSearch : PlainModel FlightSearch
  /-- Airport searches. -/
  | airportSearch : PlainModel AirportSearch
  /-- Ranked flights. -/
  | flightResults : PlainModel FlightResults
  /-- The airports near a position. -/
  | airportResults : PlainModel AirportResults

/-- The records that contain another one. -/
inductive ExtendedModel : Type → Type
  /-- Ranked airports. -/
  | rankedAirport : ExtendedModel RankedAirport
  /-- Scored flights. -/
  | scoredFlight : ExtendedModel ScoredFlight

/-- The types of records. -/
inductive RecordModel (α : Type) : Type
  /-- Their fields are all their own. -/
  | plain (m : PlainModel α)
  /-- They contain another record. -/
  | extended (m : ExtendedModel α)

/-- The types whose values have documents. -/
inductive Model : Type → Type 1
  /-- Records. -/
  | record {α : Type} (m : RecordModel α) : Model α
  /-- Airport classes. -/
  | airportClass : Model AirportClass
  /-- Catalogs of airports. -/
  | catalog : Model (List Airport)

variable {α : Type}

/-- How the values of a record are written and read. -/
def PlainModel.record : PlainModel α → Record α
  | .position => Geo.Coordinate.record
  | .flight => Flight.record
  | .weights => Weights.record
  | .airport => Airport.record
  | .filters => Filters.record
  | .report => Weather.Observation.record
  | .fix => Tracking.Fix.record
  | .flightSearch => FlightSearch.record
  | .airportSearch => AirportSearch.record
  | .flightResults => FlightResults.record
  | .airportResults => AirportResults.record

/-- How the values of a record that contains another one are written and read. -/
def ExtendedModel.record : ExtendedModel α → Extended α
  | .rankedAirport => RankedAirport.extended
  | .scoredFlight => ScoredFlight.extended

/-- How the records of a type are written and read. -/
def RecordModel.format : RecordModel α → Format α
  | .plain m => m.record.format
  | .extended m => m.record.format

/-- How the values of a model are written and read. -/
def Model.format : Model α → Format α
  | .record m => m.format
  | .airportClass => AirportClass.format
  | .catalog => .list Airport.record.format

/-- Whether a text is read as a value; catalogs are loaded. -/
def Model.Reads : Model α → String → α → Prop
  | .catalog, text, airports => loadCatalog text = .ok airports
  | .record m, text, a => m.format.decode text = .ok a
  | .airportClass, text, c => AirportClass.format.decode text = .ok c

/-- A text is read as what its format makes of it. -/
theorem Model.reads_iff {m : Model α} {text : String} {a : α} : m.Reads text a ↔ m.format.decode text = .ok a := by
  cases m with
  | catalog => exact mapError_eq_ok_iff
  | _ => exact Iff.rfl

/-- The moments in a value. -/
def Model.moments : Model α → α → List Time.Timestamp
  | .record (.plain .report), report => [report.observedAt]
  | .record (.plain .fix), fix => [fix.timestamp]
  | _, _ => []

/-- Moments in years of four digits come back as they were. -/
def Echo.moment : Time.Timestamp.format.Echo where
  levels := 0
  Fit t := 0 ≤ t.date.year ∧ t.date.year ≤ 9999
  back := id
  fits t := .text t.text
  read t _ hyear _ _ := by
    have htext := t.ofText_text hyear.1 hyear.2
    simp [Time.Timestamp.format, Value.node, readText, ofFault, Except.mapError, htext, bind, Except.bind]
  fixed _ _ := rfl

/-- Airport classes come back as they were. -/
def Echo.airportClass : AirportClass.format.Echo := Echo.named fun c => by cases c <;> rfl

/-- A record is never written as null. -/
theorem node_record_ne_null {r : Record α} (a : α) : (r.format.write a).node ≠ .null := by
  simp [Record.format, Value.node]

/-- Doubles that may be absent come back as doubles do. -/
def Echo.optionalReal : (Format.optional .real).Echo :=
  Echo.optional Echo.real fun x hfinite => by
    have hx : x.isFinite = true := hfinite x List.mem_cons_self
    simp [Format.real, Value.node, hx]

/-- Texts that may be absent come back as they were. -/
def Echo.optionalText : (Format.optional .text).Echo := Echo.optional Echo.text fun _ _ => nofun

/-- Counts that may be absent come back as they were. -/
def Echo.optionalCount : (Format.optional .count).Echo := Echo.optional Echo.count fun _ _ => nofun

/-- Whole numbers with a sign that may be absent come back as they were. -/
def Echo.optionalSigned : (Format.optional .signed).Echo := Echo.optional Echo.signed fun _ _ => nofun

/-- Positions come back as their doubles do. -/
def Echo.position : Geo.Coordinate.record.format.Echo :=
  Members.Echo.record
    (.field Echo.real (.field Echo.real .none (by decide)) (by decide))
    (by decide) fun _ => rfl

/-- The fields of flights come back as their doubles do. -/
def Echo.flightMembers : Flight.record.members.Echo :=
  .field Echo.optionalText (.field Echo.optionalText (.field Echo.optionalText (.field Echo.optionalText
    (.field Echo.real (.field Echo.text (.field Echo.count (.field Echo.count (.field Echo.real .none
      (by decide)) (by decide)) (by decide)) (by decide)) (by decide)) (by decide)) (by decide)) (by decide))
    (by decide)

/-- The fields of airports come back as their doubles do. -/
def Echo.airportMembers : Airport.record.members.Echo :=
  .field Echo.text (.field Echo.text (.field Echo.position (.field Echo.airportClass .none
    (by decide)) (by decide)) (by decide)) (by decide)

/-- Flights come back as their doubles do. -/
def Echo.flight : Flight.record.format.Echo := Members.Echo.record Echo.flightMembers (by decide) fun _ => rfl

/-- Airports come back as their doubles do. -/
def Echo.airport : Airport.record.format.Echo := Members.Echo.record Echo.airportMembers (by decide) fun _ => rfl

/-- Weights come back as they were. -/
def Echo.weights : Weights.record.format.Echo :=
  Members.Echo.record
    (.field Echo.byte (.field Echo.byte (.field Echo.byte (.field Echo.byte (.field Echo.byte .none
      (by decide)) (by decide)) (by decide)) (by decide)) (by decide))
    (by decide) fun _ => rfl

/-- Filters come back as their doubles do. -/
def Echo.filters : Filters.record.format.Echo :=
  Members.Echo.record
    (.field Echo.optionalReal (.field Echo.optionalCount (.field Echo.optionalReal (.field Echo.boolean .none
      (by decide)) (by decide)) (by decide)) (by decide))
    (by decide) fun _ => rfl

/-- Weather reports come back as their doubles do. -/
def Echo.report : Weather.Observation.record.format.Echo :=
  Members.Echo.record
    (.field Echo.position (.field Echo.real (.field Echo.real (.field Echo.real (.field Echo.real
      (.field Echo.text (.field Echo.moment .none
        (by decide)) (by decide)) (by decide)) (by decide)) (by decide)) (by decide)) (by decide))
    (by decide) fun _ => rfl

/-- Fixes come back as their doubles do. -/
def Echo.fix : Tracking.Fix.record.format.Echo :=
  Members.Echo.record
    (.field Echo.position (.field Echo.optionalReal (.field Echo.moment .none
      (by decide)) (by decide)) (by decide))
    (by decide) fun _ => rfl

/-- Scored flights come back as their doubles do. -/
def Echo.scoredFlight : ScoredFlight.extended.format.Echo :=
  Members.Echo.extended (.field Echo.count .none (by decide)) Echo.flightMembers
    (by decide) (fun _ => rfl) (by decide)

/-- Ranked airports come back as their doubles do. -/
def Echo.rankedAirport : RankedAirport.extended.format.Echo :=
  Members.Echo.extended (.field Echo.real (.field Echo.real .none (by decide)) (by decide)) Echo.airportMembers
    (by decide) (fun _ => rfl) (by decide)

/-- Flight searches come back as their doubles do. -/
def Echo.flightSearch : FlightSearch.record.format.Echo :=
  Members.Echo.record
    (.field (Echo.list Echo.flight) (.field (Echo.optional Echo.weights fun a _ => node_record_ne_null a)
      (.field Echo.filters .none (by decide)) (by decide)) (by decide))
    (by decide) fun _ => rfl

/-- Airport searches come back as their doubles do. -/
def Echo.airportSearch : AirportSearch.record.format.Echo :=
  Members.Echo.record
    (.field Echo.position (.field Echo.optionalSigned (.field (Echo.list Echo.airportClass) .none
      (by decide)) (by decide)) (by decide))
    (by decide) fun _ => rfl

/-- Ranked flights come back as their doubles do. -/
def Echo.flightResults : FlightResults.record.format.Echo :=
  Members.Echo.record
    (.field (Echo.list Echo.scoredFlight) (.field Echo.size (.field Echo.size .none
      (by decide)) (by decide)) (by decide))
    (by decide) fun _ => rfl

/-- The airports near a position come back as their doubles do. -/
def Echo.airportResults : AirportResults.record.format.Echo :=
  Members.Echo.record
    (.field Echo.position (.field Echo.text (.field (Echo.list Echo.rankedAirport) .none
      (by decide)) (by decide)) (by decide))
    (by decide) fun _ => rfl

/-- The values of a record whose fields are all its own come back as their doubles do. -/
def PlainModel.echo : (m : PlainModel α) → m.record.format.Echo
  | .position => Echo.position
  | .flight => Echo.flight
  | .weights => Echo.weights
  | .airport => Echo.airport
  | .filters => Echo.filters
  | .report => Echo.report
  | .fix => Echo.fix
  | .flightSearch => Echo.flightSearch
  | .airportSearch => Echo.airportSearch
  | .flightResults => Echo.flightResults
  | .airportResults => Echo.airportResults

/-- The values of a record that contains another one come back as their doubles do. -/
def ExtendedModel.echo : (m : ExtendedModel α) → m.record.format.Echo
  | .rankedAirport => Echo.rankedAirport
  | .scoredFlight => Echo.scoredFlight

/-- The records of a type come back as their doubles do. -/
def RecordModel.echo : (m : RecordModel α) → m.format.Echo
  | .plain m => m.echo
  | .extended m => m.echo

/-- The values of a model come back as their doubles do. -/
def Model.echo : (m : Model α) → m.format.Echo
  | .record m => m.echo
  | .airportClass => Echo.airportClass
  | .catalog => Echo.list Echo.airport

/-- No document of a model has too many levels. -/
theorem Model.levels_echo_le (m : Model α) : m.echo.levels ≤ greatestDepth := by
  rcases m with ((_ | _) | (_ | _)) | _ | _ <;> decide

/-- Every position can be read again. -/
theorem Echo.fit_position (a : Geo.Coordinate) : Echo.position.Fit a := ⟨trivial, trivial, trivial⟩

/-- The fields of every flight can be read again. -/
theorem Echo.fit_flightMembers (parts : Flight.record.Parts) : Echo.flightMembers.Fit parts :=
  ⟨fun _ _ => trivial, fun _ _ => trivial, fun _ _ => trivial, fun _ _ => trivial, trivial, trivial, trivial, trivial,
    trivial, trivial⟩

/-- The fields of every airport can be read again. -/
theorem Echo.fit_airportMembers (parts : Airport.record.Parts) : Echo.airportMembers.Fit parts :=
  ⟨trivial, trivial, fit_position _, trivial, trivial⟩

/-- All weights can be read again. -/
theorem Echo.fit_weights (a : Weights) : Echo.weights.Fit a := ⟨trivial, trivial, trivial, trivial, trivial, trivial⟩

/-- All filters can be read again. -/
theorem Echo.fit_filters (a : Filters) : Echo.filters.Fit a :=
  ⟨fun _ _ => trivial, fun _ _ => trivial, fun _ _ => trivial, trivial, trivial⟩

/-- A value can be read again when its moments are in years of four digits. -/
theorem Model.fit_echo : ∀ {α : Type} (m : Model α) (a : α),
    (∀ t ∈ m.moments a, 0 ≤ t.date.year ∧ t.date.year ≤ 9999) → m.echo.Fit a
  | _, .record (.plain .position), a, _ => Echo.fit_position a
  | _, .record (.plain .flight), _, _ => Echo.fit_flightMembers _
  | _, .record (.plain .weights), a, _ => Echo.fit_weights a
  | _, .record (.plain .airport), _, _ => Echo.fit_airportMembers _
  | _, .record (.plain .filters), a, _ => Echo.fit_filters a
  | _, .record (.plain .report), a, h =>
    ⟨Echo.fit_position _, trivial, trivial, trivial, trivial, trivial, h a.observedAt List.mem_cons_self, trivial⟩
  | _, .record (.plain .fix), a, h =>
    ⟨Echo.fit_position _, fun _ _ => trivial, h a.timestamp List.mem_cons_self, trivial⟩
  | _, .record (.plain .flightSearch), _, _ =>
    ⟨fun _ _ => Echo.fit_flightMembers _, fun weights _ => Echo.fit_weights weights, Echo.fit_filters _, trivial⟩
  | _, .record (.plain .airportSearch), _, _ => ⟨Echo.fit_position _, fun _ _ => trivial, fun _ _ => trivial, trivial⟩
  | _, .record (.plain .flightResults), _, _ =>
    ⟨fun _ _ => ⟨Echo.fit_flightMembers _, trivial, trivial⟩, trivial, trivial, trivial⟩
  | _, .record (.plain .airportResults), _, _ =>
    ⟨Echo.fit_position _, trivial, fun _ _ => ⟨Echo.fit_airportMembers _, trivial, trivial, trivial⟩, trivial⟩
  | _, .record (.extended .rankedAirport), _, _ => ⟨Echo.fit_airportMembers _, trivial, trivial, trivial⟩
  | _, .record (.extended .scoredFlight), _, _ => ⟨Echo.fit_flightMembers _, trivial, trivial⟩
  | _, .airportClass, _, _ => trivial
  | _, .catalog, _, _ => fun _ _ => Echo.fit_airportMembers _

/-- A value of a model is read back from its document as it comes back, if its moments are in years of four digits and
its doubles are finite. -/
theorem Model.reads_back (m : Model α) (a : α) (hyears : ∀ t ∈ m.moments a, 0 ≤ t.date.year ∧ t.date.year ≤ 9999)
    (hfinite : (m.format.write a).IsFinite) : m.Reads (m.format.encode a) (m.echo.back a) :=
  reads_iff.2 (m.echo.decode_encode m.levels_echo_le (m.fit_echo a hyears) hfinite)

/-- Every value of a model is read back from its document as it was, if its moments are in years of four digits and the
written form of each double in it is read as that double. -/
theorem Model.reads_encode (m : Model α) (a : α)
    (hyears : ∀ t ∈ m.moments a, 0 ≤ t.date.year ∧ t.date.year ≤ 9999)
    (hreals : ∀ x ∈ (m.format.write a).reals, Format.real.decode (Format.real.encode x) = .ok x) :
    m.Reads (m.format.encode a) a := by
  have hfinite : (m.format.write a).IsFinite := fun x hx => (reread_of_decode (hreals x hx)).1
  have hfixed : m.echo.back a = a := m.echo.fixed a fun x hx => (reread_of_decode (hreals x hx)).2
  have hreads := m.reads_back a hyears hfinite
  rwa [hfixed] at hreads

/-- A report on a storm during the leap second at the end of 2016. -/
def stormReport : Weather.Observation where
  location := ⟨40.6413, -73.7781⟩
  temperature := -1.5
  windSpeed := 48
  windDirection := 270
  visibility := 0.25
  conditions := "\"Schneesturm\"\n\u2744"
  observedAt := (Time.Timestamp.ofText "2016-12-31T23:59:60.123456Z").toOption.getD .epoch

/-- The report on the storm is read back. -/
theorem reads_stormReport :
    (Model.record (.plain .report)).Reads ((Model.record (.plain .report)).format.encode stormReport) stormReport :=
  Model.reads_encode (.record (.plain .report)) stormReport (by decide +kernel) (by decide +kernel)

end FlightPlanner
