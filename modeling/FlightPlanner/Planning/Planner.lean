import FlightPlanner.Airport.Nearest
import FlightPlanner.Flight.Filter
import FlightPlanner.Geo.Label
import FlightPlanner.Settings.Basic
import FlightPlanner.Validation.Rules
import FlightPlanner.Weather.Observation

/-!
# The planner

The planner answers requests. It first complains about everything in a request that is out of range; then
flights are filtered, scored and ranked, airports are chosen by class and ranked by distance, and weather
reports are asked of a provider.
-/

namespace FlightPlanner

/-- Why the planner gives no answer. -/
inductive PlannerError where
  /-- Something in the request is out of range. -/
  | outOfRange (complaints : Validation.Forest)
  /-- The provider has no answer. -/
  | provider (cause : Weather.ProviderError)

/-- The wording of what a provider says. -/
def PlannerError.providerMessage (cause : Weather.ProviderError) : String :=
  "Provider error: " ++ cause.message

/-- A planner with its defaults. -/
structure Planner where
  /-- The weights of searches that bring none. -/
  weights : Weights
  /-- How many airports are listed when nothing is asked for. -/
  defaultLimit : UInt64
  /-- How many airports are listed at most. -/
  maxLimit : UInt64
deriving DecidableEq, Repr

namespace Planner

/-- The planner where nothing is configured. -/
def standard : Planner := ⟨.standard, RankingSettings.standard.defaultLimit, RankingSettings.standard.maxLimit⟩

/-- The planner of some settings. -/
def ofSettings (settings : Settings) : Planner :=
  ⟨settings.weights, settings.ranking.defaultLimit, settings.ranking.maxLimit⟩

/-- The answer to a request, if nothing in it is out of range. -/
def checked (complaints : Validation.Forest) (answer : Except PlannerError α) : Except PlannerError α :=
  if complaints.isEmpty then answer else .error (.outOfRange complaints)

/-- The weights that count for a search. -/
def weightsFor (planner : Planner) (search : FlightSearch) : Weights :=
  search.priorities.getD planner.weights

/-- The flights of a search that pass its filters, ranked. -/
def rank (planner : Planner) (search : FlightSearch) : List ScoredFlight :=
  rankFlights (planner.weightsFor search) (search.flights.filter search.filters.passes)

/-- The answer to a flight search. -/
def searchFlights (planner : Planner) (search : FlightSearch) : Except PlannerError FlightResults :=
  checked search.complaints
    (.ok ⟨planner.rank search, .ofNat search.flights.length, .ofNat (planner.rank search).length⟩)

/-- How many airports are listed for a search. -/
def limitFor (planner : Planner) (search : AirportSearch) : UInt64 :=
  min ((search.limit.map effectiveLimit).getD planner.defaultLimit) planner.maxLimit

/-- The airports of a catalog among which a search chooses. -/
def candidates (search : AirportSearch) (catalog : List Airport) : List Airport :=
  catalog.filter (Airport.isWanted search.classes)

/-- The answer to an airport search. -/
def nearestAirports (planner : Planner) (gauge : Gauge) (search : AirportSearch) (catalog : List Airport) :
    Except PlannerError AirportResults :=
  checked search.complaints
    (.ok ⟨search.origin, search.origin.label,
      gauge.nearest search.origin (candidates search catalog) (planner.limitFor search).toNat⟩)

/-- The weather at a position. -/
def weatherAt (provider : Weather.Provider) (now : Time.Timestamp) (location : Geo.Coordinate) :
    Except PlannerError Weather.Observation :=
  checked location.complaints ((provider now location).mapError .provider)

end Planner

end FlightPlanner
