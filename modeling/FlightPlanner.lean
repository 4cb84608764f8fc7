import FlightPlanner.Documents.Moment
import FlightPlanner.Documents.Search
import FlightPlanner.Logging.Log
import FlightPlanner.Planning.Events
import FlightPlanner.Proofs.Documents.Acceptance
import FlightPlanner.Proofs.Documents.StoredCatalogs
import FlightPlanner.Proofs.Flight.DurationGrammar
import FlightPlanner.Proofs.Flight.Monotonicity
import FlightPlanner.Proofs.Flight.WeightlessCriteria
import FlightPlanner.Proofs.Geo.DistanceLaws
import FlightPlanner.Proofs.Geo.Labels
import FlightPlanner.Proofs.Planning.Acceptance
import FlightPlanner.Proofs.Planning.Complaints
import FlightPlanner.Proofs.Planning.DistanceOrder
import FlightPlanner.Proofs.Planning.NearestInParts
import FlightPlanner.Proofs.Planning.ReadableAnswers
import FlightPlanner.Proofs.Planning.TighterFilters
import FlightPlanner.Proofs.Settings.Capping
import FlightPlanner.Proofs.Tracking.Announcements
import FlightPlanner.Proofs.Tracking.Conversation
