import FlightPlanner.Planning.Request
import FlightPlanner.Validation.Range

/-!
# The declared ranges

Which ranges the fields of positions, flights, weights, filters and searches declare, and the complaints
about each of these. Everything is checked: one complaint does not hide another.
-/

namespace FlightPlanner

open Validation

/-- Latitudes reach from pole to pole. -/
def latitudeRange : Range Float := ⟨some (-90), some 90⟩

/-- Longitudes reach half a turn to either side. -/
def longitudeRange : Range Float := ⟨some (-180), some 180⟩

/-- Prices are not negative. -/
def priceRange : Range Float := ⟨some 0, none⟩

/-- Ratings reach from zero to five. -/
def ratingRange : Range Float := ⟨some 0, some 5⟩

/-- Weights reach to a hundred. -/
def weightRange : Range UInt8 := ⟨none, some 100⟩

/-- The complaints about a position. -/
def Geo.Coordinate.complaints (position : Geo.Coordinate) : Forest :=
  latitudeRange.checkReal "latitude" position.latitude ++
    longitudeRange.checkReal "longitude" position.longitude

/-- The complaints about a flight. -/
def Flight.complaints (flight : Flight) : Forest :=
  priceRange.checkReal "price" flight.price ++ ratingRange.checkReal "safety_rating" flight.safetyRating

/-- The complaints about weights. -/
def Weights.complaints (weights : Weights) : Forest :=
  weightRange.checkByte "cost" weights.cost ++ weightRange.checkByte "time" weights.time ++
    weightRange.checkByte "safety" weights.safety ++ weightRange.checkByte "comfort" weights.comfort ++
    weightRange.checkByte "layover_sensitivity" weights.layoverSensitivity

/-- The complaints about filters. -/
def Filters.complaints (filters : Filters) : Forest :=
  Forest.ofOption (priceRange.checkReal "max_price") filters.maxPrice ++
    Forest.ofOption (ratingRange.checkReal "min_safety_rating") filters.minSafetyRating

/-- The complaints about a flight search. -/
def FlightSearch.complaints (search : FlightSearch) : Forest :=
  Forest.under (.field "flights") (Forest.ofList Flight.complaints search.flights) ++
    Forest.under (.field "priorities") (Forest.ofOption Weights.complaints search.priorities) ++
    Forest.under (.field "filters") search.filters.complaints

/-- The complaints about an airport search. -/
def AirportSearch.complaints (search : AirportSearch) : Forest :=
  Forest.under (.field "origin") search.origin.complaints

end FlightPlanner
