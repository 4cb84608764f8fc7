import FlightPlanner.Validation.Rules
import Mathlib.Logic.Basic
import Mathlib.Tactic.MkIffOfInductiveProp

/-!
# Requests without complaints

The declared ranges, field by field, and the law that a request gives rise to no complaint exactly when none of
its fields is below the least or above the greatest value declared for it. A comparison with what is not a
number fails, so a field that holds no number keeps every range.
-/

namespace FlightPlanner

open Validation

namespace Validation

/-- A field is complained about exactly when its value breaks its range. -/
@[simp] theorem Range.check_eq_nil_iff {α : Type} [LT α] [DecidableRel (LT.lt (α := α))] {amount : α → Amount}
    {range : Range α} {name : String} {value : α} :
    range.check amount name value = [] ↔ range.isBroken value = false := by
  unfold Range.check
  split <;> simp_all

/-- A range with both bounds is kept by what is neither below the one nor above the other. -/
@[simp] theorem Range.isBroken_eq_false_iff {α : Type} [LT α] [DecidableRel (LT.lt (α := α))] {range : Range α}
    {value : α} :
    range.isBroken value = false ↔
      (∀ least ∈ range.least, ¬ value < least) ∧ ∀ greatest ∈ range.greatest, ¬ greatest < value := by
  unfold Range.isBroken
  cases range.least <;> cases range.greatest <;> simp

/-- A part is left out exactly when there is nothing to complain about in it. -/
@[simp] theorem Forest.under_eq_nil_iff {step : Step} {parts : Forest} :
    Forest.under step parts = [] ↔ parts = [] := by
  cases parts <;> simp [Forest.under]

/-- The elements of a list are complained about one by one, wherever their places start. -/
@[simp] theorem Forest.ofListFrom_eq_nil_iff {α : Type} {check : α → Forest} {start : Nat} {elements : List α} :
    Forest.ofListFrom check start elements = [] ↔ ∀ a ∈ elements, check a = [] := by
  induction elements generalizing start with
  | nil => simp [Forest.ofListFrom]
  | cons a rest ih => simp [Forest.ofListFrom, ih]

/-- A list is complained about exactly when one of its elements is. -/
@[simp] theorem Forest.ofList_eq_nil_iff {α : Type} {check : α → Forest} {elements : List α} :
    Forest.ofList check elements = [] ↔ ∀ a ∈ elements, check a = [] :=
  Forest.ofListFrom_eq_nil_iff

/-- An absent part is not complained about. -/
@[simp] theorem Forest.ofOption_eq_nil_iff {α : Type} {check : α → Forest} {part : Option α} :
    Forest.ofOption check part = [] ↔ ∀ a ∈ part, check a = [] := by
  cases part <;> simp [Forest.ofOption]

end Validation

/-- Both numbers of a position keep their ranges. -/
@[mk_iff]
structure Geo.Coordinate.KeepsRanges (position : Geo.Coordinate) : Prop where
  /-- The latitude is neither south of the one pole nor north of the other. -/
  latitude : ¬ position.latitude < -90 ∧ ¬ 90 < position.latitude
  /-- The longitude is at most half a turn to either side. -/
  longitude : ¬ position.longitude < -180 ∧ ¬ 180 < position.longitude

/-- The price and the rating of a flight keep their ranges. -/
@[mk_iff]
structure Flight.KeepsRanges (flight : Flight) : Prop where
  /-- The price is not below zero. -/
  price : ¬ flight.price < 0
  /-- The rating is neither below zero nor above five. -/
  safetyRating : ¬ flight.safetyRating < 0 ∧ ¬ 5 < flight.safetyRating

/-- No weight is above a hundred. -/
@[mk_iff]
structure Weights.KeepsRanges (weights : Weights) : Prop where
  /-- The weight of a low price. -/
  cost : weights.cost ≤ 100
  /-- The weight of a short duration. -/
  time : weights.time ≤ 100
  /-- The weight of the safety rating. -/
  safety : weights.safety ≤ 100
  /-- The weight of few stops. -/
  comfort : weights.comfort ≤ 100
  /-- The weight of few layovers. -/
  layoverSensitivity : weights.layoverSensitivity ≤ 100

/-- The bounds that are set keep the ranges of what they bound. -/
@[mk_iff]
structure Filters.KeepsRanges (filters : Filters) : Prop where
  /-- The greatest price is not below zero. -/
  maxPrice : ∀ price ∈ filters.maxPrice, ¬ price < 0
  /-- The least rating is neither below zero nor above five. -/
  minSafetyRating : ∀ rating ∈ filters.minSafetyRating, ¬ rating < 0 ∧ ¬ 5 < rating

/-- Every part of a flight search keeps its ranges. -/
@[mk_iff]
structure FlightSearch.KeepsRanges (search : FlightSearch) : Prop where
  /-- Every flight does. -/
  flights : ∀ flight ∈ search.flights, flight.KeepsRanges
  /-- The priorities do, where they are given. -/
  priorities : ∀ weights ∈ search.priorities, weights.KeepsRanges
  /-- The filters do. -/
  filters : search.filters.KeepsRanges

/-- A position is complained about exactly when one of its numbers breaks its range. -/
theorem Geo.Coordinate.complaints_eq_nil_iff {position : Geo.Coordinate} :
    position.complaints = [] ↔ position.KeepsRanges := by
  rw [Geo.Coordinate.complaints, List.append_eq_nil_iff, keepsRanges_iff]
  simp [Range.checkReal, latitudeRange, longitudeRange]

/-- A position breaks a range when one of its numbers is beyond a bound. -/
theorem Geo.Coordinate.not_keepsRanges_iff {position : Geo.Coordinate} :
    ¬ position.KeepsRanges ↔ position.latitude < -90 ∨ 90 < position.latitude ∨
      position.longitude < -180 ∨ 180 < position.longitude := by
  rw [keepsRanges_iff, not_and_or, not_and_or, not_and_or]
  simp only [not_not, or_assoc]

/-- A flight is complained about exactly when its price or its rating breaks its range. -/
theorem Flight.complaints_eq_nil_iff {flight : Flight} : flight.complaints = [] ↔ flight.KeepsRanges := by
  rw [Flight.complaints, List.append_eq_nil_iff, keepsRanges_iff]
  simp [Range.checkReal, priceRange, ratingRange]

/-- Weights are complained about exactly when one of them is above a hundred. -/
theorem Weights.complaints_eq_nil_iff {weights : Weights} : weights.complaints = [] ↔ weights.KeepsRanges := by
  simp only [Weights.complaints, List.append_eq_nil_iff, keepsRanges_iff, and_assoc]
  simp [Range.checkByte, weightRange]

/-- Filters are complained about exactly when a bound that is set breaks its range. -/
theorem Filters.complaints_eq_nil_iff {filters : Filters} : filters.complaints = [] ↔ filters.KeepsRanges := by
  rw [Filters.complaints, List.append_eq_nil_iff, keepsRanges_iff]
  simp [Range.checkReal, priceRange, ratingRange]

/-- A flight search is complained about exactly when some part of it breaks a range. -/
theorem FlightSearch.complaints_eq_nil_iff {search : FlightSearch} :
    search.complaints = [] ↔ search.KeepsRanges := by
  simp only [FlightSearch.complaints, List.append_eq_nil_iff, keepsRanges_iff, and_assoc,
    Forest.under_eq_nil_iff, Forest.ofList_eq_nil_iff, Forest.ofOption_eq_nil_iff,
    Flight.complaints_eq_nil_iff, Weights.complaints_eq_nil_iff, Filters.complaints_eq_nil_iff]

/-- An airport search is complained about exactly when its origin breaks a range. -/
theorem AirportSearch.complaints_eq_nil_iff {search : AirportSearch} :
    search.complaints = [] ↔ search.origin.KeepsRanges := by
  rw [AirportSearch.complaints, Forest.under_eq_nil_iff, Geo.Coordinate.complaints_eq_nil_iff]

end FlightPlanner
