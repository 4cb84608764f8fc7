import FlightPlanner.Proofs.Planning.NearestAirports
import FlightPlanner.Proofs.Ranking.Parts

/-!
# The nearest airports, found in parts

A catalog may be searched in parts: the nearest airports of two lists in one are the nearest ones among those nearest in
each list. The distances may be anything, so that this holds for airports at one distance, in one list or across both,
and for distances that are no numbers.
-/

namespace FlightPlanner

open Ranking

/-- The airports that are listed, without what is seen of them, are the first ones in order. -/
theorem Gauge.map_airport_nearest (gauge : Gauge) (origin : Geo.Coordinate) (airports : List Airport) (limit : ℕ) :
    (gauge.nearest origin airports limit).map (·.airport) =
      (airports.mergeSort (gauge.ahead origin)).take limit := by
  rw [Gauge.nearest, List.map_map]
  exact List.map_id _

/-- The nearest airports of two lists in one are the nearest ones of those that are nearest in each of them. In
particular the nearest airports of what was listed as nearest are just these, as they were listed. -/
theorem Gauge.nearest_in_parts (gauge : Gauge) (origin : Geo.Coordinate) (airports others : List Airport)
    (limit : ℕ) :
    let listed (candidates : List Airport) : List Airport := (gauge.nearest origin candidates limit).map (·.airport)
    gauge.nearest origin (airports ++ others) limit =
        gauge.nearest origin (listed airports ++ listed others) limit ∧
      gauge.nearest origin (listed airports) limit = gauge.nearest origin airports limit := by
  intro listed
  have hlisted : ∀ candidates, listed candidates = (candidates.mergeSort (gauge.ahead origin)).take limit :=
    fun candidates => gauge.map_airport_nearest origin candidates limit
  constructor
  · rw [hlisted, hlisted, Gauge.nearest, Gauge.nearest,
      take_mergeSort_append (gauge.ahead_trans origin) (gauge.ahead_total origin)]
  · rw [hlisted, Gauge.nearest, Gauge.nearest,
      mergeSort_take_mergeSort (gauge.ahead_trans origin) (gauge.ahead_total origin), List.take_take, min_self]

end FlightPlanner
