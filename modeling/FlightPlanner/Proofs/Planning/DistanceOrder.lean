import FlightPlanner.Proofs.Planning.NearestAirports

/-!
# The order of distances is consistent

Airports are sorted by comparing their distances two at a time. Whatever the distances are, be they numbers, zeros of
either sign, infinities or none of these, the answers agree with each other: the comparison reverses with its operands and
passes on. So the sort never meets an order that contradicts itself, and what it leaves rises throughout.
-/

namespace FlightPlanner

/-- Comparing airports by their distances from a position is consistent, whatever the distances are. -/
theorem Gauge.transCmp (gauge : Gauge) (origin : Geo.Coordinate) : Std.TransCmp fun a b : Airport =>
    (gauge.pattern origin a.location).compareNumbersFirst (gauge.pattern origin b.location) where
  eq_swap := Std.OrientedCmp.eq_swap
  isLE_trans := Std.TransCmp.isLE_trans

/-- The comparison of distances is a consistent order of all patterns. It reverses with its operands; less, equal and
greater pass on, and so does being no greater. Numbers come before what is not a number, and among them the order is that
of numbers, with negative zero before zero. So the comparison of airports is consistent, around any position and by any
gauge, and sorting by it leaves no airport behind one that has to come after it. -/
theorem Gauge.distances_consistently_ordered :
    (∀ x y : Binary64.Pattern, x.compareNumbersFirst y = (y.compareNumbersFirst x).swap) ∧
      (∀ (order : Ordering) (x y z : Binary64.Pattern), x.compareNumbersFirst y = order →
        y.compareNumbersFirst z = order → x.compareNumbersFirst z = order) ∧
      (∀ x y z : Binary64.Pattern, (x.compareNumbersFirst y).isLE = true →
        (y.compareNumbersFirst z).isLE = true → (x.compareNumbersFirst z).isLE = true) ∧
      (∀ x y : Binary64.Pattern, x.toFloat.isNaN = false → y.toFloat.isNaN = true →
        x.compareNumbersFirst y = .lt) ∧
      (∀ x y : Binary64.Pattern, x.toFloat.isNaN = false → y.toFloat.isNaN = false →
        (x.compareNumbersFirst y = .lt ↔ x.toFloat < y.toFloat ∨ x.toFloat = -0 ∧ y.toFloat = 0) ∧
        (x.compareNumbersFirst y = .eq ↔ x.toFloat = y.toFloat)) ∧
      (∀ (gauge : Gauge) (origin : Geo.Coordinate), (Std.TransCmp fun a b : Airport =>
          (gauge.pattern origin a.location).compareNumbersFirst (gauge.pattern origin b.location)) ∧
        ∀ airports : List Airport,
          (airports.mergeSort (gauge.ahead origin)).Pairwise fun a b => gauge.ahead origin a b = true) := by
  refine ⟨Binary64.Pattern.compareNumbersFirst_swap, ?_, fun _ _ _ => Std.TransCmp.isLE_trans, ?_, ?_, ?_⟩
  · intro order x y z hxy hyz
    cases order with
    | lt => exact Std.TransCmp.lt_trans hxy hyz
    | eq => exact Std.TransCmp.eq_trans hxy hyz
    | gt => exact Std.TransCmp.gt_trans hxy hyz
  · intro x y hx hy
    rw [Binary64.Pattern.isNaN_toFloat] at hx hy
    exact Binary64.Pattern.compareNumbersFirst_of_isNaN hx hy
  · intro x y hx hy
    rw [Binary64.Pattern.isNaN_toFloat] at hx hy
    exact Binary64.Pattern.compareNumbersFirst_numbers hx hy
  · intro gauge origin
    refine ⟨gauge.transCmp origin, fun airports => ?_⟩
    exact List.pairwise_mergeSort (gauge.ahead_trans origin) (gauge.ahead_total origin) airports

end FlightPlanner
