import FlightPlanner.Proofs.Binary64.Finite

/-!
# Doubles between bounds

Rounding to the nearest double keeps the order, so what is between two doubles before an operation is between what the
operation makes of them. From one to minus one, products stay where they were; sums and differences stay finite.
-/

namespace FlightPlanner.Binary64

variable {c x y : Float} {q r : ℚ}

/-- Doubles are ordered as the numbers that they stand nearest to. -/
theorem le_of_standsAt (hx : StandsAt x (nearestPlace q)) (hy : StandsAt y (nearestPlace r)) (h : q ≤ r) : x ≤ y := by
  rw [le_iff_rank hx.1 hy.1, hx.2, hy.2]
  exact nearestPlace_mono h

/-- The order of doubles is transitive. -/
theorem le_trans_number {z : Float} (hxy : x ≤ y) (hyz : y ≤ z) : x ≤ z := by
  obtain ⟨hx, hy⟩ := isNaN_of_le hxy
  obtain ⟨-, hz⟩ := isNaN_of_le hyz
  rw [le_iff_rank hx hy] at hxy
  rw [le_iff_rank hy hz] at hyz
  rw [le_iff_rank hx hz]
  exact hxy.trans hyz

/-- What is above a double is above whatever is at most this double. -/
theorem lt_of_le_of_lt_number {z : Float} (hxy : x ≤ y) (hyz : y < z) : x < z := by
  obtain ⟨hx, hy⟩ := isNaN_of_le hxy
  obtain ⟨-, hz⟩ := isNaN_of_lt hyz
  rw [le_iff_rank hx hy] at hxy
  rw [lt_iff_rank hy hz] at hyz
  rw [lt_iff_rank hx hz]
  exact hxy.trans_lt hyz

/-- What is at least a double is above whatever is below this double. -/
theorem lt_of_lt_of_le_number {z : Float} (hxy : x < y) (hyz : y ≤ z) : x < z := by
  obtain ⟨hx, hy⟩ := isNaN_of_lt hxy
  obtain ⟨-, hz⟩ := isNaN_of_le hyz
  rw [lt_iff_rank hx hy] at hxy
  rw [le_iff_rank hy hz] at hyz
  rw [lt_iff_rank hx hz]
  exact hxy.trans_le hyz

/-- The value of minus one. -/
theorem valueOf_neg_one : valueOf (-1) = -1 := by
  have hform : (-1 : Float).toModel.unpack = .finite .negative 0x10000000000000 (-52) (by decide) := by rfl
  rw [valueOf, hform, exactOf_negative]
  norm_num

/-- A double between minus one and one. -/
def WithinOne (x : Float) : Prop := -1 ≤ x ∧ x ≤ 1

/-- One is the upper end of these doubles. -/
theorem withinOne_one : WithinOne 1 := ⟨by decide, by decide⟩

/-- A double between minus one and one is finite. -/
theorem WithinOne.isFinite (h : WithinOne x) : x.isFinite = true := isFinite_of_between (by decide) (by decide) h.1 h.2

/-- The magnitude of a double between minus one and one is at most one. -/
theorem WithinOne.abs_valueOf_le (h : WithinOne x) : |valueOf x| ≤ 1 := by
  have hlow := (le_iff_valueOf (by decide) h.isFinite).1 h.1
  have hhigh := (le_iff_valueOf h.isFinite (by decide)).1 h.2
  rw [valueOf_neg_one] at hlow
  rw [valueOf_one] at hhigh
  exact abs_le.2 ⟨hlow, hhigh⟩

/-- The product of doubles between minus one and one is between them too. -/
theorem WithinOne.mul (hx : WithinOne x) (hy : WithinOne y) : WithinOne (x * y) := by
  have hproduct : |valueOf x * valueOf y| ≤ 1 := by
    rw [abs_mul]
    exact mul_le_one₀ hx.abs_valueOf_le (abs_nonneg _) hy.abs_valueOf_le
  obtain ⟨hlow, hhigh⟩ := abs_le.1 hproduct
  have hstands := standsAt_mul hx.isFinite hy.isFinite
  refine ⟨le_of_standsAt (standsAt_valueOf (by decide)) hstands ?_,
    le_of_standsAt hstands (standsAt_valueOf (by decide)) ?_⟩
  · rwa [valueOf_neg_one]
  · rwa [valueOf_one]

/-- The sum of doubles between minus one and one is finite. -/
theorem WithinOne.isFinite_add (hx : WithinOne x) (hy : WithinOne y) : (x + y).isFinite = true := by
  refine Binary64.isFinite_add hx.isFinite hy.isFinite (lt_overflow ?_)
  linarith [abs_add_le (valueOf x) (valueOf y), hx.abs_valueOf_le, hy.abs_valueOf_le]

/-- The difference of doubles between minus one and one is finite. -/
theorem WithinOne.isFinite_sub (hx : WithinOne x) (hy : WithinOne y) : (x - y).isFinite = true := by
  refine Binary64.isFinite_sub hx.isFinite hy.isFinite (lt_overflow ?_)
  linarith [abs_sub (valueOf x) (valueOf y), hx.abs_valueOf_le, hy.abs_valueOf_le]

/-- A finite double times one between minus one and one is finite. -/
theorem WithinOne.isFinite_mul (hy : WithinOne y) (hx : x.isFinite = true) : (x * y).isFinite = true := by
  refine Binary64.isFinite_mul hx hy.isFinite (lt_of_le_of_lt ?_ greatest_lt)
  rw [abs_mul]
  exact (mul_le_of_le_one_right (abs_nonneg _) hy.abs_valueOf_le).trans (Binary64.abs_valueOf_le hx)

section Scaling

variable {low high : Float} (hc : c.isFinite = true) (hpos : 0 ≤ c) (hlow : low.isFinite = true)
  (hhigh : high.isFinite = true) (h : low ≤ x ∧ x ≤ high)

include hc hpos hlow hhigh h

/-- What is between two doubles is so after a multiplication by a number that is not below zero. -/
theorem scale_mem : c * low ≤ c * x ∧ c * x ≤ c * high := by
  have hx : x.isFinite = true := isFinite_of_between hlow hhigh h.1 h.2
  have hzero : valueOf 0 = 0 := by rfl
  have hvalue := (le_iff_valueOf (by decide) hc).1 hpos
  rw [hzero] at hvalue
  exact ⟨le_of_standsAt (standsAt_mul hc hlow) (standsAt_mul hc hx)
      (mul_le_mul_of_nonneg_left ((le_iff_valueOf hlow hx).1 h.1) hvalue),
    le_of_standsAt (standsAt_mul hc hx) (standsAt_mul hc hhigh)
      (mul_le_mul_of_nonneg_left ((le_iff_valueOf hx hhigh).1 h.2) hvalue)⟩

/-- It stays finite if its bounds do, on whichever side it is multiplied. -/
theorem isFinite_scale (hlow' : (c * low).isFinite = true) (hhigh' : (c * high).isFinite = true) :
    (c * x).isFinite = true ∧ (x * c).isFinite = true := by
  have hx : x.isFinite = true := isFinite_of_between hlow hhigh h.1 h.2
  have hmem := scale_mem hc hpos hlow hhigh h
  have hproduct : (c * x).isFinite = true := isFinite_of_between hlow' hhigh' hmem.1 hmem.2
  refine ⟨hproduct, ?_⟩
  have hstands := standsAt_mul hx hc
  rw [mul_comm, ← (standsAt_mul hc hx).2] at hstands
  rw [isFinite_iff_rank hstands.1, hstands.2, ← isFinite_iff_rank (standsAt_mul hc hx).1]
  exact hproduct

end Scaling

end FlightPlanner.Binary64
