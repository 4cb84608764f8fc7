import FlightPlanner.Geo.Distance
import FlightPlanner.Proofs.Binary64.Intervals

/-!
# Distances are finite

The distance from a position on the globe to any other one is finite, as long as the numbers of the other one are: the
coordinates need not be on the globe, so their difference may be as great as the doubles are, and still it does not
overflow. What comes behind it is bounded by what the functions of a triangle are known to keep.
-/

namespace FlightPlanner.Geo

open Binary64

/-- Where the sine and the cosine of a finite angle are. -/
structure Trig.SidesWithinOne (trig : Trig) : Prop where
  /-- Sines are between minus one and one. -/
  sin : ∀ angle, angle.isFinite = true → WithinOne (trig.sin angle)
  /-- Cosines are between minus one and one. -/
  cos : ∀ angle, angle.isFinite = true → WithinOne (trig.cos angle)

/-- What is known of the functions of a triangle: where the sine and the cosine of a finite angle are, where the square
root of a number from zero to one is, and that an angle is at most half a turn to either side. -/
structure Trig.Bounded (trig : Trig) : Prop where
  /-- Sines are between minus one and one. -/
  sin : ∀ angle, angle.isFinite = true → WithinOne (trig.sin angle)
  /-- Cosines are between minus one and one. -/
  cos : ∀ angle, angle.isFinite = true → WithinOne (trig.cos angle)
  /-- Square roots of numbers from zero to one are such numbers. -/
  sqrt : ∀ x, 0 ≤ x → x ≤ 1 → 0 ≤ trig.sqrt x ∧ trig.sqrt x ≤ 1
  /-- Angles are at most half a turn. -/
  atan2 : ∀ y x, y.isFinite = true → x.isFinite = true → -pi ≤ trig.atan2 y x ∧ trig.atan2 y x ≤ pi

/-- Bounded functions have bounded sines and cosines. -/
theorem Trig.Bounded.sidesWithinOne {trig : Trig} (h : trig.Bounded) : trig.SidesWithinOne := ⟨h.sin, h.cos⟩

/-- Both numbers of a position are finite. -/
structure Coordinate.IsFinite (a : Coordinate) : Prop where
  /-- The latitude is finite. -/
  latitude : a.latitude.isFinite = true
  /-- The longitude is finite. -/
  longitude : a.longitude.isFinite = true

/-- A position is on the globe. -/
structure Coordinate.OnGlobe (a : Coordinate) : Prop where
  /-- The latitude is between the poles. -/
  latitude : -90 ≤ a.latitude ∧ a.latitude ≤ 90
  /-- The longitude is at most half a turn to either side. -/
  longitude : -180 ≤ a.longitude ∧ a.longitude ≤ 180

variable {trig : Trig} {a b : Coordinate} {x y : Float}

/-- A finite number of degrees is a finite number of radians. -/
theorem isFinite_radians (h : x.isFinite = true) : (radians x).isFinite = true := by
  have hunit : WithinOne (pi / 180) := ⟨by decide +kernel, by decide +kernel⟩
  exact hunit.isFinite_mul h

/-- A position on the globe is finite. -/
theorem Coordinate.OnGlobe.isFinite (h : a.OnGlobe) : a.IsFinite :=
  ⟨isFinite_of_between (by decide) (by decide) h.latitude.1 h.latitude.2,
    isFinite_of_between (by decide) (by decide) h.longitude.1 h.longitude.2⟩

/-- The values of half a turn to either side. -/
theorem valueOf_halfTurn : valueOf 180 = 180 ∧ valueOf (-180) = -180 := by
  have hright : (180 : Float).toModel.unpack = .finite .positive 0x16800000000000 (-45) (by decide) := by rfl
  have hleft : (-180 : Float).toModel.unpack = .finite .negative 0x16800000000000 (-45) (by decide) := by rfl
  rw [valueOf, hright, exactOf_positive, valueOf, hleft, exactOf_negative]
  norm_num

/-- The difference of a finite double and an angle of at most half a turn is finite. -/
theorem isFinite_sub_angle (hx : x.isFinite = true) (h : -180 ≤ y ∧ y ≤ 180) : (x - y).isFinite = true := by
  have hy : y.isFinite = true := isFinite_of_between (by decide) (by decide) h.1 h.2
  have hlow := (le_iff_valueOf (by decide) hy).1 h.1
  have hhigh := (le_iff_valueOf hy (by decide)).1 h.2
  rw [valueOf_halfTurn.2] at hlow
  rw [valueOf_halfTurn.1] at hhigh
  refine isFinite_sub hx hy ?_
  calc |valueOf x - valueOf y| ≤ |valueOf x| + |valueOf y| := abs_sub _ _
    _ ≤ greatest + 180 := add_le_add (Binary64.abs_valueOf_le hx) (abs_le.2 ⟨hlow, hhigh⟩)
    _ < overflow := greatest_add_lt (by norm_num)

/-- A latitude on the globe is an angle of at most half a turn. -/
theorem Coordinate.OnGlobe.latitude_angle (h : a.OnGlobe) : -180 ≤ a.latitude ∧ a.latitude ≤ 180 :=
  ⟨le_trans_number (by decide +kernel) h.latitude.1, le_trans_number h.latitude.2 (by decide +kernel)⟩

/-- The differences of a finite position to one on the globe are finite in radians. -/
theorem Coordinate.OnGlobe.isFinite_differences (ha : a.OnGlobe) (hb : b.IsFinite) :
    (radians (b.latitude - a.latitude)).isFinite = true ∧ (radians (b.longitude - a.longitude)).isFinite = true :=
  ⟨isFinite_radians (isFinite_sub_angle hb.latitude ha.latitude_angle),
    isFinite_radians (isFinite_sub_angle hb.longitude ha.longitude)⟩

/-- Half a finite double is finite. -/
theorem isFinite_half (h : x.isFinite = true) : (x / 2).isFinite = true := by
  have htwo : valueOf 1 ≤ valueOf 2 := (le_iff_valueOf (by decide) (by decide)).1 (by decide)
  rw [valueOf_one] at htwo
  exact isFinite_div h (by decide) htwo

/-- A number is clamped to zero or one, or it is between them and kept. -/
theorem clampToUnit_cases (h : x.isNaN = false) :
    clampToUnit x = 0 ∨ clampToUnit x = 1 ∨ (0 ≤ x ∧ x ≤ 1) ∧ clampToUnit x = x := by
  unfold clampToUnit
  by_cases hneg : x < 0
  · simp only [if_pos hneg]
    exact .inl (by decide)
  · simp only [if_neg hneg]
    have hzero : 0 ≤ x := (not_lt_iff_le (by decide) h).1 hneg
    by_cases hover : 1 < x
    · rw [if_pos hover]
      exact .inr (.inl rfl)
    · rw [if_neg hover]
      exact .inr (.inr ⟨⟨hzero, (not_lt_iff_le h (by decide)).1 hover⟩, rfl⟩)

/-- A finite double is brought between zero and one. -/
theorem clampToUnit_mem (h : x.isFinite = true) : 0 ≤ clampToUnit x ∧ clampToUnit x ≤ 1 := by
  rcases clampToUnit_cases (isNaN_of_isFinite h) with hzero | hone | ⟨hbetween, hkept⟩
  · rw [hzero]
    decide
  · rw [hone]
    decide
  · rwa [hkept]

/-- What the formula takes of one difference in degrees: the square of the sine of half of it. -/
def halfChord (trig : Trig) (difference : Float) : Float := square (trig.sin (radians difference / 2))

/-- The haversine is put together from the two differences. -/
theorem haversine_eq (trig : Trig) (a b : Coordinate) :
    haversine trig a b = clampToUnit (halfChord trig (b.latitude - a.latitude) +
      trig.cos (radians a.latitude) * trig.cos (radians b.latitude) * halfChord trig (b.longitude - a.longitude)) :=
  rfl

/-- What is taken of a difference is between minus one and one. -/
theorem withinOne_halfChord (htrig : trig.SidesWithinOne) (h : (radians x).isFinite = true) :
    WithinOne (halfChord trig x) :=
  (htrig.sin _ (isFinite_half h)).mul (htrig.sin _ (isFinite_half h))

/-- The product of the cosines of two finite latitudes is between minus one and one. -/
theorem withinOne_cosines (htrig : trig.SidesWithinOne) (hx : x.isFinite = true) (hy : y.isFinite = true) :
    WithinOne (trig.cos (radians x) * trig.cos (radians y)) :=
  (htrig.cos _ (isFinite_radians hx)).mul (htrig.cos _ (isFinite_radians hy))

/-- The haversine of the angle between a position on the globe and a finite one is between zero and one. -/
theorem haversine_mem (htrig : trig.SidesWithinOne) (ha : a.OnGlobe) (hb : b.IsFinite) :
    0 ≤ haversine trig a b ∧ haversine trig a b ≤ 1 := by
  obtain ⟨hlatitudes, hlongitudes⟩ := ha.isFinite_differences hb
  have hcosines := withinOne_cosines htrig ha.isFinite.latitude hb.latitude
  rw [haversine_eq]
  exact clampToUnit_mem ((withinOne_halfChord htrig hlatitudes).isFinite_add
    (hcosines.mul (withinOne_halfChord htrig hlongitudes)))

/-- What is left to one is between zero and one too. -/
theorem one_sub_mem (h : 0 ≤ x ∧ x ≤ 1) : 0 ≤ 1 - x ∧ 1 - x ≤ 1 := by
  have hx : x.isFinite = true := isFinite_of_between (by decide) (by decide) h.1 h.2
  have hlow := (le_iff_valueOf (by decide) hx).1 h.1
  have hhigh := (le_iff_valueOf hx (by decide)).1 h.2
  have hzero : valueOf 0 = 0 := by rfl
  rw [hzero] at hlow
  rw [valueOf_one] at hhigh
  have hstands := standsAt_sub (x := 1) (by decide) hx
  rw [valueOf_one] at hstands
  refine ⟨le_of_standsAt (standsAt_valueOf (by decide)) hstands ?_,
    le_of_standsAt hstands (standsAt_valueOf (by decide)) ?_⟩
  · rw [hzero]
    linarith
  · rw [valueOf_one]
    linarith

/-- The distance from a position on the globe to a finite one is finite. -/
theorem isFinite_distance (htrig : trig.Bounded) (ha : a.OnGlobe) (hb : b.IsFinite) :
    (distance trig a b).isFinite = true := by
  have hh := haversine_mem htrig.sidesWithinOne ha hb
  have hleft := one_sub_mem hh
  have hunit : ∀ {x : Float}, 0 ≤ x ∧ x ≤ 1 → (trig.sqrt x).isFinite = true := by
    intro x hx
    obtain ⟨hlow, hhigh⟩ := htrig.sqrt x hx.1 hx.2
    exact isFinite_of_between (by decide) (by decide) hlow hhigh
  have hangle := htrig.atan2 _ _ (hunit hh) (hunit hleft)
  unfold distance
  dsimp only
  generalize trig.atan2 _ _ = angle at hangle
  have htwice := scale_mem (c := 2) (by decide) (by decide) (by decide +kernel) (by decide +kernel) hangle
  exact (isFinite_scale (c := earthRadius) (by decide +kernel) (by decide +kernel) (by decide +kernel)
    (by decide +kernel) htwice (by decide +kernel) (by decide +kernel)).1

end FlightPlanner.Geo
