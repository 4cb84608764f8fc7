import FlightPlanner.Proofs.Binary64.SquareRoots
import FlightPlanner.Proofs.Geo.FiniteDistances

/-!
# Distances obey the laws of a distance

Positions may be swapped: their differences change the sign at most, and what is squared of them is the same double. Equal
positions have no difference, and nothing is left of it behind the arc. Whatever is no number stays so through all
operations. On the globe the haversine is between zero and one once it is clamped, whichever way it was rounded, so that
the arc of half the angle is at most a quarter turn and the distance at most half the circumference, which opposite
positions have.
-/

namespace FlightPlanner.Geo

open Binary64

/-- What is known of the functions of a triangle, next to where sines and cosines are: the sine is odd, zero and one have
exact answers, and what is not a number remains so. Nothing is said of a square root or an angle where an operand has a
minus sign: the angle of zero and negative zero is half a turn, although neither of them is below zero. -/
structure Trig.Lawful (trig : Trig) : Prop extends trig.SidesWithinOne where
  /-- The sine of the negative angle is the negative sine. -/
  sin_negate : ∀ angle, trig.sin (-angle) = -trig.sin angle
  /-- The sine of zero is zero. -/
  sin_zero : trig.sin 0 = 0
  /-- What is not a number has no sine. -/
  sin_nan : ∀ angle, angle.isNaN = true → (trig.sin angle).isNaN = true
  /-- Square roots of numbers from zero to one are such numbers. -/
  sqrt_unit : ∀ x, Unsigned x → x ≤ 1 → Unsigned (trig.sqrt x) ∧ trig.sqrt x ≤ 1
  /-- The square root of zero is zero. -/
  sqrt_zero : trig.sqrt 0 = 0
  /-- The square root of one is one. -/
  sqrt_one : trig.sqrt 1 = 1
  /-- What is not a number has no square root. -/
  sqrt_nan : ∀ x, x.isNaN = true → (trig.sqrt x).isNaN = true
  /-- The angle of two sides without a minus sign is at most a quarter turn. -/
  atan2_quarter : ∀ y x, Unsigned y → Unsigned x → 0 ≤ trig.atan2 y x ∧ trig.atan2 y x ≤ pi / 2
  /-- On the axis itself the angle is zero. -/
  atan2_zero : ∀ x, 0 < x → trig.atan2 0 x = 0
  /-- A first side that is not a number has no angle. -/
  atan2_nan : ∀ y x, y.isNaN = true → (trig.atan2 y x).isNaN = true

variable {trig : Trig} {a b : Coordinate} {x y z : Float}

/-- A difference the other way round is the same one after squaring. -/
theorem halfChord_swap (htrig : trig.Lawful) (x y : Float) : halfChord trig (x - y) = halfChord trig (y - x) :=
  ((((mirrored_sub x y).mul (pi / 180)).div 2).map htrig.sin_negate).mul_self

/-- The haversine does not depend on the direction. -/
theorem haversine_swap (htrig : trig.Lawful) (a b : Coordinate) : haversine trig a b = haversine trig b a := by
  rw [haversine_eq, haversine_eq, halfChord_swap htrig a.latitude, halfChord_swap htrig a.longitude,
    mul_swap (trig.cos (radians a.latitude))]

/-- What is not a number stays so in the formula. -/
theorem isNaN_halfChord (htrig : trig.Lawful) (h : x.isNaN = true) : (halfChord trig x).isNaN = true := by
  have hhalf : (radians x / 2).isNaN = true := isNaN_div (.inl (isNaN_mul (.inl h)))
  exact isNaN_mul (.inl (htrig.sin_nan _ hhalf))

/-- What is not a number is not clamped. -/
theorem isNaN_clampToUnit (h : x.isNaN = true) : (clampToUnit x).isNaN = true := by
  have hbelow : ¬ x < 0 := by
    intro hlt
    exact Bool.false_ne_true ((isNaN_of_lt hlt).1.symm.trans h)
  have habove : ¬ 1 < x := by
    intro hlt
    exact Bool.false_ne_true ((isNaN_of_lt hlt).2.symm.trans h)
  rwa [clampToUnit, if_neg hbelow, if_neg habove]

/-- A position with a coordinate that is not a number has no distance to any other. -/
theorem isNaN_distance (htrig : trig.Lawful) (h : a.latitude.isNaN = true ∨ a.longitude.isNaN = true ∨
    b.latitude.isNaN = true ∨ b.longitude.isNaN = true) : (distance trig a b).isNaN = true := by
  have hh : (haversine trig a b).isNaN = true := by
    rw [haversine_eq]
    refine isNaN_clampToUnit (isNaN_add ?_)
    rcases h with h | h | h | h
    · exact .inl (isNaN_halfChord htrig (isNaN_sub (.inr h)))
    · exact .inr (isNaN_mul (.inr (isNaN_halfChord htrig (isNaN_sub (.inr h)))))
    · exact .inl (isNaN_halfChord htrig (isNaN_sub (.inl h)))
    · exact .inr (isNaN_mul (.inr (isNaN_halfChord htrig (isNaN_sub (.inl h)))))
  exact isNaN_mul (.inr (isNaN_mul (.inr (htrig.atan2_nan _ _ (htrig.sqrt_nan _ hh)))))

/-- Nothing is left of no difference. -/
theorem halfChord_of_standsAt_zero (htrig : trig.Lawful) (h : StandsAt x 0) : halfChord trig x = 0 := by
  have hradians : StandsAt (radians x) 0 := by
    rw [radians, mul_swap]
    exact standsAt_mul_zero (by decide +kernel) h
  obtain ⟨hfinite, hvalue⟩ := valueOf_of_standsAt_zero hradians
  have htwo : valueOf 2 ≠ 0 := (valueOf_pos (by decide) (by decide)).ne'
  have hhalf := standsAt_div hfinite (by decide) htwo
  rw [hvalue, zero_div, nearestPlace_zero] at hhalf
  have hsquare := ((mirrored_zero hhalf).map htrig.sin_negate).mul_self
  rw [htrig.sin_zero] at hsquare
  exact hsquare

/-- A finite position has the distance zero to whatever position has equal numbers. -/
theorem distance_of_sameNumbers (htrig : trig.Lawful) (ha : a.IsFinite) (h : a.sameNumbers b = true) :
    distance trig a b = 0 := by
  obtain ⟨hlatitude, hlongitude⟩ := Bool.and_eq_true_iff.mp h
  obtain ⟨hblatitude, hlatitudes⟩ := standsAt_sub_of_beq ha.latitude hlatitude
  obtain ⟨-, hlongitudes⟩ := standsAt_sub_of_beq ha.longitude hlongitude
  have hcosines := withinOne_cosines htrig.toSidesWithinOne ha.latitude hblatitude
  have hh : haversine trig a b = 0 := by
    rw [haversine_eq, halfChord_of_standsAt_zero htrig hlatitudes, halfChord_of_standsAt_zero htrig hlongitudes]
    -- the product may be negative zero, and then the sum is still zero
    obtain ⟨hfinite, hvalue⟩ := valueOf_of_standsAt_zero (standsAt_mul_zero hcosines.isFinite standsAt_ofNat_zero)
    rw [unsigned_zero.add_eq_zero hfinite (by rw [hvalue, valueOf_zero, add_zero])]
    decide
  have hrest : (1 : Float) - 0 = 1 := by decide
  calc distance trig a b = earthRadius * (2 * trig.atan2 (trig.sqrt 0) (trig.sqrt (1 - 0))) := by
        rw [distance, hh]
    _ = earthRadius * (2 * 0) := by
      rw [hrest, htrig.sqrt_zero, htrig.sqrt_one, htrig.atan2_zero 1 (by decide)]
    _ = 0 := by decide +kernel

/-- What is clamped has no minus sign, if it has none from zero upwards. -/
theorem unsigned_clampToUnit (h : x.isFinite = true) (hsign : 0 ≤ x → Unsigned x) : Unsigned (clampToUnit x) := by
  rcases clampToUnit_cases (isNaN_of_isFinite h) with hzero | hone | ⟨⟨hnonneg, -⟩, hkept⟩
  · rw [hzero]
    exact unsigned_zero
  · rw [hone]
    exact unsigned_one
  · rw [hkept]
    exact hsign hnonneg

/-- The haversine of a position on the globe and a finite one has no minus sign. -/
theorem unsigned_haversine (htrig : trig.SidesWithinOne) (ha : a.OnGlobe) (hb : b.IsFinite) :
    Unsigned (haversine trig a b) := by
  obtain ⟨hlatitudes, hlongitudes⟩ := ha.isFinite_differences hb
  have hlatitude := withinOne_halfChord htrig hlatitudes
  have hlongitude := (withinOne_cosines htrig ha.isFinite.latitude hb.latitude).mul
    (withinOne_halfChord htrig hlongitudes)
  have hsum := hlatitude.isFinite_add hlongitude
  -- the first square has no minus sign, so that a sum with it that is not below zero has none
  have hfirst : Unsigned (halfChord trig (b.latitude - a.latitude)) :=
    unsigned_mul_self (htrig.sin _ (isFinite_half hlatitudes)).isFinite hlatitude.isFinite
  rw [haversine_eq]
  exact unsigned_clampToUnit hsum (hfirst.add hlongitude.isFinite hsum)

/-- What is left to one has no minus sign. -/
theorem unsigned_one_sub (h : 0 ≤ x ∧ x ≤ 1) : Unsigned (1 - x) := by
  have hx : x.isFinite = true := isFinite_of_between (by decide) (by decide) h.1 h.2
  obtain ⟨hlow, hhigh⟩ := one_sub_mem h
  have hrest : (1 - x).isFinite = true := isFinite_of_between (by decide) (by decide) hlow hhigh
  rw [← add_negate] at hlow hrest ⊢
  exact unsigned_one.add (standsAt_neg hx).1 hrest hlow

/-- The distance from a position on the globe to a finite one is at most half the circumference. -/
theorem distance_mem (htrig : trig.Lawful) (ha : a.OnGlobe) (hb : b.IsFinite) :
    0 ≤ distance trig a b ∧ distance trig a b ≤ earthRadius * pi := by
  have hh := haversine_mem htrig.toSidesWithinOne ha hb
  have hunsigned := unsigned_haversine htrig.toSidesWithinOne ha hb
  obtain ⟨hside, -⟩ := htrig.sqrt_unit _ hunsigned hh.2
  obtain ⟨hrest, -⟩ := htrig.sqrt_unit _ (unsigned_one_sub hh) (one_sub_mem hh).2
  have hangle := htrig.atan2_quarter _ _ hside hrest
  unfold distance
  dsimp only
  generalize trig.atan2 _ _ = angle at hangle
  have hturn := scale_mem (c := 2) (by decide) (by decide) (by decide) (by decide +kernel) hangle
  have hnone : (2 : Float) * 0 = 0 := by decide
  have hhalf : 2 * (pi / 2) = pi := by decide +kernel
  rw [hnone, hhalf] at hturn
  have harc := scale_mem (c := earthRadius) (by decide +kernel) (by decide +kernel) (by decide) (by decide +kernel) hturn
  have horigin : earthRadius * 0 = 0 := by decide +kernel
  rwa [horigin] at harc

/-- Distances are the same both ways, bit for bit. A finite position has the distance zero to whatever has equal numbers.
No distance is a number when a coordinate is none. On the globe distances are from zero to half the circumference. -/
theorem distance_laws (htrig : trig.Lawful) :
    (∀ a b, distance trig a b = distance trig b a) ∧
      (∀ a b, a.IsFinite → a.sameNumbers b = true → distance trig a b = 0) ∧
      (∀ a b, a.latitude.isNaN = true ∨ a.longitude.isNaN = true ∨ b.latitude.isNaN = true ∨ b.longitude.isNaN = true →
        (distance trig a b).isNaN = true) ∧
      (∀ a b, a.OnGlobe → b.IsFinite → 0 ≤ distance trig a b ∧ distance trig a b ≤ earthRadius * pi) := by
  refine ⟨fun a b => ?_, fun a b => distance_of_sameNumbers htrig, fun a b => isNaN_distance htrig,
    fun a b => distance_mem htrig⟩
  rw [distance, distance, haversine_swap htrig]

/-- The functions of a triangle as they are for no turn and for quarter turns, with the square root of the machine. -/
def Trig.ofQuarterTurns : Trig where
  sin angle := if angle = pi / 2 then 1 else if angle = -(pi / 2) then -1 else angle * 0
  cos _ := 1
  atan2 y _ := if y.isNaN then nan else if 0 < y then pi / 2 else 0
  sqrt := Float.sqrt

/-- Their sine is odd. -/
theorem Trig.sin_negate_ofQuarterTurns (angle : Float) :
    Trig.ofQuarterTurns.sin (-angle) = -Trig.ofQuarterTurns.sin angle := by
  have hsides : pi / 2 ≠ -(pi / 2) := by decide +kernel
  simp only [Trig.ofQuarterTurns]
  by_cases hright : angle = pi / 2
  · rw [hright, if_neg hsides.symm, if_pos rfl, if_pos rfl]
  · by_cases hleft : angle = -(pi / 2)
    · rw [hleft, negate_negate, if_pos rfl, if_neg hsides.symm, if_pos rfl]
      decide
    · have hright' : -angle ≠ pi / 2 := by
        intro h
        exact hleft (by rw [← h, negate_negate])
      have hleft' : -angle ≠ -(pi / 2) := by
        intro h
        exact hright (by rw [← negate_negate angle, h, negate_negate])
      rw [if_neg hright', if_neg hleft', if_neg hright, if_neg hleft, negate_mul]

/-- Their sine of a finite angle is between minus one and one. -/
theorem Trig.sin_mem_ofQuarterTurns {angle : Float} (h : angle.isFinite = true) :
    WithinOne (Trig.ofQuarterTurns.sin angle) := by
  simp only [Trig.ofQuarterTurns]
  split
  · exact withinOne_one
  · split
    · exact ⟨by decide, by decide⟩
    · rcases mirrored_zero (standsAt_mul_zero h standsAt_ofNat_zero) with hzero | hzero
      · rw [hzero]
        exact ⟨by decide, by decide⟩
      · rw [hzero]
        exact ⟨by decide, by decide⟩

/-- Their sine of what is not a number is none. -/
theorem Trig.sin_nan_ofQuarterTurns {angle : Float} (h : angle.isNaN = true) :
    (Trig.ofQuarterTurns.sin angle).isNaN = true := by
  have hright : angle ≠ pi / 2 := by
    rintro rfl
    exact absurd h (by decide +kernel)
  have hleft : angle ≠ -(pi / 2) := by
    rintro rfl
    exact absurd h (by decide +kernel)
  simp only [Trig.ofQuarterTurns, if_neg hright, if_neg hleft]
  exact isNaN_mul (.inl h)

/-- Their angles of numbers are zero or a quarter turn. -/
theorem Trig.atan2_mem_ofQuarterTurns {y : Float} (h : y.isNaN = false) (x : Float) :
    0 ≤ Trig.ofQuarterTurns.atan2 y x ∧ Trig.ofQuarterTurns.atan2 y x ≤ pi / 2 := by
  simp only [Trig.ofQuarterTurns, h, Bool.false_eq_true, if_false]
  split
  · exact ⟨by decide +kernel, by decide +kernel⟩
  · exact ⟨by decide, by decide +kernel⟩

/-- They obey the laws. -/
theorem Trig.lawful_ofQuarterTurns : Trig.ofQuarterTurns.Lawful where
  sin _ := Trig.sin_mem_ofQuarterTurns
  cos _ _ := withinOne_one
  sin_negate := Trig.sin_negate_ofQuarterTurns
  sin_zero := by decide +kernel
  sin_nan _ := Trig.sin_nan_ofQuarterTurns
  sqrt_unit _ := sqrt_mem
  sqrt_zero := by decide
  sqrt_one := by decide +kernel
  sqrt_nan _ := isNaN_sqrt
  atan2_quarter _ x hy _ := Trig.atan2_mem_ofQuarterTurns (isNaN_of_isFinite hy.isFinite) x
  atan2_zero _ _ := by
    simp only [Trig.ofQuarterTurns]
    decide
  atan2_nan _ _ h := by
    simp only [Trig.ofQuarterTurns, h, if_true]
    decide

/-- Opposite positions on the equator are half the circumference apart, both ways. A position is at no distance from itself
with the other zero, and what is not a number in a coordinate leaves no distance. -/
theorem distance_laws_antipodes :
    Trig.ofQuarterTurns.Lawful ∧
      distance .ofQuarterTurns ⟨0, 0⟩ ⟨0, 180⟩ = earthRadius * pi ∧
      distance .ofQuarterTurns ⟨0, 0⟩ ⟨0, 180⟩ = distance .ofQuarterTurns ⟨0, 180⟩ ⟨0, 0⟩ ∧
      distance .ofQuarterTurns ⟨0, 0⟩ ⟨-0, 0⟩ = 0 ∧
      (distance .ofQuarterTurns ⟨0, nan⟩ ⟨0, 180⟩).isNaN = true ∧
      0 ≤ distance .ofQuarterTurns ⟨0, 0⟩ ⟨0, 180⟩ ∧
      distance .ofQuarterTurns ⟨0, 0⟩ ⟨0, 180⟩ ≤ earthRadius * pi := by
  obtain ⟨hswap, hsame, hnan, hbound⟩ := distance_laws Trig.lawful_ofQuarterTurns
  have horigin : Coordinate.OnGlobe ⟨0, 0⟩ := ⟨by decide, by decide⟩
  have hopposite : Coordinate.OnGlobe ⟨0, 180⟩ := ⟨by decide, by decide⟩
  exact ⟨Trig.lawful_ofQuarterTurns, by decide +kernel, hswap _ _, hsame _ _ horigin.isFinite (by decide),
    hnan _ _ (.inr (.inl (by decide))), hbound _ _ horigin hopposite.isFinite⟩

end FlightPlanner.Geo
