import FlightPlanner.Geo.Bearing
import FlightPlanner.Proofs.Binary64.Signs
import FlightPlanner.Proofs.Geo.FiniteDistances

/-!
# Bearings are on the compass

A bearing begins with an angle of at most half a turn to either side. As degrees it stays within half a turn, a full turn
added to it makes it positive, and what is left over full turns is from zero up to, but not including, a full turn. The
rounding of the sum can reach a full turn, and then nothing is left; nowhere does a minus sign come in.
-/

namespace FlightPlanner.Geo

open Binary64

variable {trig : Trig} {a b : Coordinate} {angle : Float}

/-- The value of a full turn. -/
theorem valueOf_fullTurn : valueOf 360 = 360 := by
  have hform : (360 : Float).toModel.unpack = .finite .positive 0x16800000000000 (-44) (by decide) := by rfl
  rw [valueOf, hform, exactOf_positive]
  norm_num

/-- An angle of at most half a turn is so in degrees. -/
theorem degrees_mem (h : -pi ≤ angle ∧ angle ≤ pi) : -180 ≤ degrees angle ∧ degrees angle ≤ 180 := by
  have hscaled := scale_mem (c := 180 / pi) (by decide +kernel) (by decide +kernel) (by decide +kernel)
    (by decide +kernel) h
  have hleft : 180 / pi * -pi = -180 := by decide +kernel
  have hright : 180 / pi * pi = 180 := by decide +kernel
  rw [hleft, hright, mul_swap] at hscaled
  exact hscaled

/-- A full turn added to an angle of at most half a turn gives a double without a minus sign. -/
theorem unsigned_turned (h : -pi ≤ angle ∧ angle ≤ pi) : Unsigned (degrees angle + 360) := by
  obtain ⟨hlow, hhigh⟩ := degrees_mem h
  have hfinite : (degrees angle).isFinite = true := isFinite_of_between (by decide) (by decide) hlow hhigh
  rw [le_iff_valueOf (by decide) hfinite, valueOf_halfTurn.2] at hlow
  rw [le_iff_valueOf hfinite (by decide), valueOf_halfTurn.1] at hhigh
  have hsum : (degrees angle + 360).isFinite = true := by
    refine isFinite_add hfinite (by decide) (lt_overflow ?_)
    rw [valueOf_fullTurn, abs_of_pos (by linarith)]
    norm_num
    linarith
  refine .of_pos hsum ?_
  have hhalf : valueOf 180 ≤ valueOf (degrees angle + 360) := by
    refine le_valueOf_of_standsAt hsum (by decide) (standsAt_add hfinite (by decide)) ?_
    rw [valueOf_halfTurn.1, valueOf_fullTurn]
    linarith
  rw [valueOf_halfTurn.1] at hhalf
  linarith

section Bearing

variable (htrig : trig.SidesWithinOne)
  (hatan2 : ∀ y x, y.isFinite = true → x.isFinite = true → -pi ≤ trig.atan2 y x ∧ trig.atan2 y x ≤ pi)
  (ha : a.OnGlobe) (hb : b.IsFinite)

include htrig hatan2 ha hb

/-- A bearing from a position on the globe to a finite one is zero, or what an angle of at most half a turn leaves of full
turns. -/
theorem bearing_cases : bearing trig a b = 0 ∨
    ∃ angle, (-pi ≤ angle ∧ angle ≤ pi) ∧ bearing trig a b = remainder (degrees angle + 360) 360 := by
  have hstart := isFinite_radians ha.isFinite.latitude
  have hfinish := isFinite_radians hb.latitude
  have hlongitudes := (ha.isFinite_differences hb).2
  have heast := (htrig.sin _ hlongitudes).mul (htrig.cos _ hfinish)
  have hnorth := ((htrig.cos _ hstart).mul (htrig.sin _ hfinish)).isFinite_sub
    (((htrig.sin _ hstart).mul (htrig.cos _ hfinish)).mul (htrig.cos _ hlongitudes))
  unfold bearing
  split
  · exact .inl rfl
  · exact .inr ⟨_, hatan2 _ _ heast.isFinite hnorth, rfl⟩

/-- A bearing has no minus sign, and its value is less than a full turn. -/
theorem unsigned_bearing : Unsigned (bearing trig a b) ∧ valueOf (bearing trig a b) < 360 := by
  rcases bearing_cases htrig hatan2 ha hb with hzero | ⟨angle, hangle, hrest⟩
  · rw [hzero, valueOf_zero]
    exact ⟨unsigned_zero, by norm_num⟩
  · have hturn : Unsigned 360 := .of_pos (by decide) (by rw [valueOf_fullTurn]; norm_num)
    have hpos : 0 < valueOf 360 := by rw [valueOf_fullTurn]; norm_num
    have hturned := unsigned_turned hangle
    have hless := hturned.remainder_lt hturn hpos
    rw [valueOf_fullTurn] at hless
    rw [hrest]
    exact ⟨(hturned.remainder hturn hpos).1, hless⟩

/-- The bearing from a position on the globe to a finite one is a number from zero up to, but not including, a full turn,
and it is not negative zero. -/
theorem bearing_on_compass :
    (bearing trig a b).isNaN = false ∧ 0 ≤ bearing trig a b ∧ bearing trig a b < 360 ∧ bearing trig a b ≠ -0 := by
  obtain ⟨hunsigned, hless⟩ := unsigned_bearing htrig hatan2 ha hb
  have hbelow : bearing trig a b < 360 := by
    rw [lt_iff_valueOf hunsigned.isFinite (by decide), valueOf_fullTurn]
    exact hless
  exact ⟨isNaN_of_isFinite hunsigned.isFinite, hunsigned.nonneg, hbelow, hunsigned.ne_negative_zero⟩

end Bearing

/-- The bearing from a position on the globe to a finite one is finite. -/
theorem isFinite_bearing (htrig : trig.Bounded) (ha : a.OnGlobe) (hb : b.IsFinite) :
    (bearing trig a b).isFinite = true :=
  (unsigned_bearing htrig.sidesWithinOne htrig.atan2 ha hb).1.isFinite

/-- The functions of a triangle as they are rounded for very small angles, where a sine is the angle, a cosine is one and
an angle is the quotient of the sides. -/
def Trig.ofSmallAngles : Trig where
  sin angle := if -1 ≤ angle ∧ angle ≤ 1 then angle else 0
  cos _ := 1
  atan2 y x := if -pi ≤ y / x ∧ y / x ≤ pi then y / x else 0
  sqrt := Float.sqrt

/-- Their sines and cosines are between minus one and one. -/
theorem Trig.sidesWithinOne_ofSmallAngles : Trig.ofSmallAngles.SidesWithinOne := by
  refine ⟨fun angle _ => ?_, fun _ _ => withinOne_one⟩
  simp only [Trig.ofSmallAngles]
  split
  · next h => exact h
  · exact ⟨by decide, by decide⟩

/-- Their angles are at most half a turn. -/
theorem Trig.atan2_ofSmallAngles (y x : Float) :
    -pi ≤ Trig.ofSmallAngles.atan2 y x ∧ Trig.ofSmallAngles.atan2 y x ≤ pi := by
  simp only [Trig.ofSmallAngles]
  split
  · next h => exact h
  · exact ⟨by decide +kernel, by decide +kernel⟩

/-- A position a little to the north and by far less to the west lies in a direction just short of a full turn. The sum of
this angle and a full turn is rounded to a full turn, and the bearing is zero. -/
theorem bearing_on_compass_almost_north :
    Coordinate.OnGlobe ⟨0, 0⟩ ∧ Coordinate.OnGlobe ⟨1e-9, -1e-30⟩ ∧
      bearing .ofSmallAngles ⟨0, 0⟩ ⟨1e-9, -1e-30⟩ = 0 ∧
      (bearing .ofSmallAngles ⟨0, 0⟩ ⟨1e-9, -1e-30⟩).isNaN = false ∧
      0 ≤ bearing .ofSmallAngles ⟨0, 0⟩ ⟨1e-9, -1e-30⟩ ∧ bearing .ofSmallAngles ⟨0, 0⟩ ⟨1e-9, -1e-30⟩ < 360 ∧
      bearing .ofSmallAngles ⟨0, 0⟩ ⟨1e-9, -1e-30⟩ ≠ -0 := by
  have horigin : Coordinate.OnGlobe ⟨0, 0⟩ := ⟨by decide, by decide⟩
  have hnorth : Coordinate.OnGlobe ⟨1e-9, -1e-30⟩ := ⟨by decide +kernel, by decide +kernel⟩
  have hbearing : bearing .ofSmallAngles ⟨0, 0⟩ ⟨1e-9, -1e-30⟩ = 0 := by decide +kernel
  exact ⟨horigin, hnorth, hbearing, bearing_on_compass Trig.sidesWithinOne_ofSmallAngles
    (fun y x _ _ => Trig.atan2_ofSmallAngles y x) horigin hnorth.isFinite⟩

end FlightPlanner.Geo
