import FlightPlanner.Proofs.Binary64.RoundingError

/-!
# Zeros add nothing

There are two zeros, and a sum may turn the one into the other; apart from that, adding a zero changes nothing, be it to
a number, an infinity or what is not a number. So doubles that are the same up to the sign of a zero stay so under
addition and division, and are rounded to the same whole number.
-/

namespace FlightPlanner.Binary64

open Float.Model Float.Model.UnpackedFloat

variable {x y z w : Float}

/-- Two doubles are the same, or both of them are zeros. -/
def Alike (x y : Float) : Prop := x = y ∨ StandsAt x 0 ∧ StandsAt y 0

/-- A double is like itself. -/
theorem Alike.refl (x : Float) : Alike x x := .inl rfl

/-- Being alike goes both ways. -/
theorem Alike.symm (h : Alike x y) : Alike y x := h.imp Eq.symm And.symm

/-- What is like a double is like whatever this one is like. -/
theorem Alike.trans (hxy : Alike x y) (hyz : Alike y z) : Alike x z := by
  rcases hxy with rfl | ⟨hx, hy⟩
  · exact hyz
  · rcases hyz with rfl | ⟨-, hz⟩
    · exact .inr ⟨hx, hy⟩
    · exact .inr ⟨hx, hz⟩

/-- What stands at zero has the form of a zero. -/
theorem unpack_of_standsAt_zero (h : StandsAt x 0) : ∃ sign, x.toModel.unpack = .zero sign := by
  obtain ⟨negative, magnitude, hdenotes, hrank⟩ := denotes_rank x
  have hmagnitude : magnitude = 0 := by
    have hplace := hrank.symm.trans h.2
    unfold signed at hplace
    split at hplace <;> omega
  subst hmagnitude
  generalize x.toModel.unpack = form at hdenotes
  cases hdenotes with
  | zero => exact ⟨_, rfl⟩
  | finite pos low high hidden bounded sum => omega
  | notANumber beyond => omega

/-- What stands at zero is finite, and its value is zero. -/
theorem valueOf_of_standsAt_zero (h : StandsAt x 0) : x.isFinite = true ∧ valueOf x = 0 := by
  obtain ⟨sign, hform⟩ := unpack_of_standsAt_zero h
  refine ⟨?_, by rw [valueOf, hform]; rfl⟩
  change x.toModel.unpack.isFinite = true
  rw [hform]
  rfl

/-- A zero added to a double, on either side, leaves it as it is, up to the sign of a zero. -/
theorem alike_add_zero (hz : StandsAt z 0) : Alike (x + z) x ∧ Alike (z + x) x := by
  obtain ⟨sign, hform⟩ := unpack_of_standsAt_zero hz
  by_cases hx : StandsAt x 0
  · obtain ⟨hfx, hvx⟩ := valueOf_of_standsAt_zero hx
    obtain ⟨hfz, hvz⟩ := valueOf_of_standsAt_zero hz
    have hright := standsAt_add hfx hfz
    have hleft := standsAt_add hfz hfx
    rw [hvx, hvz, add_zero, nearestPlace_zero] at hright hleft
    exact ⟨.inr ⟨hright, hx⟩, .inr ⟨hleft, hx⟩⟩
  · -- all other forms are left as they are
    have hsum : UnpackedFloat.add Format.binary64 x.toModel.unpack (.zero sign) = x.toModel.unpack ∧
        UnpackedFloat.add Format.binary64 (.zero sign) x.toModel.unpack = x.toModel.unpack := by
      have hne : ∀ other, x.toModel.unpack ≠ .zero other := by
        intro other hother
        refine hx ?_
        rw [← ofModel_pack_unpack x, hother]
        exact standsAt_zero other
      generalize x.toModel.unpack = form at hne
      cases form with
      | zero other => exact absurd rfl (hne other)
      | _ => exact ⟨rfl, rfl⟩
    have hpacked : ∀ form, form = x.toModel.unpack → Float.ofModel (.pack form) = x := by
      rintro form rfl
      exact ofModel_pack_unpack x
    constructor
    · refine .inl (hpacked (UnpackedFloat.add Format.binary64 x.toModel.unpack z.toModel.unpack) ?_)
      rw [hform]
      exact hsum.1
    · refine .inl (hpacked (UnpackedFloat.add Format.binary64 z.toModel.unpack x.toModel.unpack) ?_)
      rw [hform]
      exact hsum.2

/-- Sums of doubles that are alike are alike. -/
theorem Alike.add (hxy : Alike x y) (hzw : Alike z w) : Alike (x + z) (y + w) := by
  have hright : Alike (x + z) (x + w) := by
    rcases hzw with rfl | ⟨hz, hw⟩
    · exact .refl _
    · exact (alike_add_zero hz).1.trans (alike_add_zero hw).1.symm
  have hleft : Alike (x + w) (y + w) := by
    rcases hxy with rfl | ⟨hx, hy⟩
    · exact .refl _
    · exact (alike_add_zero hx).2.trans (alike_add_zero hy).2.symm
  exact hright.trans hleft

/-- Quotients of doubles that are alike by a number above zero are alike. -/
theorem Alike.div (h : Alike x y) (hz : z.isFinite = true) (hpos : 0 < z) : Alike (x / z) (y / z) := by
  rcases h with rfl | ⟨hx, hy⟩
  · exact .refl _
  · have hzero : ∀ {u : Float}, StandsAt u 0 → StandsAt (u / z) 0 := by
      intro u hu
      obtain ⟨hfinite, hvalue⟩ := valueOf_of_standsAt_zero hu
      have hquotient := standsAt_div hfinite hz (valueOf_pos hz hpos).ne'
      rwa [hvalue, zero_div, nearestPlace_zero] at hquotient
    exact .inr ⟨hzero hx, hzero hy⟩

/-- Doubles that are alike are rounded to the same whole number. -/
theorem Alike.nearestNat_eq (h : Alike x y) (limit : ℕ) : nearestNat limit x = nearestNat limit y := by
  rcases h with rfl | ⟨hx, hy⟩
  · rfl
  · obtain ⟨hfx, hvx⟩ := valueOf_of_standsAt_zero hx
    obtain ⟨hfy, hvy⟩ := valueOf_of_standsAt_zero hy
    rw [Binary64.nearestNat_eq limit hfx, Binary64.nearestNat_eq limit hfy, hvx, hvy]

/-- A finite double times a zero is a zero. -/
theorem standsAt_mul_zero (hx : x.isFinite = true) (hz : StandsAt z 0) : StandsAt (x * z) 0 := by
  obtain ⟨hfinite, hvalue⟩ := valueOf_of_standsAt_zero hz
  have hproduct := standsAt_mul hx hfinite
  rwa [hvalue, mul_zero, nearestPlace_zero] at hproduct

/-- A finite double leaves a zero of whatever is equal to it as a number, and this is finite too. -/
theorem standsAt_sub_of_beq (hx : x.isFinite = true) (h : (x == y) = true) :
    y.isFinite = true ∧ StandsAt (y - x) 0 := by
  obtain ⟨hnx, hny, hrank⟩ := rank_eq_of_beq h
  have hy : y.isFinite = true := by
    rw [isFinite_iff_rank hny, ← hrank, ← isFinite_iff_rank hnx]
    exact hx
  have hstands := standsAt_sub hy hx
  rw [valueOf_eq_of_rank_eq hx hy hrank, sub_self, nearestPlace_zero] at hstands
  exact ⟨hy, hstands⟩

end FlightPlanner.Binary64
