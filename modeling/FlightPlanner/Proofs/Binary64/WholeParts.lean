import FlightPlanner.Proofs.Binary64.Views

/-!
# Whole parts and what is left of them

The magnitude of a double has no minus sign, and neither has its whole part, which is a double. What the whole part
leaves of the magnitude is exact: it has no more bits than the double itself. A whole double leaves just zero. The
remainder of a division is exact for the same reason, as it has no more bits than one of the two operands.
-/

namespace FlightPlanner.Binary64

open Float.Model Float.Model.UnpackedFloat

variable {x y : Float}

/-- A finite double less itself is zero. -/
theorem sub_self_eq_zero (h : x.isFinite = true) : x - x = 0 := by
  have hform := isForm_unpack h
  change Float.ofModel (.pack (UnpackedFloat.sub Format.binary64 x.toModel.unpack x.toModel.unpack)) = _
  generalize x.toModel.unpack = form at hform
  cases hform with
  | zero sign => cases sign <;> decide
  | finite sign pos low high hidden =>
    simp only [UnpackedFloat.sub, Int.sub_self]
    rfl

/-- The magnitude of a finite double has no minus sign. -/
theorem unsigned_abs (h : x.isFinite = true) : Unsigned x.abs ∧ valueOf x.abs = |valueOf x| := by
  have hunpack := isForm_unpack h
  have habs : x.abs = Float.ofModel (.pack x.toModel.unpack.abs) := rfl
  have hneg : -x = Float.ofModel (.pack x.toModel.unpack.neg) := rfl
  have hself := ofModel_pack_unpack x
  generalize hform : x.toModel.unpack = form at hunpack habs hneg hself
  cases hunpack with
  | zero sign =>
    have hvalue : valueOf x = 0 := by rw [valueOf, hform]; rfl
    rw [hvalue, abs_zero]
    exact habs ▸ ⟨unsigned_zero, valueOf_zero⟩
  | @finite sign mantissa exponent pos low high hidden =>
    have hunits : (0 : ℚ) < mantissa * 2 ^ exponent := by positivity
    cases sign with
    | positive =>
      have hvalue : valueOf x = mantissa * 2 ^ exponent := by rw [valueOf, hform, exactOf_positive]
      have hsame : x.abs = x := habs.trans hself
      rw [hsame, abs_of_pos (hvalue ▸ hunits)]
      exact ⟨.of_pos h (hvalue ▸ hunits), rfl⟩
    | negative =>
      have hvalue : valueOf x = -(mantissa * 2 ^ exponent) := by rw [valueOf, hform, exactOf_negative]
      have hsame : x.abs = -x := habs.trans hneg.symm
      have hopposite := valueOf_neg h
      rw [hsame, abs_of_neg (by rw [hvalue]; linarith), ← hopposite]
      refine ⟨.of_pos (standsAt_neg h).1 ?_, rfl⟩
      rw [hopposite, hvalue, neg_neg]
      exact hunits

/-- The double of a number of units that fifty-three bits hold has no minus sign, and this number is its value, if it does
not come too far. -/
theorem unsigned_nearest_units {units : ℕ} {exponent : ℤ} (hunits : units < 2 * 0x10000000000000)
    (hlow : -1074 ≤ exponent) (hbelow : (units : ℚ) * 2 ^ exponent < overflow) :
    Unsigned (nearest false units exponent) ∧ valueOf (nearest false units exponent) = units * 2 ^ exponent := by
  have hfinite := isFinite_nearest false hbelow
  have hstands := standsAt_nearest false units exponent
  have hone : (((signOf false).apply 1 : ℤ) : ℚ) = 1 := by rfl
  rw [hone, one_mul] at hstands
  have hvalue := valueOf_units hstands hfinite hunits hlow
  refine ⟨?_, hvalue⟩
  obtain rfl | hpos := Nat.eq_zero_or_pos units
  · exact unsigned_zero
  · exact .of_pos hfinite (by rw [hvalue]; positivity)

/-- The double of a natural number that fifty-three bits hold has no minus sign, and this number is its value. -/
theorem unsigned_nearest {n : ℕ} (h : n < 2 * 0x10000000000000) :
    Unsigned (nearest false n 0) ∧ valueOf (nearest false n 0) = n := by
  have hbelow : (n : ℚ) * 2 ^ (0 : ℤ) < overflow := by
    rw [zpow_zero, mul_one]
    refine lt_overflow ?_
    have hcast : (n : ℚ) < 2 * 0x10000000000000 := by exact_mod_cast h
    norm_num at hcast ⊢
    linarith
  have hnearest := unsigned_nearest_units h (by norm_num) hbelow
  rwa [zpow_zero, mul_one] at hnearest

/-- Units whose exponent is not below zero make a natural number. -/
theorem units_natCast (units power : ℕ) : (units : ℚ) * 2 ^ (power : ℤ) = (units * 2 ^ power : ℕ) := by
  rw [zpow_natCast]
  push_cast
  rfl

/-- A unit is a part of one, if its exponent is not above zero. -/
theorem two_zpow_of_nonpos {exponent : ℤ} (h : exponent ≤ 0) : (2 : ℚ) ^ exponent = (unitsPerOne exponent : ℚ)⁻¹ := by
  obtain ⟨bits, hbits⟩ := Int.eq_ofNat_of_zero_le (neg_nonneg.mpr h)
  have hexponent : exponent = -(bits : ℤ) := by omega
  rw [unitsPerOne, hbits, hexponent, Int.toNat_natCast, Nat.pow_eq, zpow_neg, zpow_natCast]
  push_cast
  rfl

/-- The whole part of a double without a minus sign is a double without one. -/
theorem Unsigned.whole (h : Unsigned x) :
    Unsigned (wholePart x) ∧ valueOf (wholePart x) = ⌊valueOf x⌋₊ := by
  obtain ⟨mantissa, exponent, hview⟩ := h
  obtain ⟨hvalue, hbits, -⟩ := valueOf_of_view hview
  unfold wholePart
  rw [hview, hvalue]
  simp only
  split
  · next hwhole =>
    obtain ⟨power, rfl⟩ := Int.eq_ofNat_of_zero_le hwhole
    rw [units_natCast, Nat.floor_natCast, ← units_natCast]
    exact ⟨⟨mantissa, power, hview⟩, hvalue⟩
  · next hfraction =>
    rw [two_zpow_of_nonpos (not_le.mp hfraction).le, ← div_eq_mul_inv, Nat.floor_div_eq_div]
    exact unsigned_nearest ((Nat.div_le_self _ _).trans_lt hbits)

/-- What the whole part of a double leaves of it is a number of the units of the double, and fewer than the double
has. -/
theorem Unsigned.fraction_units (h : Unsigned x) : ∃ (units : ℕ) (exponent : ℤ), units < 2 * 0x10000000000000 ∧
    -1074 ≤ exponent ∧ valueOf x - ⌊valueOf x⌋₊ = units * 2 ^ exponent := by
  obtain ⟨mantissa, exponent, hview⟩ := h
  obtain ⟨hvalue, hbits, hlow⟩ := valueOf_of_view hview
  rw [hvalue]
  obtain hwhole | hfraction := le_or_gt 0 exponent
  · obtain ⟨power, rfl⟩ := Int.eq_ofNat_of_zero_le hwhole
    rw [units_natCast, Nat.floor_natCast, sub_self]
    exact ⟨0, power, by decide, hlow, by rw [Nat.cast_zero, zero_mul]⟩
  · refine ⟨mantissa % unitsPerOne exponent, exponent, (Nat.mod_le _ _).trans_lt hbits, hlow, ?_⟩
    rw [two_zpow_of_nonpos hfraction.le, ← div_eq_mul_inv, Nat.floor_div_eq_div, ← div_eq_mul_inv]
    have hpos : (unitsPerOne exponent : ℚ) ≠ 0 := by
      have hunits : unitsPerOne exponent ≠ 0 := (Nat.pow_pos (by decide)).ne'
      exact_mod_cast hunits
    have hsplit : (mantissa : ℚ) = unitsPerOne exponent * (mantissa / unitsPerOne exponent : ℕ) +
        (mantissa % unitsPerOne exponent : ℕ) := by
      exact_mod_cast (Nat.div_add_mod mantissa (unitsPerOne exponent)).symm
    rw [eq_div_iff hpos, sub_mul, div_mul_cancel₀ _ hpos]
    linarith

/-- What it leaves is a double without a minus sign, and exact. -/
theorem Unsigned.fraction (h : Unsigned x) :
    Unsigned (x - wholePart x) ∧ valueOf (x - wholePart x) = valueOf x - ⌊valueOf x⌋₊ := by
  obtain ⟨hwhole, hfloor⟩ := h.whole
  obtain ⟨units, exponent, hunits, hlow, hrest⟩ := h.fraction_units
  have hnonneg : 0 ≤ valueOf x - ⌊valueOf x⌋₊ := sub_nonneg.mpr (Nat.floor_le h.valueOf_nonneg)
  have hfinite : (x - wholePart x).isFinite = true := by
    refine isFinite_sub h.isFinite hwhole.isFinite (lt_of_le_of_lt ?_ greatest_lt)
    rw [hfloor, abs_of_nonneg hnonneg]
    refine le_trans ?_ (abs_valueOf_le h.isFinite)
    rw [abs_of_nonneg h.valueOf_nonneg]
    exact sub_le_self _ (Nat.cast_nonneg _)
  have hvalue : valueOf (x - wholePart x) = valueOf x - ⌊valueOf x⌋₊ := by
    have hstands := standsAt_sub h.isFinite hwhole.isFinite
    rw [hfloor, hrest] at hstands
    rw [valueOf_units hstands hfinite hunits hlow, hrest]
  refine ⟨?_, hvalue⟩
  obtain hzero | hpos := hnonneg.eq_or_lt
  · -- a whole double is its own whole part
    have hsame : x = wholePart x := h.ext hwhole (by rw [hfloor]; linarith)
    rw [← hsame, sub_self_eq_zero h.isFinite]
    exact unsigned_zero
  · exact .of_pos hfinite (hvalue ▸ hpos)

/-- A number of units is a number of smaller units. -/
theorem units_split (units : ℕ) {exponent low : ℤ} (h : low ≤ exponent) :
    (units : ℚ) * 2 ^ exponent = (units * Nat.pow 2 (exponent - low).toNat : ℕ) * 2 ^ low := by
  obtain ⟨bits, hbits⟩ := Int.eq_ofNat_of_zero_le (sub_nonneg.mpr h)
  obtain rfl : exponent = bits + low := by omega
  rw [hbits, Int.toNat_natCast, Nat.pow_eq, zpow_add₀ two_ne_zero, zpow_natCast]
  push_cast
  ring

/-- The remainder of a division of doubles without a minus sign has none either, and it is exact: it is what the whole part
of the quotient leaves of the dividend. -/
theorem Unsigned.remainder (hx : Unsigned x) (hy : Unsigned y) (hpos : 0 < valueOf y) :
    Unsigned (remainder x y) ∧ valueOf (remainder x y) = valueOf x - ⌊valueOf x / valueOf y⌋₊ * valueOf y := by
  obtain ⟨m, e, hviewx⟩ := hx
  obtain ⟨n, f, hviewy⟩ := hy
  obtain ⟨hvaluex, hbitsx, hlowx⟩ := valueOf_of_view hviewx
  obtain ⟨hvaluey, hbitsy, hlowy⟩ := valueOf_of_view hviewy
  have hn : n ≠ 0 := by
    rintro rfl
    rw [hvaluey, Nat.cast_zero, zero_mul] at hpos
    exact lt_irrefl _ hpos
  unfold Binary64.remainder
  rw [hviewx, hviewy]
  simp only [if_neg hn]
  obtain ⟨low, hlow⟩ : ∃ low, low = min e f := ⟨_, rfl⟩
  rw [← hlow]
  have hdividend := units_split m (show low ≤ e by omega)
  have hdivisor := units_split n (show low ≤ f by omega)
  rw [← hvaluex] at hdividend
  rw [← hvaluey] at hdivisor
  -- the operand with the smaller units keeps its mantissa, and the remainder is not greater than that
  have hbits : m * Nat.pow 2 (e - low).toNat % (n * Nat.pow 2 (f - low).toNat) < 2 * 0x10000000000000 := by
    have hsame : ∀ place : ℤ, Nat.pow 2 (place - place).toNat = 1 := fun place => by rw [sub_self]; rfl
    obtain hcase | hcase : low = e ∨ low = f := by omega
    · rw [hcase, hsame, mul_one]
      exact (Nat.mod_le _ _).trans_lt hbitsx
    · rw [hcase, hsame, mul_one]
      exact (Nat.mod_lt _ (Nat.pos_of_ne_zero hn)).trans hbitsy
  generalize m * Nat.pow 2 (e - low).toNat = dividend at hdividend hbits
  generalize n * Nat.pow 2 (f - low).toNat = divisor at hdivisor hbits
  have hunit : (0 : ℚ) < 2 ^ low := by positivity
  have hrest : ((dividend % divisor : ℕ) : ℚ) * 2 ^ low = valueOf x - ⌊valueOf x / valueOf y⌋₊ * valueOf y := by
    have hsplit : (dividend : ℚ) = divisor * (dividend / divisor : ℕ) + (dividend % divisor : ℕ) := by
      exact_mod_cast (Nat.div_add_mod dividend divisor).symm
    rw [hdividend, hdivisor, mul_div_mul_right _ _ hunit.ne', Nat.floor_div_eq_div]
    linear_combination (-(2 : ℚ) ^ low) * hsplit
  rw [← hrest]
  refine unsigned_nearest_units hbits (by omega) ?_
  rw [hrest]
  calc valueOf x - ⌊valueOf x / valueOf y⌋₊ * valueOf y ≤ valueOf x := sub_le_self _ (by positivity)
    _ ≤ greatest := (le_abs_self _).trans (abs_valueOf_le (isFinite_of_view hviewx))
    _ < overflow := greatest_lt

/-- The remainder is less than the divisor. -/
theorem Unsigned.remainder_lt (hx : Unsigned x) (hy : Unsigned y) (hpos : 0 < valueOf y) :
    valueOf (Binary64.remainder x y) < valueOf y := by
  have hnext := Nat.lt_floor_add_one (valueOf x / valueOf y)
  rw [div_lt_iff₀ hpos] at hnext
  rw [(hx.remainder hy hpos).2]
  linarith

/-- The product of doubles without a minus sign has none, if one of them is at least one and the product does not come
too far. -/
theorem Unsigned.mul (hx : Unsigned x) (hy : Unsigned y) (hone : 1 ≤ valueOf y)
    (hbelow : valueOf x * valueOf y < overflow) : Unsigned (x * y) := by
  have hproduct : 0 ≤ valueOf x * valueOf y := mul_nonneg hx.valueOf_nonneg hy.valueOf_nonneg
  have hfinite := isFinite_mul hx.isFinite hy.isFinite (by rwa [abs_of_nonneg hproduct])
  obtain hzero | hpos := hx.valueOf_nonneg.eq_or_lt
  · obtain ⟨mantissa, exponent, pos, hform⟩ := (isForm_unpack hy.isFinite).sign_of_pos (zero_lt_one.trans_le hone)
    rw [hx.eq_zero hzero.symm]
    change Unsigned (.ofModel (.pack (UnpackedFloat.mul Format.binary64 _ y.toModel.unpack)))
    rw [hform]
    exact unsigned_zero
  · refine .of_pos hfinite (hpos.trans_le ?_)
    exact le_valueOf_of_standsAt hfinite hx.isFinite (standsAt_mul hx.isFinite hy.isFinite)
      (le_mul_of_one_le_right hpos.le hone)

end FlightPlanner.Binary64
