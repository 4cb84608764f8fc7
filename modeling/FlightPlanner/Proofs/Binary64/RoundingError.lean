import FlightPlanner.Proofs.Binary64.Finite

/-!
# How far rounding leads

The double nearest to a number is at most half of a last place away from it: a part of the number that fifty-three bits
cannot tell from nothing, or half of the least double where there are no smaller places. A number that has so few bits
is its own nearest double. The sign plays no role in any of this. Products and quotients of doubles that are near some
numbers are near the products and quotients of these.
-/

namespace FlightPlanner.Binary64

open Float.Model Float.Model.UnpackedFloat

variable {x y : Float} {q r c d : ℚ}

/-- The part of a number that is half of a last place at most. -/
def roundoff : ℚ := 1 / 2 ^ 53

/-- Half of the least double above zero. -/
def underflow : ℚ := 1 / 2 ^ 1075

/-- It is half of the unit of the least doubles. -/
theorem half_least : (2 : ℚ) ^ (-1074 : ℤ) / 2 = underflow := by
  rw [underflow, zpow_neg, zpow_ofNat, pow_succ 2 1074, div_eq_mul_inv, one_div, mul_inv]

/-- How far the double nearest to a number may be away from it. -/
def roundingError (q : ℚ) : ℚ := |q| * roundoff + underflow

/-- Half of a last place is as small a part of a number that has all its bits. -/
theorem half_unit_le (h : 2 ^ (exponentOf q + 52) ≤ q) : (2 : ℚ) ^ exponentOf q / 2 ≤ q * roundoff := by
  rw [zpow_add₀ (by norm_num)] at h
  norm_num [roundoff] at h ⊢
  linarith

/-- Half of a last place is in any case within the rounding error. -/
theorem half_unit_le_roundingError (hq : 0 ≤ q) : (2 : ℚ) ^ exponentOf q / 2 ≤ roundingError q := by
  have hunderflow : 0 ≤ underflow := by
    rw [underflow]
    positivity
  have hroundoff : 0 ≤ q * roundoff := mul_nonneg hq (by norm_num [roundoff])
  rw [roundingError, abs_of_nonneg hq]
  rcases (isExponent_exponentOf q).needed with hleast | hneeded
  · rw [hleast, half_least]
    exact le_add_of_nonneg_left hroundoff
  · exact (half_unit_le hneeded).trans (le_add_of_nonneg_right hunderflow)

/-- The magnitude nearest to a number stands for the nearest whole number of its units. -/
theorem magnitudeValue_nearestMagnitude (h : nearestMagnitude q < infiniteMagnitude) :
    magnitudeValue (nearestMagnitude q) = roundEven (q / 2 ^ exponentOf q) * 2 ^ exponentOf q := by
  have hexp := isExponent_exponentOf q
  have heq : nearestMagnitude q = magnitudeAt (exponentOf q) (roundEven (q / 2 ^ exponentOf q)) := by
    unfold nearestMagnitude at h ⊢
    omega
  rw [heq]
  exact magnitudeValue_magnitudeAt hexp.low hexp.roundEven_le (or_iff_not_imp_left.mpr hexp.le_roundEven)

/-- It stands for a number at most half of a last place away. -/
theorem abs_magnitudeValue_sub_le (hq : 0 ≤ q) (h : nearestMagnitude q < infiniteMagnitude) :
    |magnitudeValue (nearestMagnitude q) - q| ≤ 2 ^ exponentOf q / 2 := by
  have hunit : (0 : ℚ) < 2 ^ exponentOf q := by positivity
  have hunits := abs_roundEven_sub_le (div_nonneg hq hunit.le)
  have hscaled : roundEven (q / 2 ^ exponentOf q) * 2 ^ exponentOf q - q =
      (roundEven (q / 2 ^ exponentOf q) - q / 2 ^ exponentOf q) * 2 ^ exponentOf q := by
    rw [sub_mul, div_mul_cancel₀ q hunit.ne']
  rw [magnitudeValue_nearestMagnitude h, hscaled, abs_mul, abs_of_pos hunit]
  calc |(roundEven (q / 2 ^ exponentOf q) : ℚ) - q / 2 ^ exponentOf q| * 2 ^ exponentOf q
      ≤ 1 / 2 * 2 ^ exponentOf q := mul_le_mul_of_nonneg_right hunits hunit.le
    _ = 2 ^ exponentOf q / 2 := by ring

/-- What stands nearest to a number that is not below zero has the value of the magnitude nearest to it. -/
theorem valueOf_of_standsAt (h : StandsAt x (nearestPlace q)) (hfinite : x.isFinite = true) (hq : 0 ≤ q) :
    nearestMagnitude q < infiniteMagnitude ∧ valueOf x = magnitudeValue (nearestMagnitude q) := by
  have hplace : nearestPlace q = nearestMagnitude q := by rw [nearestPlace, if_neg (not_lt.mpr hq)]
  have hvalue := valueOf_eq_placeValue hfinite
  rw [isFinite_iff_rank h.1, h.2, hplace] at hfinite
  refine ⟨by omega, ?_⟩
  rw [hvalue, h.2, hplace, placeValue, if_neg (by omega), Int.natAbs_natCast]

/-- The double nearest to a number that is not below zero is no further away from it than the rounding error. -/
theorem abs_valueOf_sub_le (h : StandsAt x (nearestPlace q)) (hfinite : x.isFinite = true) (hq : 0 ≤ q) :
    |valueOf x - q| ≤ roundingError q := by
  obtain ⟨hmagnitude, hvalue⟩ := valueOf_of_standsAt h hfinite hq
  rw [hvalue]
  exact (abs_magnitudeValue_sub_le hq hmagnitude).trans (half_unit_le_roundingError hq)

/-- From one upwards that is a part of the number. -/
theorem abs_valueOf_sub_le_mul (h : StandsAt x (nearestPlace q)) (hfinite : x.isFinite = true) (hq : 1 ≤ q) :
    |valueOf x - q| ≤ q * roundoff := by
  have hpos : 0 ≤ q := zero_le_one.trans hq
  obtain ⟨hmagnitude, hvalue⟩ := valueOf_of_standsAt h hfinite hpos
  rw [hvalue]
  refine (abs_magnitudeValue_sub_le hpos hmagnitude).trans (half_unit_le ?_)
  rcases (isExponent_exponentOf q).needed with hleast | hneeded
  · rw [hleast]
    exact (zpow_le_one_of_nonpos₀ one_le_two (by norm_num)).trans hq
  · exact hneeded

/-- Below a power of two it is at most half of a last place of the numbers just below this power. -/
theorem abs_valueOf_sub_le_of_lt (exponent : ℤ) (h : StandsAt x (nearestPlace q)) (hfinite : x.isFinite = true)
    (hq : 0 ≤ q) (hlow : -1074 ≤ exponent) (hlt : q < 2 ^ (exponent + 53)) : |valueOf x - q| ≤ 2 ^ exponent / 2 := by
  obtain ⟨hmagnitude, hvalue⟩ := valueOf_of_standsAt h hfinite hq
  have hexponent : exponentOf q ≤ exponent := by
    rcases (isExponent_exponentOf q).needed with hleast | hneeded
    · omega
    · have hpower := (zpow_lt_zpow_iff_right₀ one_lt_two).mp (hneeded.trans_lt hlt)
      omega
  rw [hvalue]
  refine (abs_magnitudeValue_sub_le hq hmagnitude).trans ?_
  exact div_le_div_of_nonneg_right (zpow_le_zpow_right₀ one_le_two hexponent) zero_le_two

/-- A number of units that fifty-three bits hold is the value of the double nearest to it. -/
theorem valueOf_units {units : ℕ} {exponent : ℤ} (h : StandsAt x (nearestPlace (units * 2 ^ exponent)))
    (hfinite : x.isFinite = true) (hunits : units < 2 * 0x10000000000000) (hlow : -1074 ≤ exponent) :
    valueOf x = units * 2 ^ exponent := by
  obtain ⟨hmagnitude, hvalue⟩ := valueOf_of_standsAt h hfinite (by positivity)
  rw [hvalue, magnitudeValue_nearestMagnitude hmagnitude]
  have hexp := isExponent_exponentOf ((units : ℚ) * 2 ^ exponent)
  generalize exponentOf ((units : ℚ) * 2 ^ exponent) = e at hexp
  -- the number is measured in units that are no greater
  have hle : e ≤ exponent := by
    by_contra hlt
    have hneeded := hexp.needed.resolve_left (by omega)
    have hpower : (2 : ℚ) ^ (exponent + 53) ≤ 2 ^ (e + 52) := zpow_le_zpow_right₀ one_le_two (by omega)
    have hbits : (units : ℚ) * 2 ^ exponent < 2 ^ (exponent + 53) := by
      rw [zpow_add₀ (by norm_num), mul_comm]
      refine mul_lt_mul_of_pos_left ?_ (by positivity)
      norm_num
      exact_mod_cast hunits
    linarith
  obtain ⟨bits, hbits⟩ := Int.eq_ofNat_of_zero_le (sub_nonneg.mpr hle)
  have hsum : exponent = bits + e := by omega
  have hwhole : (units : ℚ) * 2 ^ exponent = (units * 2 ^ bits : ℕ) * 2 ^ e := by
    rw [hsum, zpow_add₀ (by norm_num), zpow_natCast]
    push_cast
    ring
  have hunit : (2 : ℚ) ^ e ≠ 0 := by positivity
  rw [hwhole, mul_div_cancel_right₀ _ hunit, roundEven_natCast]

/-- The nearest place is on the other side of zero when the number is. -/
theorem nearestPlace_neg (q : ℚ) : nearestPlace (-q) = -nearestPlace q := by
  unfold nearestPlace
  rcases lt_trichotomy q 0 with h | rfl | h
  · rw [if_neg (by linarith), if_pos h, neg_neg]
  · simp [nearestMagnitude_zero]
  · rw [if_pos (by linarith), if_neg (by linarith), neg_neg]

/-- The negative of a finite double is finite and stands on the other side of zero. -/
theorem standsAt_neg (h : x.isFinite = true) : (-x).isFinite = true ∧ StandsAt (-x) (-rank x) := by
  have hneg := (isForm_unpack h).neg
  have hstands := hneg.1.standsAt
  rw [hneg.2] at hstands
  refine ⟨isFinite_signed true h, ?_⟩
  rw [rank_of_isFinite h, ← nearestPlace_neg]
  exact hstands

/-- The negative of a finite double has the negative value. -/
theorem valueOf_neg (h : x.isFinite = true) : valueOf (-x) = -valueOf x := by
  obtain ⟨hfinite, hstands⟩ := standsAt_neg h
  rw [valueOf_eq_placeValue hfinite, valueOf_eq_placeValue h, hstands.2, placeValue_neg]

/-- Numbers at the same place are the same, unless it is that of the two zeros. -/
theorem eq_of_rank_eq (h : rank x = rank y) (hne : rank x ≠ 0) : x = y := by
  -- the ranks of patterns tell the zeros apart too, and differ from these places only in that
  have hpattern : Pattern.ofFloat x = Pattern.ofFloat y := by
    refine Pattern.rank_injective ?_
    unfold rank Pattern.signedMagnitude signed at h hne
    unfold Pattern.rank
    split at h <;> split at h <;> simp_all
  rw [← Pattern.toFloat_ofFloat x, hpattern, Pattern.toFloat_ofFloat]

/-- A finite double is off a number by at most so many parts of the number, and so many times half of the least
double. -/
structure Near (c d : ℚ) (x : Float) (q : ℚ) : Prop where
  /-- The double is finite. -/
  finite : x.isFinite = true
  /-- It is off by no more than that. -/
  close : |valueOf x - q| ≤ c * (q * roundoff) + d * underflow

/-- What one rounding may be off by is a small part of one, and not below zero. -/
theorem roundoff_bounds : 0 < roundoff ∧ 100 * roundoff < 1 := by norm_num [roundoff]

/-- Half of the least double is above zero. -/
theorem underflow_pos : 0 < underflow := by
  rw [underflow]
  positivity

/-- What stands nearest to a number from one upwards is near it. -/
theorem near_of_standsAt (h : StandsAt x (nearestPlace q)) (hfinite : x.isFinite = true) (hq : 1 ≤ q) :
    Near 1 0 x q := by
  refine ⟨hfinite, ?_⟩
  rw [one_mul, zero_mul, add_zero]
  exact abs_valueOf_sub_le_mul h hfinite hq

/-- What is off by so much is off by no more than a greater bound. -/
theorem Near.mono {c' d' : ℚ} (h : Near c d x q) (hq : 0 ≤ q) (hc : c ≤ c') (hd : d ≤ d') : Near c' d' x q := by
  have hpart : 0 ≤ q * roundoff := mul_nonneg hq roundoff_bounds.1.le
  refine ⟨h.finite, h.close.trans ?_⟩
  exact add_le_add (mul_le_mul_of_nonneg_right hc hpart) (mul_le_mul_of_nonneg_right hd underflow_pos.le)

/-- The product of doubles that are near numbers is near the product of these. -/
theorem Near.mul (hx : Near 1 0 x q) (hy : Near 1 0 y r) (hq : 0 ≤ q) (hr : 0 ≤ r)
    (hfinite : (x * y).isFinite = true) : Near 4 1 (x * y) (q * r) := by
  refine ⟨hfinite, ?_⟩
  obtain ⟨hu, hsmall⟩ := roundoff_bounds
  have hxclose := abs_le.mp hx.close
  have hyclose := abs_le.mp hy.close
  have hlow : 0 ≤ 1 - roundoff := by linarith
  have hxlow : q * (1 - roundoff) ≤ valueOf x := by linarith
  have hylow : r * (1 - roundoff) ≤ valueOf y := by linarith
  have hxhigh : valueOf x ≤ q * (1 + roundoff) := by linarith
  have hyhigh : valueOf y ≤ r * (1 + roundoff) := by linarith
  have hxpos : 0 ≤ valueOf x := (mul_nonneg hq hlow).trans hxlow
  have hypos : 0 ≤ valueOf y := (mul_nonneg hr hlow).trans hylow
  have hexact : 0 ≤ valueOf x * valueOf y := mul_nonneg hxpos hypos
  have hround := abs_le.mp (abs_valueOf_sub_le (standsAt_mul hx.finite hy.finite) hfinite hexact)
  rw [roundingError, abs_of_nonneg hexact] at hround
  have hfrom : q * r * (1 - roundoff) ^ 2 ≤ valueOf x * valueOf y := by
    calc q * r * (1 - roundoff) ^ 2 = q * (1 - roundoff) * (r * (1 - roundoff)) := by ring
      _ ≤ valueOf x * valueOf y := mul_le_mul hxlow hylow (mul_nonneg hr hlow) hxpos
  have hto : valueOf x * valueOf y ≤ q * r * (1 + roundoff) ^ 2 := by
    calc valueOf x * valueOf y ≤ q * (1 + roundoff) * (r * (1 + roundoff)) :=
          mul_le_mul hxhigh hyhigh hypos (by positivity)
      _ = q * r * (1 + roundoff) ^ 2 := by ring
  have hproduct : 0 ≤ q * r := mul_nonneg hq hr
  -- three roundings together are off by less than four
  have hthree : 1 - 4 * roundoff ≤ (1 - roundoff) ^ 2 * (1 - roundoff) ∧
      (1 + roundoff) ^ 2 * (1 + roundoff) ≤ 1 + 4 * roundoff := by
    constructor <;> norm_num [roundoff]
  have hthreelow := mul_le_mul_of_nonneg_left hthree.1 hproduct
  have hthreehigh := mul_le_mul_of_nonneg_left hthree.2 hproduct
  have hfrom' := mul_le_mul_of_nonneg_right hfrom hlow
  have hto' := mul_le_mul_of_nonneg_right hto (by linarith : 0 ≤ 1 + roundoff)
  rw [abs_le]
  constructor <;> linarith

/-- What is left of some parts that a dividend is off by when the divisor is off by one and the quotient by another. -/
theorem quotient_parts (hc : 0 ≤ c ∧ c ≤ 4) (hd : 0 ≤ d ∧ d ≤ 4) :
    ((1 + c * roundoff) * (1 + roundoff) ≤ (1 + (c + 5 / 2) * roundoff) * (1 - roundoff) ∧
      (1 - (c + 5 / 2) * roundoff) * (1 + roundoff) ≤ (1 - c * roundoff) * (1 - roundoff)) ∧
      d * (1 + roundoff) + (1 - roundoff) ≤ (d + 3 / 2) * (1 - roundoff) ∧
      d * (1 - roundoff) + (1 + roundoff) ≤ (d + 3 / 2) * (1 + roundoff) := by
  obtain ⟨hu, hsmall⟩ := roundoff_bounds
  have hcu : 0 ≤ (4 - c) * roundoff := mul_nonneg (by linarith) hu.le
  have hdu : 0 ≤ (4 - d) * roundoff := mul_nonneg (by linarith) hu.le
  have hleft : 0 ≤ roundoff * (1 / 2 - (2 * c + 5 / 2) * roundoff) := mul_nonneg hu.le (by linarith)
  have hleft' : 0 ≤ roundoff * (1 / 2 + (2 * c + 5 / 2) * roundoff) :=
    mul_nonneg hu.le (add_nonneg (by norm_num) (mul_nonneg (by linarith) hu.le))
  have hd' : 0 ≤ d * roundoff := mul_nonneg hd.1 hu.le
  refine ⟨⟨?_, ?_⟩, ?_, ?_⟩ <;> linarith

/-- The quotient of doubles that are near numbers is near the quotient of these, if the divisor is at least one. -/
theorem Near.div (hx : Near c d x q) (hy : Near 1 0 y r) (hpos : 0 ≤ valueOf x) (hone : 1 ≤ valueOf y) (hq : 0 ≤ q)
    (hr : 1 ≤ r) (hc : 0 ≤ c ∧ c ≤ 4) (hd : 0 ≤ d ∧ d ≤ 4) :
    Near (c + 5 / 2) (d + 3 / 2) (x / y) (q / r) := by
  obtain ⟨hu, hsmall⟩ := roundoff_bounds
  obtain ⟨⟨hmore, hless⟩, hmore', hless'⟩ := quotient_parts hc hd
  have ht := underflow_pos
  have hfinite := isFinite_div hx.finite hy.finite hone
  refine ⟨hfinite, ?_⟩
  have hdivisor : 0 < valueOf y := zero_lt_one.trans_le hone
  have hrpos : 0 < r := zero_lt_one.trans_le hr
  have hexact : 0 ≤ valueOf x / valueOf y := div_nonneg hpos hdivisor.le
  have hquotient : 0 ≤ q / r := div_nonneg hq hrpos.le
  have hround := abs_le.mp (abs_valueOf_sub_le (standsAt_div hx.finite hy.finite hdivisor.ne') hfinite hexact)
  have hxclose := abs_le.mp hx.close
  have hyclose := abs_le.mp hy.close
  have hdividend : valueOf x / valueOf y * valueOf y = valueOf x := div_mul_cancel₀ _ hdivisor.ne'
  have hdividend' : q / r * r = q := div_mul_cancel₀ _ hrpos.ne'
  rw [roundingError, abs_of_nonneg hexact] at hround
  generalize valueOf (x / y) = result at hround ⊢
  generalize valueOf x / valueOf y = exact at *
  generalize q / r = quotient at *
  rw [← hdividend, ← hdividend'] at hxclose
  -- the bounds on the dividend, with the divisor taken out of them
  have hspill : 0 ≤ (r - 1) * (d * underflow) := mul_nonneg (by linarith) (mul_nonneg hd.1 ht.le)
  have hto : exact * (1 - roundoff) ≤ quotient * (1 + c * roundoff) + d * underflow := by
    have hpart := mul_le_mul_of_nonneg_left (by linarith : r * (1 - roundoff) ≤ valueOf y) hexact
    refine le_of_mul_le_mul_left ?_ hrpos
    linarith
  have hfrom : quotient * (1 - c * roundoff) - d * underflow ≤ exact * (1 + roundoff) := by
    have hpart := mul_le_mul_of_nonneg_left (by linarith : valueOf y ≤ r * (1 + roundoff)) hexact
    refine le_of_mul_le_mul_left ?_ hrpos
    linarith
  have hto' := mul_le_mul_of_nonneg_right hto (by linarith : 0 ≤ 1 + roundoff)
  have hfrom' := mul_le_mul_of_nonneg_right hfrom (by linarith : 0 ≤ 1 - roundoff)
  have hmoreparts := mul_le_mul_of_nonneg_left hmore hquotient
  have hlessparts := mul_le_mul_of_nonneg_left hless hquotient
  have hmorespill := mul_le_mul_of_nonneg_left hmore' ht.le
  have hlessspill := mul_le_mul_of_nonneg_left hless' ht.le
  rw [abs_le]
  constructor
  · refine le_of_mul_le_mul_right ?_ (by linarith : 0 < 1 + roundoff)
    have hresult := mul_le_mul_of_nonneg_right hround.1 (by linarith : 0 ≤ 1 + roundoff)
    linarith
  · refine le_of_mul_le_mul_right ?_ (by linarith : 0 < 1 - roundoff)
    have hresult := mul_le_mul_of_nonneg_right hround.2 (by linarith : 0 ≤ 1 - roundoff)
    linarith

end FlightPlanner.Binary64
