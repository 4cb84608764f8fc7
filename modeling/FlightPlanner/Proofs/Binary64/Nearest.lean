import FlightPlanner.Proofs.Binary64.Monotonicity
import FlightPlanner.Proofs.Binary64.Views

/-!
# The double nearest to a number

What stands nearest to a number is no further away from it than any other finite double. Of two that are equally near
it is the one whose last bit is clear, and it is an infinity from the number on that is half a last place behind the
greatest double. The other doubles are on the grid on which the number is measured, or too small to matter.
-/

namespace FlightPlanner.Binary64

variable {x y : Float} {q : ℚ}

/-- A double is what a number that is not below zero is rounded to: the nearest finite double, of two equally near ones
the one whose last bit is clear, and an infinity where the number is too great. -/
structure IsRounding (x : Float) (q : ℚ) : Prop where
  /-- From half a last place behind the greatest double on, it is the infinity above all numbers. -/
  infinite : overflow ≤ q → x = infinity false
  /-- Before that it is finite and has no minus sign. -/
  unsigned : q < overflow → Unsigned x
  /-- No finite double is nearer. -/
  nearest : q < overflow → ∀ y : Float, y.isFinite = true → |valueOf x - q| ≤ |valueOf y - q|
  /-- If another one is as near, then its own last bit is clear. -/
  even : q < overflow → ∀ y : Float, y.isFinite = true → valueOf y ≠ valueOf x → |valueOf y - q| = |valueOf x - q| →
    x.toBits.toNat % 2 = 0

/-- The nearest whole number is not further away than any other one. -/
theorem abs_roundEven_sub_le_abs (hq : 0 ≤ q) (n : ℤ) : |(roundEven q : ℚ) - q| ≤ |(n : ℚ) - q| := by
  have hnear := abs_le.mp (abs_roundEven_sub_le hq)
  obtain hless | rfl | hmore := lt_trichotomy n (roundEven q : ℤ)
  · have hstep : (n : ℚ) + 1 ≤ roundEven q := by exact_mod_cast hless
    rw [abs_of_nonpos (a := (n : ℚ) - q) (by linarith), abs_le]
    constructor <;> linarith
  · rfl
  · have hstep : (roundEven q : ℚ) + 1 ≤ n := by exact_mod_cast hmore
    rw [abs_of_nonneg (a := (n : ℚ) - q) (by linarith), abs_le]
    constructor <;> linarith

/-- If another one is as near, then it is even. -/
theorem roundEven_even_of_abs_eq (hq : 0 ≤ q) {n : ℤ} (hne : n ≠ roundEven q)
    (h : |(n : ℚ) - q| = |(roundEven q : ℚ) - q|) : roundEven q % 2 = 0 := by
  have hnearest := isNearest_roundEven hq
  have hnear := abs_le.mp (abs_roundEven_sub_le hq)
  by_contra hodd
  rw [IsNearest, if_neg hodd] at hnearest
  have hstrict : |(roundEven q : ℚ) - q| < 1 / 2 := by
    rw [abs_lt]
    constructor <;> linarith
  rw [← h] at hstrict
  obtain ⟨hlow, hhigh⟩ := abs_lt.mp hstrict
  obtain hless | hmore := lt_or_gt_of_ne hne
  · have hstep : (n : ℚ) + 1 ≤ roundEven q := by exact_mod_cast hless
    linarith
  · have hstep : (roundEven q : ℚ) + 1 ≤ n := by exact_mod_cast hmore
    linarith

/-- A finite double is a whole number of units in which a number is measured, or it is smaller than the least number
that is measured in them. -/
theorem valueOf_on_grid (hy : y.isFinite = true) {exponent : ℤ} (hlow : -1074 ≤ exponent) :
    (∃ n : ℤ, valueOf y = n * 2 ^ exponent) ∨ -1074 < exponent ∧ valueOf y < 2 ^ (exponent + 52) := by
  obtain ⟨negative, mantissa, place, hview⟩ := exists_view_of_isFinite hy
  by_cases hzero : mantissa = 0
  · subst hzero
    exact .inl ⟨0, by rw [(view_zero hview).2.2, Int.cast_zero, zero_mul]⟩
  · obtain ⟨hbits, hleast, -⟩ := view_bounds hy hview hzero
    obtain ⟨-, -, hvalue⟩ := view_rank hview hzero
    rw [hvalue]
    obtain hcoarse | hfine := le_or_gt exponent place
    · obtain ⟨steps, hsteps⟩ := Int.eq_ofNat_of_zero_le (sub_nonneg.mpr hcoarse)
      obtain rfl : place = steps + exponent := by omega
      refine .inl ⟨(signOf negative).apply 1 * (mantissa * 2 ^ steps), ?_⟩
      rw [zpow_add₀ two_ne_zero, zpow_natCast]
      push_cast
      ring
    · refine .inr ⟨by omega, ?_⟩
      have hunits : (mantissa : ℚ) * 2 ^ place < 2 ^ (exponent + 52) := by
        have hpower : (2 : ℚ) ^ place * 2 ^ 53 ≤ 2 ^ (exponent + 52) := by
          rw [← zpow_natCast, ← zpow_add₀ two_ne_zero]
          exact zpow_le_zpow_right₀ one_le_two (by push_cast; omega)
        have hmantissa : (mantissa : ℚ) < 2 ^ 53 := by exact_mod_cast hbits
        refine lt_of_lt_of_le ?_ hpower
        rw [mul_comm]
        exact mul_lt_mul_of_pos_left hmantissa (by positivity)
      have hnonneg : (0 : ℚ) ≤ mantissa * 2 ^ place := by positivity
      cases negative with
      | false => simpa [signOf, Float.Model.UnpackedFloat.Sign.apply] using hunits
      | true =>
        simp only [signOf, Float.Model.UnpackedFloat.Sign.apply]
        push_cast
        linarith

/-- What stands nearest to a number is no further away from it than any finite double; if another one is as near, then it
is an even number of the units in which the number is measured. -/
theorem nearest_of_standsAt (h : StandsAt x (nearestPlace q)) (hx : x.isFinite = true) (hq : 0 ≤ q)
    (hy : y.isFinite = true) :
    |valueOf x - q| ≤ |valueOf y - q| ∧
      (valueOf y ≠ valueOf x → |valueOf y - q| = |valueOf x - q| → roundEven (q / 2 ^ exponentOf q) % 2 = 0) := by
  obtain ⟨hmagnitude, hplace⟩ := valueOf_of_standsAt h hx hq
  have hexp := isExponent_exponentOf q
  rw [magnitudeValue_nearestMagnitude hmagnitude] at hplace
  generalize exponentOf q = exponent at hexp hplace ⊢
  have hunit : (0 : ℚ) < 2 ^ exponent := by positivity
  have hunits : 0 ≤ q / 2 ^ exponent := by positivity
  have hscaled : ∀ n : ℚ, |n * 2 ^ exponent - q| = |n - q / 2 ^ exponent| * 2 ^ exponent := by
    intro n
    rw [← abs_of_pos hunit, ← abs_mul, abs_of_pos hunit, sub_mul, div_mul_cancel₀ _ hunit.ne']
  have hgrid : ∀ n : ℤ, |valueOf x - q| ≤ |(n : ℚ) * 2 ^ exponent - q| := by
    intro n
    rw [hplace, hscaled, hscaled]
    exact mul_le_mul_of_nonneg_right (abs_roundEven_sub_le_abs hunits n) hunit.le
  rcases valueOf_on_grid hy hexp.low with ⟨n, hn⟩ | ⟨hleast, hsmall⟩
  · rw [hn]
    refine ⟨hgrid n, fun hne heq => ?_⟩
    refine roundEven_even_of_abs_eq hunits (n := n) ?_ ?_
    · rintro rfl
      exact hne (by rw [hplace, Int.cast_natCast])
    · rw [hplace, hscaled, hscaled] at heq
      exact mul_right_cancel₀ hunit.ne' heq
  · -- the least number that is measured in the units is on the grid, and nearer
    have hneeded := hexp.needed.resolve_left hleast.ne'
    have hbetween := hgrid (2 ^ 52)
    have hpower : ((2 ^ 52 : ℤ) : ℚ) * 2 ^ exponent = 2 ^ (exponent + 52) := by
      rw [zpow_add₀ two_ne_zero, mul_comm]
      norm_num
    rw [hpower, abs_of_nonpos (sub_nonpos.mpr hneeded)] at hbetween
    have hfurther : |valueOf x - q| < |valueOf y - q| := by
      rw [abs_of_nonpos (a := valueOf y - q) (by linarith)]
      linarith
    exact ⟨hfurther.le, fun _ heq => absurd heq hfurther.ne'⟩

/-- The last bit of a double is that of its place. -/
theorem toBits_mod_two (x : Float) : x.toBits.toNat % 2 = (rank x).natAbs % 2 := by
  have hbits := (Pattern.ofFloat x).toNat_bits
  have hhalf : Pattern.half % 2 = 0 := by decide
  change (Pattern.ofFloat x).bits.toNat % 2 = _
  rw [hbits, rank, Pattern.signedMagnitude, signed]
  split <;> omega

/-- Where infinity begins, in units of the greatest doubles. -/
theorem overflow_eq : overflow = (2 ^ 53 - 1 / 2) * 2 ^ (971 : ℤ) := by
  rw [overflow, zpow_ofNat, pow_succ 2 970]
  generalize (2 : ℚ) ^ 970 = unit
  ring

/-- From half a last place behind the greatest double on, an infinity is nearest. -/
theorem nearestMagnitude_of_overflow (h : overflow ≤ q) : nearestMagnitude q = infiniteMagnitude := by
  have hunit : (0 : ℚ) < 2 ^ (971 : ℤ) := by positivity
  have hexp : IsExponent overflow 971 := by
    refine ⟨by norm_num, ?_, .inr ?_⟩ <;> rw [overflow_eq, zpow_add₀ two_ne_zero, mul_comm (2 ^ (971 : ℤ))]
    · exact mul_lt_mul_of_pos_right (by norm_num) hunit
    · exact mul_le_mul_of_nonneg_right (by norm_num) hunit.le
  have hround : roundEven (overflow / 2 ^ (971 : ℤ)) = 2 ^ 53 := by
    rw [overflow_eq, mul_div_cancel_right₀ _ hunit.ne', roundEven_eq_iff (by norm_num), IsNearest, if_pos (by norm_num)]
    constructor <;> norm_num
  have hend : nearestMagnitude overflow = infiniteMagnitude := by
    rw [hexp.nearestMagnitude_eq, hround]
    decide
  have hmono := nearestMagnitude_mono h
  rw [hend] at hmono
  exact le_antisymm (min_le_left _ _) hmono

/-- What stands nearest to a number that is not below zero is what it is rounded to, unless it is the other zero. -/
theorem isRounding_of_standsAt (h : StandsAt x (nearestPlace q)) (hq : 0 ≤ q)
    (hzero : x.isFinite = true → valueOf x = 0 → Unsigned x) : IsRounding x q := by
  have hfinite : q < overflow → x.isFinite = true := fun hless => isFinite_of_standsAt h (by rwa [abs_of_nonneg hq])
  have hplace : nearestPlace q = nearestMagnitude q := by rw [nearestPlace, if_neg (not_lt.mpr hq)]
  refine ⟨fun hover => ?_, fun hless => ?_, fun hless y hy => ?_, fun hless y hy hne heq => ?_⟩
  · have hrank : rank x = infiniteMagnitude := by rw [h.2, hplace, nearestMagnitude_of_overflow hover]
    refine eq_of_rank_eq (hrank.trans rank_infinity.symm) ?_
    rw [hrank]
    decide
  · obtain ⟨-, hvalue⟩ := valueOf_of_standsAt h (hfinite hless) hq
    have hnonneg : 0 ≤ valueOf x := by
      rw [hvalue, magnitudeValue]
      split <;> positivity
    obtain heq | hpos := hnonneg.eq_or_lt
    · exact hzero (hfinite hless) heq.symm
    · exact .of_pos (hfinite hless) hpos
  · exact (nearest_of_standsAt h (hfinite hless) hq hy).1
  · have heven := (nearest_of_standsAt h (hfinite hless) hq hy).2 hne heq
    obtain ⟨hmagnitude, -⟩ := valueOf_of_standsAt h (hfinite hless) hq
    rw [toBits_mod_two, h.2, hplace, Int.natAbs_natCast, nearestMagnitude, magnitudeAt]
    rw [nearestMagnitude, magnitudeAt] at hmagnitude
    omega

/-- Every magnitude below that of an infinity is the place of a finite double. -/
theorem exists_isFinite_of_magnitude {magnitude : ℕ} (h : magnitude < infiniteMagnitude) :
    ∃ x : Float, x.isFinite = true ∧ rank x = magnitude := by
  obtain ⟨mantissa, exponent, hlow, hbits, hhidden, hmagnitude⟩ : ∃ (mantissa : ℕ) (exponent : ℤ), -1074 ≤ exponent ∧
      mantissa < 2 * 0x10000000000000 ∧ (exponent = -1074 ∨ 0x10000000000000 ≤ mantissa) ∧
      magnitudeAt exponent mantissa = magnitude := by
    by_cases hsmall : magnitude < 0x10000000000000
    · exact ⟨magnitude, -1074, le_rfl, by omega, .inl rfl, by simp [magnitudeAt]⟩
    · refine ⟨magnitude % 0x10000000000000 + 0x10000000000000, magnitude / 0x10000000000000 - 1075, by omega, by omega,
        .inr (by omega), ?_⟩
      unfold magnitudeAt
      omega
  have hstands := standsAt_nearest false mantissa exponent
  have hone : (((signOf false).apply 1 : ℤ) : ℚ) = 1 := by rfl
  have hnonneg : (0 : ℚ) ≤ mantissa * 2 ^ exponent := by positivity
  rw [hone, one_mul, nearestPlace, if_neg (not_lt.mpr hnonneg), nearestMagnitude_units hlow hbits hhidden, hmagnitude,
    min_eq_right h.le] at hstands
  refine ⟨_, (isFinite_iff_rank hstands.1).mpr ?_, hstands.2⟩
  rw [hstands.2]
  omega

/-- Finite doubles at different places have different values, in the same order. -/
theorem valueOf_lt_iff_rank (hx : x.isFinite = true) (hy : y.isFinite = true) :
    valueOf x < valueOf y ↔ rank x < rank y := by
  rw [← not_le, ← le_iff_valueOf hy hx, le_iff_rank (isNaN_of_isFinite hy) (isNaN_of_isFinite hx), not_le]

/-- Finite doubles are strictly ordered as their values are. -/
theorem lt_iff_valueOf (hx : x.isFinite = true) (hy : y.isFinite = true) : x < y ↔ valueOf x < valueOf y := by
  rw [lt_iff_rank (isNaN_of_isFinite hx) (isNaN_of_isFinite hy), valueOf_lt_iff_rank hx hy]

/-- Two doubles with clear last bits cannot be equally near to a number on either side of it, and nearest: there is one
between them. -/
theorem IsRounding.le {x y : Float} (hx : IsRounding x q) (hy : IsRounding y q) (h : q < overflow) :
    valueOf y ≤ valueOf x := by
  by_contra hmore
  rw [not_le] at hmore
  have hfx := (hx.unsigned h).isFinite
  have hfy := (hy.unsigned h).isFinite
  have hsame := le_antisymm (hx.nearest h y hfy) (hy.nearest h x hfx)
  have hevenx := hx.even h y hfy hmore.ne' hsame.symm
  have heveny := hy.even h x hfx hmore.ne hsame
  have hranks := (valueOf_lt_iff_rank hfx hfy).mp hmore
  have hbelow := ((isFinite_iff_rank (isNaN_of_isFinite hfy)).mp hfy).2
  have hnonneg : 0 ≤ rank x := by
    rw [rank_of_isFinite hfx, ← nearestPlace_zero]
    exact nearestPlace_mono (hx.unsigned h).valueOf_nonneg
  rw [toBits_mod_two] at hevenx heveny
  have hnext : (rank x).natAbs + 1 < infiniteMagnitude := by omega
  obtain ⟨z, hfz, hrank⟩ := exists_isFinite_of_magnitude hnext
  have hlow := (valueOf_lt_iff_rank hfx hfz).mpr (by omega)
  have hhigh := (valueOf_lt_iff_rank hfz hfy).mpr (by omega)
  have hnearest := hx.nearest h z hfz
  obtain hequal | hopposite := abs_eq_abs.mp hsame
  · linarith
  · have hbetween : |valueOf z - q| < |valueOf x - q| := by
      rw [abs_of_nonpos (a := valueOf x - q) (by linarith), abs_lt]
      constructor <;> linarith
    linarith

/-- A number is rounded to one double only. -/
theorem IsRounding.eq {x y : Float} (hx : IsRounding x q) (hy : IsRounding y q) : x = y := by
  obtain h | h := le_or_gt overflow q
  · rw [hx.infinite h, hy.infinite h]
  · exact (hx.unsigned h).ext (hy.unsigned h) (le_antisymm (hy.le hx h) (hx.le hy h))

/-- What stands nearest to a number from one upwards is what it is rounded to. -/
theorem isRounding_of_one_le (h : StandsAt x (nearestPlace q)) (hq : 1 ≤ q) : IsRounding x q := by
  refine isRounding_of_standsAt h (zero_le_one.trans hq) fun hfinite hvalue => ?_
  have hleast := le_valueOf_of_standsAt (y := 1) hfinite (by decide) h (by rwa [valueOf_one])
  rw [valueOf_one, hvalue] at hleast
  exact absurd hleast (by norm_num)

/-- The double of a natural number is what the number is rounded to. -/
theorem isRounding_ofNat (n : ℕ) : IsRounding (ofNat n) n := by
  obtain rfl | hpos := Nat.eq_zero_or_pos n
  · exact isRounding_of_standsAt (standsAt_ofNat 0) (Nat.cast_nonneg 0) fun _ _ => unsigned_zero
  · exact isRounding_of_one_le (standsAt_ofNat n) (by exact_mod_cast hpos)

/-- A decimal without places is read as the double of its number. -/
theorem ofDecimal_zero (n : ℕ) : Decimal.ofDecimal n 0 = ofNat n := by
  obtain rfl | hpos := Nat.eq_zero_or_pos n
  · decide +kernel
  · have hstands := standsAt_ofDecimal hpos (Nat.zero_le 2048)
    rw [pow_zero, mul_one] at hstands
    exact (isRounding_of_one_le hstands (by exact_mod_cast hpos)).eq (isRounding_ofNat n)

/-- A factor of one or of minus one changes no more than the sign of what a number is rounded to. -/
theorem IsRounding.mul_sign (h : IsRounding x q) : 1 * x = x ∧ -1 * x = -x := by
  obtain hover | hless := le_or_gt overflow q
  · rw [h.infinite hover]
    exact ⟨by decide +kernel, by decide +kernel⟩
  · have hx := h.unsigned hless
    obtain hzero | hpos := hx.valueOf_nonneg.eq_or_lt
    · rw [hx.eq_zero hzero.symm]
      exact ⟨by decide +kernel, by decide +kernel⟩
    · have hplace := rank_of_isFinite hx.isFinite
      have hne := rank_ne_zero hx.isFinite hpos.ne'
      have hone := (standsAt_mul (x := 1) (by decide) hx.isFinite).2
      have hminus := (standsAt_mul (x := -1) (by decide) hx.isFinite).2
      have hneg := (standsAt_neg hx.isFinite).2.2
      rw [valueOf_one, one_mul, ← hplace] at hone
      rw [valueOf_neg_one, neg_one_mul, nearestPlace_neg, ← hplace] at hminus
      exact ⟨eq_of_rank_eq hone (hone ▸ hne), eq_of_rank_eq (hminus.trans hneg.symm) (by omega)⟩

end FlightPlanner.Binary64
