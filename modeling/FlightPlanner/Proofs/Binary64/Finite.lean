import FlightPlanner.Decimal.Reading
import FlightPlanner.Proofs.Binary64.Bounds

/-!
# Results that stay finite

What stands nearest to a number is finite when the number is nearer to the greatest double than to the power of two
behind it. So an operation on finite doubles leaves a finite one wherever its exact result does not come that far, and
a bound on the exact result is one on the double.
-/

namespace FlightPlanner.Binary64

open Float.Model Float.Model.UnpackedFloat

variable {x y : Float} {q : ℚ}

/-- The least number above zero that an infinity is nearest to. -/
def overflow : ℚ := (2 ^ 54 - 1) * 2 ^ 970

/-- The value of the greatest finite double. -/
def greatest : ℚ := (2 ^ 53 - 1) * 2 ^ 971

/-- The greatest finite double is far from where infinity begins. -/
theorem greatest_add_lt {r : ℚ} (h : r < 2 ^ 64) : greatest + r < overflow := by
  have hunit : (2 : ℚ) ^ 64 ≤ 2 ^ 970 := pow_le_pow_right₀ one_le_two (by norm_num)
  rw [greatest, overflow, pow_succ 2 970]
  generalize (2 : ℚ) ^ 970 = unit at hunit
  linarith

/-- The greatest finite double is small enough to be finite. -/
theorem greatest_lt : greatest < overflow := by
  have h := greatest_add_lt (r := 0) (by norm_num)
  rwa [add_zero] at h

/-- What is not even sixty-four bits long is far below where infinity begins. -/
theorem lt_overflow {r : ℚ} (h : r < 2 ^ 64) : r < overflow := by
  have hgreatest : 0 ≤ greatest := mul_nonneg (by norm_num) (by positivity)
  linarith [greatest_add_lt h]

/-- Whatever is smaller than this has the magnitude of a finite double. -/
theorem nearestMagnitude_lt (h : q < overflow) : nearestMagnitude q < infiniteMagnitude := by
  have hexp := isExponent_exponentOf q
  have hunits := hexp.roundEven_le
  rw [hexp.nearestMagnitude_eq, infiniteMagnitude, magnitudeAt]
  obtain hlt | heq | hgt := lt_trichotomy (exponentOf q) 971
  · omega
  · -- in the last binade the units are rounded down, as the number is less than half a unit from the end
    have hbelow : q / 2 ^ (971 : ℤ) < 2 ^ 53 - 1 + 1 / 2 := by
      rw [div_lt_iff₀ (by positivity)]
      rw [zpow_ofNat, pow_succ 2 970]
      refine h.trans_le (le_of_eq ?_)
      rw [overflow]
      generalize (2 : ℚ) ^ 970 = unit
      ring
    have hround : roundEven (q / 2 ^ (971 : ℤ)) ≤ 2 ^ 53 - 1 := by
      have hnear := floor_le_roundEven (q / 2 ^ (971 : ℤ))
      generalize q / 2 ^ (971 : ℤ) = units at hbelow hnear ⊢
      have hfloor : ⌊units⌋₊ < 2 ^ 53 := (Nat.floor_lt' (by norm_num)).2 (by push_cast; linarith)
      by_contra hover
      have hlast : ⌊units⌋₊ = 2 ^ 53 - 1 := by omega
      have hdown : roundEven units = 2 ^ 53 - 1 := by
        rw [roundEven, hlast, if_pos (by push_cast; linarith)]
      omega
    rw [heq]
    omega
  · have hneeded := hexp.needed.resolve_left (by omega)
    have hpower : (2 : ℚ) ^ (1024 : ℤ) ≤ 2 ^ (exponentOf q + 52) := zpow_le_zpow_right₀ one_le_two (by omega)
    have hend : overflow < 2 ^ (1024 : ℤ) := by
      rw [overflow, zpow_ofNat, pow_add 2 54 970]
      exact mul_lt_mul_of_pos_right (by norm_num) (by positivity)
    linarith

/-- What stands nearest to a number that is small enough is finite. -/
theorem isFinite_of_standsAt (h : StandsAt x (nearestPlace q)) (hq : |q| < overflow) : x.isFinite = true := by
  obtain ⟨hlow, hhigh⟩ := abs_lt.1 hq
  rw [isFinite_iff_rank h.1, h.2, nearestPlace]
  split
  · have := nearestMagnitude_lt (q := -q) (by linarith)
    omega
  · have := nearestMagnitude_lt hhigh
    omega

/-- No finite double is beyond the greatest one. -/
theorem abs_valueOf_le (h : x.isFinite = true) : |valueOf x| ≤ greatest := by
  obtain ⟨negative, magnitude, hdenotes, -⟩ := denotes_rank x
  have hfinite : x.toModel.unpack.isFinite = true := h
  unfold valueOf
  generalize x.toModel.unpack = form at hdenotes hfinite
  cases hdenotes with
  | zero => norm_num [exactOf, greatest]
  | @finite _ mantissa exponent pos low high hidden bounded sum =>
    have hmantissa : (mantissa : ℚ) ≤ 2 ^ 53 - 1 := by
      have : mantissa ≤ 2 ^ 53 - 1 := by omega
      have hcast : (mantissa : ℚ) ≤ ((2 ^ 53 - 1 : ℕ) : ℚ) := by exact_mod_cast this
      norm_num at hcast ⊢
      exact hcast
    have hpower : (2 : ℚ) ^ exponent ≤ 2 ^ (971 : ℤ) := zpow_le_zpow_right₀ one_le_two (by omega)
    have hsign : |((signOf negative).apply 1 : ℤ)| = 1 := by cases negative <;> rfl
    have hvalue : (0 : ℚ) ≤ mantissa * 2 ^ exponent := by positivity
    rw [exactOf, abs_mul, ← Int.cast_abs, hsign, Int.cast_one, one_mul, abs_of_nonneg hvalue, greatest]
    exact mul_le_mul hmantissa (by exact_mod_cast hpower) (by positivity) (by norm_num)
  | infinity => contradiction
  | notANumber => contradiction

/-- What stands nearest to a number that is at least the value of a finite double is at least this double. -/
theorem le_valueOf_of_standsAt (hx : x.isFinite = true) (hy : y.isFinite = true) (h : StandsAt x (nearestPlace q))
    (hq : valueOf y ≤ q) : valueOf y ≤ valueOf x := by
  rw [← le_iff_valueOf hy hx, le_iff_rank (isNaN_of_isFinite hy) h.1, h.2, rank_of_isFinite hy]
  exact nearestPlace_mono hq

/-- The value of one. -/
theorem valueOf_one : valueOf 1 = 1 := by
  have hform : (1 : Float).toModel.unpack = .finite .positive 0x10000000000000 (-52) (by decide) := by rfl
  rw [valueOf, hform, exactOf_positive]
  norm_num

/-- A double is finite when it is a number and no infinity. -/
theorem isFinite_iff (x : Float) : x.isFinite = true ↔ x.isNaN = false ∧ x.isInf = false := by
  change x.toModel.unpack.isFinite = true ↔ x.toModel.unpack.isNaN = false ∧ x.toModel.unpack.isInf = false
  cases x.toModel.unpack <;> simp [UnpackedFloat.isFinite, UnpackedFloat.isNaN, UnpackedFloat.isInf]

/-- A sign put in front of a double does not change whether it is finite. -/
theorem isFinite_signed (negative : Bool) (h : x.isFinite = true) : (Decimal.signed negative x).isFinite = true := by
  unfold Decimal.signed
  split
  · have hneg := (isForm_unpack h).neg
    have hstands := hneg.1.standsAt
    rw [hneg.2] at hstands
    refine isFinite_of_standsAt hstands ?_
    rw [abs_neg]
    exact (abs_valueOf_le h).trans_lt greatest_lt
  · exact h

/-- The double nearest to a number in binary stands nearest to it. -/
theorem standsAt_nearest (negative : Bool) (mantissa : ℕ) (exponent : ℤ) :
    StandsAt (nearest negative mantissa exponent)
      (nearestPlace ((signOf negative).apply 1 * (mantissa * 2 ^ exponent))) := by
  unfold nearest
  split
  · next hzero =>
    rw [hzero, Nat.cast_zero, zero_mul, mul_zero, nearestPlace_zero]
    exact standsAt_zero _
  · next hne =>
    rw [← signed_nearestMagnitude (by positivity)]
    exact standsAt_round _ hne exponent

/-- The double of a number in binary is finite when the number is small enough. -/
theorem isFinite_nearest (negative : Bool) {mantissa : ℕ} {exponent : ℤ}
    (h : (mantissa : ℚ) * 2 ^ exponent < overflow) : (nearest negative mantissa exponent).isFinite = true := by
  refine isFinite_of_standsAt (standsAt_nearest negative mantissa exponent) ?_
  have hsign : |((signOf negative).apply 1 : ℤ)| = 1 := by cases negative <;> rfl
  have hvalue : (0 : ℚ) ≤ mantissa * 2 ^ exponent := by positivity
  rwa [abs_mul, ← Int.cast_abs, hsign, Int.cast_one, one_mul, abs_of_nonneg hvalue]

/-- The double of a whole decimal stands nearest to it. -/
theorem standsAt_ofDecimal {digits : ℕ} (hpos : 0 < digits) {power : ℕ} (hpower : power ≤ 2048) :
    StandsAt (Decimal.ofDecimal digits power) (nearestPlace (digits * 10 ^ power)) := by
  unfold Decimal.ofDecimal Float.Model.ofScientific UnpackedFloat.ofScientific
  have hbits : (2 : ℤ) ^ Format.binary64.exponentBits = 2048 := rfl
  rw [dif_neg hpos.ne', hbits, if_neg (by omega), if_neg (by omega), if_pos (by omega)]
  have hlong : digits <<< 53 * 10 ^ power ≠ 0 := by
    rw [Nat.shiftLeft_eq]
    positivity
  have hexp : (-53 : ℤ) ≤ targetOf (digits <<< 53 * 10 ^ power) (-53) := by
    have hle : digits <<< 53 ≤ digits <<< 53 * 10 ^ power := Nat.le_mul_of_pos_right _ (by positivity)
    have hlog : 53 ≤ (digits <<< 53 * 10 ^ power).log2 := by
      rw [Nat.le_log2 hlong]
      refine le_trans ?_ hle
      rw [Nat.shiftLeft_eq]
      exact Nat.le_mul_of_pos_left _ hpos
    rw [targetOf]
    omega
  have h := standsAt_roundWithAccuracy (represents_exact (digits <<< 53 * 10 ^ power)) hexp .positive
  have hvalue : ((Sign.positive.apply 1 : ℤ) : ℚ) * ((digits <<< 53 * 10 ^ power : ℕ) * 2 ^ (-53 : ℤ)) =
      digits * 10 ^ power := by
    rw [Nat.shiftLeft_eq, Sign.apply]
    push_cast
    norm_num
    ring
  have hnonneg : (0 : ℚ) ≤ (digits <<< 53 * 10 ^ power : ℕ) * 2 ^ (-53 : ℤ) :=
    mul_nonneg (Nat.cast_nonneg _) (zpow_nonneg (by norm_num) _)
  rw [signed_nearestMagnitude hnonneg, hvalue] at h
  simp only [UnpackedFloat.mul, Int.toNat_natCast, Int.add_zero]
  exact h

/-- The double of a decimal with places behind the point stands nearest to it. -/
theorem standsAt_ofDecimal_places {digits : ℕ} (hpos : 0 < digits) {places : ℕ} (hplaces : places ≤ 2048) :
    StandsAt (Decimal.ofDecimal digits (-places)) (nearestPlace (digits / 10 ^ places)) := by
  obtain rfl | hsome := Nat.eq_zero_or_pos places
  · have h := standsAt_ofDecimal hpos (Nat.zero_le 2048)
    rwa [pow_zero, mul_one, ← div_one (digits : ℚ), ← pow_zero 10] at h
  · unfold Decimal.ofDecimal Float.Model.ofScientific UnpackedFloat.ofScientific
    have hbits : (2 : ℤ) ^ Format.binary64.exponentBits = 2048 := rfl
    rw [dif_neg hpos.ne', hbits, if_neg (by omega), if_neg (by omega), if_neg (by omega)]
    simp only [neg_neg, Int.toNat_natCast]
    have h := standsAt_divCore (.positive / .positive) 0 0 hpos (Nat.pow_pos (n := places) (by decide : 0 < 10))
    have hvalue : (digits : ℚ) * 2 ^ (0 : ℤ) / ((10 ^ places : ℕ) * 2 ^ (0 : ℤ)) = digits / 10 ^ places := by
      push_cast
      norm_num
    rw [hvalue] at h
    have hquotient : (0 : ℚ) ≤ digits / 10 ^ places := by positivity
    have hplace := signed_nearestMagnitude hquotient .positive
    have hone : ((Sign.positive.apply 1 : ℤ) : ℚ) * (digits / 10 ^ places) = digits / 10 ^ places := by
      simp [Sign.apply]
    rw [hone] at hplace
    rw [← hplace]
    exact h

section Operations

variable (hx : x.isFinite = true) (hy : y.isFinite = true)

include hx hy

/-- A sum that does not come too far is finite. -/
theorem isFinite_add (h : |valueOf x + valueOf y| < overflow) : (x + y).isFinite = true :=
  isFinite_of_standsAt (standsAt_add hx hy) h

/-- A difference that does not come too far is finite. -/
theorem isFinite_sub (h : |valueOf x - valueOf y| < overflow) : (x - y).isFinite = true :=
  isFinite_of_standsAt (standsAt_sub hx hy) h

/-- A product that does not come too far is finite. -/
theorem isFinite_mul (h : |valueOf x * valueOf y| < overflow) : (x * y).isFinite = true :=
  isFinite_of_standsAt (standsAt_mul hx hy) h

/-- A quotient by one or more is finite. -/
theorem isFinite_div (h : 1 ≤ valueOf y) : (x / y).isFinite = true := by
  have hpos : 0 < valueOf y := by linarith
  refine isFinite_of_standsAt (standsAt_div hx hy hpos.ne') ?_
  rw [abs_div, abs_of_pos hpos]
  calc |valueOf x| / valueOf y ≤ |valueOf x| := div_le_self (abs_nonneg _) h
    _ ≤ greatest := abs_valueOf_le hx
    _ < overflow := greatest_lt

end Operations

end FlightPlanner.Binary64
