import FlightPlanner.Proofs.Binary64.Views
import FlightPlanner.Proofs.Decimal.ReadBack
import FlightPlanner.Proofs.Json.Echoes

/-!
# How well doubles are read back

The written form of a double is read with several roundings: one of its digits, one of a power of ten and one of their
product or quotient, and more below the least power. So what is read may be another double, but not one far away. Where
the digits and the power are exact as doubles, only the last rounding is left, and it leads back to the double that was
written.
-/

namespace FlightPlanner.Json

open Binary64 Decimal

variable {x y : Float}

/-- Zero alone equals zero. -/
theorem valueOf_of_beq_zero (h : (x == 0) = true) : valueOf x = 0 := by
  have hzero : (0 : Float).toModel.unpack = .zero .positive := by rfl
  change (x.toModel.unpack.compare (0 : Float).toModel.unpack == some .eq) = true at h
  rw [hzero] at h
  unfold valueOf
  generalize x.toModel.unpack = form at h
  cases form with
  | zero sign => rfl
  | notANumber => contradiction
  | infinity sign => cases sign <;> contradiction
  | finite sign mantissa exponent pos => cases sign <;> contradiction

/-- Digits as a double are near the number that they are, and at least one. -/
theorem near_ofNat {digits : ℕ} (hpos : 0 < digits) (h : digits ≤ greatestSignificand) :
    Near 1 0 (Binary64.ofNat digits) digits ∧ 1 ≤ valueOf (Binary64.ofNat digits) := by
  have hone : (1 : ℚ) ≤ digits := by exact_mod_cast hpos
  have hfinite := isFinite_ofNat h
  refine ⟨near_of_standsAt (standsAt_ofNat digits) hfinite hone, ?_⟩
  rw [← valueOf_one]
  refine le_valueOf_of_standsAt hfinite (by decide) (standsAt_ofNat digits) ?_
  rwa [valueOf_one]

/-- A power of ten as a double is near it. -/
theorem near_powerOfTen {n : ℕ} (h : n ≤ 308) : Near 1 0 (powerOfTen n) (10 ^ n) :=
  near_of_standsAt (standsAt_powerOfTen (h.trans (by decide))) (isFinite_powerOfTen h).1 (one_le_pow₀ (by norm_num))

/-- A double that is at least one does not equal zero. -/
theorem beq_zero_of_one_le (h : 1 ≤ valueOf x) : (x == 0) = false := by
  rw [Bool.eq_false_iff]
  intro hzero
  rw [valueOf_of_beq_zero hzero] at h
  norm_num at h

/-- A double near a number comes near the number times a power of ten when it is scaled up. -/
theorem near_scaleUp? {q : ℚ} {n : ℕ} (hx : Near 1 0 x q) (hone : 1 ≤ valueOf x) (hq : 0 ≤ q)
    (h : scaleUp? x n = some y) : Near 4 1 y (q * 10 ^ n) := by
  have hfinite := isFinite_of_scaleUp? hx.finite h
  rw [scaleUp?] at h
  split at h
  · next hn =>
    simp only at h
    split at h
    · contradiction
    · obtain rfl := Option.some.inj h
      exact hx.mul (near_powerOfTen hn) hq (by positivity) hfinite
  · rw [beq_zero_of_one_le hone] at h
    contradiction

/-- A double near a number, divided by a power of ten, is near the quotient, and on the same side of zero. -/
theorem near_div_powerOfTen {c d q : ℚ} {n : ℕ} (hx : Near c d x q) (hpos : 0 ≤ valueOf x) (hq : 0 ≤ q)
    (hc : 0 ≤ c ∧ c ≤ 4) (hd : 0 ≤ d ∧ d ≤ 4) (hn : n ≤ 308) :
    Near (c + 5 / 2) (d + 3 / 2) (x / powerOfTen n) (q / 10 ^ n) ∧ 0 ≤ valueOf (x / powerOfTen n) := by
  obtain ⟨hpower, hone⟩ := isFinite_powerOfTen hn
  have hdivisor : 0 < valueOf (powerOfTen n) := zero_lt_one.trans_le hone
  have hnear := hx.div (near_powerOfTen hn) hpos hone hq (one_le_pow₀ (by norm_num)) hc hd
  refine ⟨hnear, ?_⟩
  rw [← not_neg_iff_valueOf hnear.finite]
  exact not_neg_of_standsAt (standsAt_div hx.finite hpower hdivisor.ne') (div_nonneg hpos hdivisor.le)

/-- A double near a number comes near the number divided by a power of ten when it is scaled down, in at most two
steps. -/
theorem near_scaleDown {q : ℚ} {n : ℕ} (hx : Near 1 0 x q) (hone : 1 ≤ valueOf x) (hq : 0 ≤ q) (hn : n ≤ 616) :
    Near 6 3 (scaleDown x n) (q / 10 ^ n) := by
  have hfirst : ∀ m ≤ 308,
      Near (1 + 5 / 2) (0 + 3 / 2) (x / powerOfTen m) (q / 10 ^ m) ∧ 0 ≤ valueOf (x / powerOfTen m) :=
    fun _ hm => near_div_powerOfTen hx (zero_le_one.trans hone) hq (by norm_num) (by norm_num) hm
  by_cases hshort : n ≤ 308
  · rw [scaleDown, if_pos hshort]
    exact (hfirst n hshort).1.mono (by positivity) (by norm_num) (by norm_num)
  · obtain ⟨m, rfl⟩ := Nat.exists_eq_add_of_lt (not_le.mp hshort)
    have hm : m + 1 ≤ 308 := by omega
    have hrest : 308 + m + 1 - 308 = m + 1 := by omega
    obtain ⟨hnear, hnonneg⟩ := hfirst 308 le_rfl
    obtain ⟨hsecond, -⟩ := near_div_powerOfTen hnear hnonneg (by positivity) (by norm_num) (by norm_num) hm
    rw [scaleDown, if_neg hshort, beq_zero_of_one_le hone, if_neg Bool.false_ne_true, hrest, scaleDown, if_pos hm,
      add_assoc, pow_add, ← div_div]
    exact hsecond.mono (by positivity) (by norm_num) (by norm_num)

/-- Digits that are scaled by a power of ten come near their decimal. -/
theorem near_scaled? {digits : ℕ} {power : ℤ} (hpos : 0 < digits) (hdigits : digits ≤ greatestSignificand)
    (hpower : -616 ≤ power) (h : scaled? digits power = some y) : Near 6 3 y (digits * 10 ^ power) := by
  obtain ⟨hnear, hone⟩ := near_ofNat hpos hdigits
  unfold scaled? at h
  simp only at h
  split at h
  · next hup =>
    obtain ⟨n, rfl⟩ := Int.eq_ofNat_of_zero_le hup
    rw [zpow_natCast]
    exact (near_scaleUp? hnear hone (Nat.cast_nonneg _) h).mono (by positivity) (by norm_num) (by norm_num)
  · next hdown =>
    obtain ⟨n, rfl⟩ := Int.exists_eq_neg_ofNat (by omega : power ≤ 0)
    obtain rfl := Option.some.inj h
    rw [neg_neg, Int.toNat_natCast, zpow_neg, zpow_natCast, ← div_eq_mul_inv]
    exact near_scaleDown hnear hone (Nat.cast_nonneg _) (by omega)

/-- The powers of ten up to the twenty-second are doubles. -/
theorem valueOf_powerOfTen {n : ℕ} (h : n ≤ 22) : valueOf (powerOfTen n) = 10 ^ n := by
  have hsplit : (10 : ℚ) ^ n = (5 ^ n : ℕ) * 2 ^ (n : ℤ) := by
    rw [zpow_natCast, Nat.cast_pow, ← mul_pow]
    norm_num
  have hbits : 5 ^ n < 2 * 0x10000000000000 :=
    (Nat.pow_le_pow_right (by decide) h).trans_lt (by decide)
  have hstands := standsAt_powerOfTen (n := n) (by omega)
  rw [hsplit] at hstands ⊢
  exact valueOf_units hstands (isFinite_powerOfTen (by omega)).1 hbits (by omega)

/-- Digits that are a double and are scaled by a power of ten that is one give the double nearest to their decimal. -/
theorem standsAt_scaled? {digits : ℕ} {power : ℤ} (hdigits : digits ≤ greatestSignificand)
    (hexact : valueOf (Binary64.ofNat digits) = digits) (hlow : -22 ≤ power) (hhigh : power ≤ 22)
    (h : scaled? digits power = some y) : StandsAt y (nearestPlace (digits * 10 ^ power)) := by
  have hfinite := isFinite_ofNat hdigits
  unfold scaled? at h
  simp only at h
  split at h
  · next hup =>
    obtain ⟨n, rfl⟩ := Int.eq_ofNat_of_zero_le hup
    have hn : n ≤ 22 := by omega
    rw [Int.toNat_natCast, scaleUp?, if_pos (by omega)] at h
    simp only at h
    split at h
    · contradiction
    · obtain rfl := Option.some.inj h
      rw [zpow_natCast, ← hexact, ← valueOf_powerOfTen hn]
      exact standsAt_mul hfinite (isFinite_powerOfTen (by omega)).1
  · next hdown =>
    obtain ⟨n, rfl⟩ := Int.exists_eq_neg_ofNat (by omega : power ≤ 0)
    have hn : n ≤ 22 := by omega
    obtain ⟨hpower, hone⟩ := isFinite_powerOfTen (n := n) (by omega)
    obtain rfl := Option.some.inj h
    rw [neg_neg, Int.toNat_natCast, scaleDown, if_pos (by omega), zpow_neg, zpow_natCast, ← div_eq_mul_inv, ← hexact,
      ← valueOf_powerOfTen hn]
    exact standsAt_div hfinite hpower (zero_lt_one.trans_le hone).ne'

/-- Zeros are read back. -/
theorem reread_zero {negative : Bool} {exponent : ℤ} (hview : view x = .finite negative 0 exponent) :
    reread x = x ∧ valueOf x = 0 := by
  obtain ⟨hzero, -, hvalue⟩ := view_zero hview
  refine ⟨?_, hvalue⟩
  rw [hzero]
  cases negative <;> decide +kernel

/-- A finite double other than zero is read as what the digits and the power of ten that its decimal is written with are
scaled to. -/
theorem reread_eq {negative : Bool} {mantissa : ℕ} {exponent : ℤ} (h : x.isFinite = true)
    (hview : view x = .finite negative mantissa exponent) (hne : mantissa ≠ 0) :
    ∃ digits power y, WrittenAs (shortest .even mantissa exponent) digits power ∧ 0 < digits ∧
      digits ≤ greatestSignificand ∧ scaled? digits power = some y ∧ reread x = Decimal.signed negative y := by
  obtain ⟨hbits, hlow, hhigh⟩ := view_bounds h hview hne
  obtain ⟨hpos, hcount, -⟩ := shortest_le (Nat.pos_of_ne_zero hne) hbits hlow hhigh
  obtain ⟨digits, power, hdigits, hwritten, hreal⟩ := real?_dataLiteral negative hcount
  have hpoint := isNone_dataLiteral negative (shortest .even mantissa exponent)
  have hvalue := value_eq_reread h
  simp only [realLiteral, hview, if_neg hne, Literal.value, hpoint, hreal, Bool.false_and, Bool.false_eq_true, if_false]
    at hvalue
  cases hscaled : scaled? digits power with
  | none =>
    rw [hscaled] at hvalue
    contradiction
  | some y =>
    rw [hscaled] at hvalue
    exact ⟨digits, power, y, hwritten, hwritten.pos hpos, hdigits, hscaled,
      (Number.real.inj (Except.ok.inj hvalue)).symm⟩

section Found

variable {mantissa : ℕ} {exponent : ℤ} (hpos : 0 < mantissa) (hbits : mantissa < 0x20000000000000)
  (hlow : -1074 ≤ exponent) (hhigh : exponent ≤ 971)

include hpos hbits hlow hhigh

/-- The decimal that is found for a double needs no more than two powers of ten to be scaled down. -/
theorem le_exponent_shortest : -616 ≤ (shortest .even mantissa exponent).exponent := by
  have hnear := ((covers_shortest .even hpos hbits hlow hhigh).near hpos).1
  have hcount := (shortest_le hpos hbits hlow hhigh).2.1
  generalize shortest .even mantissa exponent = found at hnear hcount
  by_contra hdeep
  obtain ⟨n, hn⟩ := Int.exists_eq_neg_ofNat (by omega : found.exponent ≤ 0)
  have hmantissa : (1 : ℚ) ≤ mantissa := by exact_mod_cast hpos
  have hleast : (2 : ℚ) ^ (-1075 : ℤ) ≤ found.digits * 10 ^ found.exponent := by
    refine le_trans ?_ hnear
    calc (2 : ℚ) ^ (-1075 : ℤ) ≤ 2 ^ (exponent - 1) := zpow_le_zpow_right₀ one_le_two (by omega)
      _ = 1 / 2 * 2 ^ exponent := by rw [zpow_sub_one₀ (by norm_num), mul_comm, one_div]
      _ ≤ (mantissa - 1 / 2) * 2 ^ exponent := mul_le_mul_of_nonneg_right (by linarith) (by positivity)
  have hpower : (10 : ℚ) ^ found.exponent ≤ 2 ^ (-1851 : ℤ) := by
    have height : (2 : ℚ) ^ 1851 ≤ 10 ^ n := by
      calc (2 : ℚ) ^ 1851 = 8 ^ 617 := by rw [show (1851 : ℕ) = 3 * 617 by rfl, pow_mul]; norm_num
        _ ≤ 8 ^ n := pow_le_pow_right₀ (by norm_num) (by omega)
        _ ≤ 10 ^ n := pow_le_pow_left₀ (by norm_num) (by norm_num) n
    rw [hn, zpow_neg, zpow_neg, zpow_natCast, zpow_ofNat]
    exact inv_anti₀ (by positivity) height
  have hdigits : (found.digits : ℚ) ≤ 2 ^ (57 : ℤ) := by
    have hnat : found.digits ≤ 2 ^ 57 := hcount.trans (by decide)
    rw [zpow_ofNat]
    exact_mod_cast hnat
  have hbelow : (found.digits : ℚ) * 10 ^ found.exponent < 2 ^ (-1075 : ℤ) := by
    calc (found.digits : ℚ) * 10 ^ found.exponent ≤ 2 ^ (57 : ℤ) * 2 ^ (-1851 : ℤ) :=
          mul_le_mul hdigits hpower (by positivity) (by positivity)
      _ = 2 ^ (57 + -1851 : ℤ) := (zpow_add₀ (by norm_num) _ _).symm
      _ < 2 ^ (-1075 : ℤ) := zpow_lt_zpow_right₀ one_lt_two (by norm_num)
  linarith

/-- The decimal that is found for a double is no further away from it than one rounding may lead. -/
theorem abs_shortest_sub_le (hhidden : exponent = -1074 ∨ 0x10000000000000 ≤ mantissa) :
    let found := shortest .even mantissa exponent
    |(found.digits : ℚ) * 10 ^ found.exponent - mantissa * 2 ^ exponent| ≤
      mantissa * 2 ^ exponent * roundoff + underflow := by
  intro found
  obtain ⟨hfrom, hto⟩ := (covers_shortest .even hpos hbits hlow hhigh).near hpos
  have hunit : (0 : ℚ) < 2 ^ exponent := by positivity
  have hhalf : (2 : ℚ) ^ exponent / 2 ≤ mantissa * 2 ^ exponent * roundoff + underflow := by
    rcases hhidden with rfl | hlong
    · rw [half_least]
      exact le_add_of_nonneg_left (mul_nonneg (by positivity) roundoff_bounds.1.le)
    · have hmantissa : (2 : ℚ) ^ 52 ≤ mantissa := by exact_mod_cast hlong
      refine le_trans ?_ (le_add_of_nonneg_right underflow_pos.le)
      have hpart := mul_le_mul_of_nonneg_right hmantissa hunit.le
      norm_num [roundoff] at hpart ⊢
      linarith
  rw [abs_le]
  constructor <;> linarith

end Found

/-- What the written form of a finite double is read as is finite, and off the double by no more than eight roundings
may lead. -/
theorem abs_valueOf_reread_sub_le (h : x.isFinite = true) :
    (reread x).isFinite = true ∧ |valueOf (reread x) - valueOf x| ≤ 8 * roundingError (valueOf x) := by
  obtain ⟨hu, hsmall⟩ := roundoff_bounds
  have ht := underflow_pos
  obtain ⟨negative, mantissa, exponent, hview⟩ := exists_view_of_isFinite h
  rcases Nat.eq_zero_or_pos mantissa with rfl | hpos
  · obtain ⟨hsame, hzero⟩ := reread_zero hview
    rw [hsame, hzero, sub_self, abs_zero, roundingError, abs_zero, zero_mul, zero_add]
    exact ⟨h, mul_nonneg (by norm_num) ht.le⟩
  · obtain ⟨hbits, hlow, hhigh⟩ := view_bounds h hview hpos.ne'
    obtain ⟨hhidden, -, hvalue⟩ := view_rank hview hpos.ne'
    obtain ⟨digits, power, y, hwritten, hdigits, hmost, hscaled, hreread⟩ := reread_eq h hview hpos.ne'
    have hfound := abs_shortest_sub_le hpos hbits hlow hhigh hhidden
    have hdeep : -616 ≤ power := by
      cases hwritten with
      | same => exact le_exponent_shortest hpos hbits hlow hhigh
      | padded => omega
    obtain ⟨hfinite, hclose⟩ := near_scaled? hdigits hmost hdeep hscaled
    rw [hwritten.value_eq] at hclose
    refine ⟨hreread ▸ isFinite_signed negative hfinite, ?_⟩
    have hsign : |(((signOf negative).apply 1 : ℤ) : ℚ)| = 1 := by
      cases negative <;> simp [signOf, Float.Model.UnpackedFloat.Sign.apply]
    have hvaluepos : (0 : ℚ) ≤ mantissa * 2 ^ exponent := by positivity
    rw [hreread, (signed_rank negative hfinite).2, hvalue, ← mul_sub, abs_mul, hsign, one_mul, roundingError, abs_mul,
      hsign, one_mul, abs_of_nonneg hvaluepos]
    generalize (mantissa : ℚ) * 2 ^ exponent = value at *
    dsimp only at hfound hclose
    generalize shortest .even mantissa exponent = found at *
    generalize (found.digits : ℚ) * 10 ^ found.exponent = decimal at *
    obtain ⟨hfrom, hto⟩ := abs_le.mp hfound
    obtain ⟨hfrom', hto'⟩ := abs_le.mp hclose
    have hdecimal : decimal * roundoff ≤ (value + (value * roundoff + underflow)) * roundoff :=
      mul_le_mul_of_nonneg_right (by linarith) hu.le
    have hparts : value * roundoff * (6 * roundoff) ≤ value * roundoff * 1 :=
      mul_le_mul_of_nonneg_left (by linarith) (mul_nonneg hvaluepos hu.le)
    have hspill : underflow * (6 * roundoff) ≤ underflow * 1 := mul_le_mul_of_nonneg_left (by linarith) ht.le
    rw [abs_le]
    constructor <;> linarith

/-- A double that a decimal with few digits is nearest to: of at most nine thousand million million units, at most
twenty-two places and a size of at most a thousand million million. -/
def IsShort (x : Float) : Prop :=
  ∃ (negative : Bool) (digits places : ℕ), digits ≤ 9 * 10 ^ 15 ∧ places ≤ 22 ∧ digits ≤ 10 ^ 15 * 10 ^ places ∧
    x = Decimal.signed negative (Decimal.ofDecimal digits (-places))

/-- A sign multiplies a magnitude by one with this sign. -/
theorem apply_mul_natCast (negative : Bool) (magnitude : ℕ) :
    (signOf negative).apply 1 * (magnitude : ℤ) = Binary64.signed negative magnitude := by
  cases negative <;> simp [signOf, Float.Model.UnpackedFloat.Sign.apply, Binary64.signed]

/-- A magnitude is that of its place. -/
theorem natAbs_signed (negative : Bool) (magnitude : ℕ) :
    (Binary64.signed negative magnitude).natAbs = magnitude := by
  cases negative <;> simp [Binary64.signed]

/-- Digits that fifty-three bits hold, up to a factor of two, are a double. -/
theorem valueOf_ofNat (units bits : ℕ) (hunits : units < 2 * 0x10000000000000)
    (h : units * 2 ^ bits ≤ greatestSignificand) :
    valueOf (Binary64.ofNat (units * 2 ^ bits)) = (units * 2 ^ bits : ℕ) := by
  have hstands := standsAt_ofNat (units * 2 ^ bits)
  have hsplit : ((units * 2 ^ bits : ℕ) : ℚ) = units * 2 ^ (bits : ℤ) := by
    rw [zpow_natCast]
    push_cast
    rfl
  rw [hsplit] at hstands ⊢
  exact valueOf_units hstands (isFinite_ofNat h) hunits (by omega)

section Short

variable {mantissa : ℕ} {exponent : ℤ} {digits places : ℕ} (hpos : 0 < mantissa) (hbits : mantissa < 0x20000000000000)
  (hlow : -1074 ≤ exponent) (hhigh : exponent ≤ 971) (hhidden : exponent = -1074 ∨ 0x10000000000000 ≤ mantissa)
  (hdigits : 0 < digits) (hfew : digits ≤ 9 * 10 ^ 15) (hplaces : places ≤ 22)
  (hsize : digits ≤ 10 ^ 15 * 10 ^ places)
  (h : (Interval.around mantissa exponent).Covers (digits * 10 ^ (-places : ℤ)))

include hpos hhidden hdigits hplaces h in
/-- A double that a decimal with few places rounds to has all its bits: the numbers without are far below such
decimals. -/
theorem hidden_of_short : 0x10000000000000 ≤ mantissa := by
  refine hhidden.elim (fun hleast => ?_) id
  by_contra hshort
  have hto := (h.near hpos).2
  have hdecimal : (2 : ℚ) ^ (-88 : ℤ) ≤ digits * 10 ^ (-places : ℤ) := by
    have hone : (1 : ℚ) ≤ digits := by exact_mod_cast hdigits
    calc (2 : ℚ) ^ (-88 : ℤ) ≤ 10 ^ (-22 : ℤ) := by norm_num
      _ ≤ 10 ^ (-places : ℤ) := zpow_le_zpow_right₀ (by norm_num) (by omega)
      _ ≤ digits * 10 ^ (-places : ℤ) := le_mul_of_one_le_left (by positivity) hone
  have hsmall : ((mantissa : ℚ) + 1 / 2) * 2 ^ exponent < 2 ^ (-88 : ℤ) := by
    have hmantissa : (mantissa : ℚ) + 1 ≤ 2 ^ (52 : ℤ) := by
      rw [zpow_ofNat]
      exact_mod_cast not_le.mp hshort
    calc ((mantissa : ℚ) + 1 / 2) * 2 ^ exponent ≤ 2 ^ (52 : ℤ) * 2 ^ exponent :=
          mul_le_mul_of_nonneg_right (by linarith) (by positivity)
      _ = 2 ^ (52 + exponent) := (zpow_add₀ (by norm_num) _ _).symm
      _ < 2 ^ (-88 : ℤ) := zpow_lt_zpow_right₀ one_lt_two (by omega)
  exact absurd (hdecimal.trans hto) (not_le.mpr hsmall)

include hfew in
/-- A decimal that is hardly greater than one with few digits has few digits itself, if it is not finer. -/
theorem digits_le_of_short {found : Digits} (hgrid : -(places : ℤ) ≤ found.exponent)
    (hvalue : (found.digits : ℚ) * 10 ^ found.exponent ≤
      digits * 10 ^ (-places : ℤ) + digits * 10 ^ (-places : ℤ) / 2 ^ 51) :
    found.digits ≤ 9 * 10 ^ 15 + 4 := by
  have hstep : (0 : ℚ) < 10 ^ (-places : ℤ) := by positivity
  have hcount : (digits : ℚ) ≤ 9 * 10 ^ 15 := by exact_mod_cast hfew
  have hfiner : (found.digits : ℚ) * 10 ^ (-places : ℤ) ≤ (digits + digits / 2 ^ 51) * 10 ^ (-places : ℤ) := by
    calc (found.digits : ℚ) * 10 ^ (-places : ℤ) ≤ found.digits * 10 ^ found.exponent :=
          mul_le_mul_of_nonneg_left (zpow_le_zpow_right₀ (by norm_num) hgrid) (Nat.cast_nonneg _)
      _ ≤ digits * 10 ^ (-places : ℤ) + digits * 10 ^ (-places : ℤ) / 2 ^ 51 := hvalue
      _ = (digits + digits / 2 ^ 51) * 10 ^ (-places : ℤ) := by ring
  have hcoarse := le_of_mul_le_mul_right hfiner hstep
  have hpart : (digits : ℚ) / 2 ^ 51 ≤ 4 := (div_le_iff₀ (by positivity)).mpr (hcount.trans (by norm_num))
  have hcast : (found.digits : ℚ) < (9 * 10 ^ 15 + 5 : ℕ) := by
    push_cast
    linarith
  have hnat : found.digits < 9 * 10 ^ 15 + 5 := by exact_mod_cast hcast
  omega

include hpos hbits hlow hhigh hhidden hdigits hfew hplaces hsize h

/-- What is found for a double that a decimal with few digits rounds to has few digits as well, and no more places. -/
theorem shortest_of_short :
    let found := shortest .even mantissa exponent
    found.digits ≤ 9 * 10 ^ 15 + 4 ∧ (-22 ≤ found.exponent ∧ found.exponent ≤ 15) ∧
      (found.digits : ℚ) * 10 ^ found.exponent < 10 ^ 15 + 1 := by
  intro found
  have hlong := hidden_of_short hpos hhidden hdigits hplaces h
  have hgrid : -(places : ℤ) ≤ found.exponent := le_exponent_of_covers .even hpos hbits hlow hhigh hdigits hfew h
  have hvalue := shortest_le_of_covers .even hlong hbits hlow hhigh h
  have hmost : (digits : ℚ) * 10 ^ (-places : ℤ) ≤ 10 ^ 15 := by
    rw [zpow_neg, zpow_natCast, ← div_eq_mul_inv, div_le_iff₀ (by positivity)]
    exact_mod_cast hsize
  have hbelow : (found.digits : ℚ) * 10 ^ found.exponent < 10 ^ 15 + 1 := by
    have hpart : (digits : ℚ) * 10 ^ (-places : ℤ) / 2 ^ 51 < 1 :=
      (div_lt_iff₀ (by positivity)).mpr (hmost.trans_lt (by norm_num))
    exact hvalue.trans_lt (by linarith)
  refine ⟨digits_le_of_short hfew hgrid hvalue, ⟨by omega, ?_⟩, hbelow⟩
  have hone : (1 : ℚ) ≤ found.digits := by exact_mod_cast (shortest_le hpos hbits hlow hhigh).1
  have hpower : (10 : ℚ) ^ found.exponent < 10 ^ (16 : ℤ) :=
    (le_mul_of_one_le_left (by positivity) hone).trans_lt (hbelow.trans (by norm_num))
  have hexponents := (zpow_lt_zpow_iff_right₀ (by norm_num : (1 : ℚ) < 10)).mp hpower
  omega

/-- The digits and the power that such a double is read from are doubles, so that it is read as the one nearest to the
decimal that is found for it. -/
theorem standsAt_of_short {y : Float} {significand : ℕ} {power : ℤ}
    (hmost : significand ≤ greatestSignificand)
    (hwritten : WrittenAs (shortest .even mantissa exponent) significand power)
    (hscaled : scaled? significand power = some y) :
    StandsAt y (nearestPlace (significand * 10 ^ power)) := by
  obtain ⟨hcount, ⟨hlowpower, hhighpower⟩, hbelow⟩ :=
    shortest_of_short hpos hbits hlow hhigh hhidden hdigits hfew hplaces hsize h
  generalize shortest .even mantissa exponent = found at *
  cases hwritten with
  | same =>
    have hexact := valueOf_ofNat found.digits 0 (by omega) (by simpa using hmost)
    rw [pow_zero, Nat.mul_one] at hexact
    exact standsAt_scaled? hmost hexact hlowpower (by omega) hscaled
  | padded hwhole =>
    -- ten times a whole number is twice as much as five times this number
    obtain ⟨n, hn⟩ := Int.eq_ofNat_of_zero_le hwhole
    rw [hn, zpow_natCast] at hbelow
    rw [hn, Int.toNat_natCast] at hmost hscaled ⊢
    have hnat : found.digits * 10 ^ n < 10 ^ 15 + 1 := by exact_mod_cast hbelow
    have hsplit : found.digits * 10 ^ n * 10 = found.digits * 10 ^ n * 5 * 2 ^ 1 := by ring
    have hexact := valueOf_ofNat (found.digits * 10 ^ n * 5) 1 (by omega) (by omega)
    rw [← hsplit] at hexact
    exact standsAt_scaled? hmost hexact (by decide) (by decide) hscaled

end Short

/-- A number that is not negative is rounded to the magnitude of the double nearest to it, whatever its sign. -/
theorem nearestMagnitude_of_signed {negative sign : Bool} {magnitude : ℕ} {q : ℚ} (hq : 0 ≤ q)
    (hfinite : y.isFinite = true) (hstands : StandsAt y (nearestPlace q))
    (h : rank (Decimal.signed negative y) = Binary64.signed sign magnitude) : nearestMagnitude q = magnitude := by
  have hplace : nearestPlace q = nearestMagnitude q := by rw [nearestPlace, if_neg (not_lt.mpr hq)]
  rw [(signed_rank negative hfinite).1, hstands.2, hplace, apply_mul_natCast] at h
  have hmagnitude := congrArg Int.natAbs h
  rwa [natAbs_signed, natAbs_signed] at hmagnitude

/-- The double at a magnitude above zero is the one at a place with that magnitude, once it has its sign. -/
theorem signed_eq_of_rank {negative : Bool} {magnitude : ℕ} (hpos : 0 < magnitude)
    (hmagnitude : magnitude < infiniteMagnitude) (hy : StandsAt y magnitude)
    (hx : rank x = Binary64.signed negative magnitude) : Decimal.signed negative y = x := by
  have hfinite : y.isFinite = true := by
    rw [isFinite_iff_rank hy.1, hy.2]
    omega
  have hrank := (signed_rank negative hfinite).1
  rw [hy.2, apply_mul_natCast] at hrank
  refine eq_of_rank_eq (hrank.trans hx.symm) fun hzero => ?_
  have hnatAbs := congrArg Int.natAbs (hrank.symm.trans hzero)
  rw [natAbs_signed] at hnatAbs
  exact hpos.ne' hnatAbs

/-- A decimal with few digits is rounded to a finite double. -/
theorem isFinite_ofDecimal_of_size {digits places : ℕ} (hsize : digits ≤ 10 ^ 15 * 10 ^ places)
    (hstands : StandsAt (Decimal.ofDecimal digits (-places)) (nearestPlace (digits / 10 ^ places))) :
    (Decimal.ofDecimal digits (-places)).isFinite = true := by
  have hmost : (digits : ℚ) / 10 ^ places ≤ 10 ^ 15 := by
    rw [div_le_iff₀ (by positivity)]
    exact_mod_cast hsize
  refine isFinite_of_standsAt hstands ?_
  rw [abs_of_nonneg (by positivity)]
  exact lt_overflow (hmost.trans_lt (by norm_num))

/-- A double that a decimal with few digits is nearest to is finite and is read back. -/
theorem reread_of_isShort (h : IsShort x) : x.isFinite = true ∧ reread x = x := by
  obtain ⟨negative, digits, places, hfew, hplaces, hsize, hx⟩ := h
  rcases Nat.eq_zero_or_pos digits with rfl | hdigits
  · have hzero : Decimal.ofDecimal 0 (-places) = .ofModel (.pack (.zero .positive)) := rfl
    rw [hx, hzero]
    cases negative <;> decide +kernel
  have hstands := standsAt_ofDecimal_places hdigits (hplaces.trans (by decide))
  have hfinite := isFinite_ofDecimal_of_size hsize hstands
  have hxfinite : x.isFinite = true := hx ▸ isFinite_signed negative hfinite
  refine ⟨hxfinite, ?_⟩
  obtain ⟨sign, mantissa, exponent, hview⟩ := exists_view_of_isFinite hxfinite
  rcases Nat.eq_zero_or_pos mantissa with rfl | hpos
  · exact (reread_zero hview).1
  obtain ⟨hbits, hlow, hhigh⟩ := view_bounds hxfinite hview hpos.ne'
  obtain ⟨hhidden, hrank, -⟩ := view_rank hview hpos.ne'
  -- both the decimal and the one that is found for the double are rounded to the magnitude of the double
  have hcovers : (Interval.around mantissa exponent).Covers (digits * 10 ^ (-places : ℤ)) := by
    have hdecimal : (digits : ℚ) * 10 ^ (-places : ℤ) = digits / 10 ^ places := by
      rw [zpow_neg, zpow_natCast, div_eq_mul_inv]
    have hmagnitude := nearestMagnitude_of_signed (by positivity) hfinite hstands (hx ▸ hrank)
    rw [hdecimal]
    exact (Interval.covers_around_iff hpos hbits hlow hhidden hhigh (by positivity)).mpr hmagnitude
  have hfound := (Interval.covers_around_iff hpos hbits hlow hhidden hhigh (by positivity)).mp
    (covers_shortest .even hpos hbits hlow hhigh)
  obtain ⟨significand, power, y, hwritten, -, hmost, hscaled, hreread⟩ := reread_eq hxfinite hview hpos.ne'
  have hy := standsAt_of_short hpos hbits hlow hhigh hhidden hdigits hfew hplaces hsize hcovers hmost hwritten hscaled
  rw [hwritten.value_eq, nearestPlace, if_neg (not_lt.mpr (by positivity)), hfound] at hy
  have habove : 0 < magnitudeAt exponent mantissa := hpos.trans_le (Nat.le_add_left _ _)
  rw [hreread, signed_eq_of_rank habove (magnitudeAt_lt hbits hhigh) hy hrank]

/-- A double that may be read where another one was written. -/
structure ReadBackAs (x y : Float) : Prop where
  /-- It is finite. -/
  finite : y.isFinite = true
  /-- It is within eight roundings of the double that was written. -/
  close : |valueOf y - valueOf x| ≤ 8 * roundingError (valueOf x)
  /-- It is that double, if a decimal with few digits is rounded to it. -/
  exact : IsShort x → y = x

/-- What a finite double comes back as may be read where it was written. -/
theorem readBackAs_reread (h : x.isFinite = true) : ReadBackAs x (reread x) :=
  ⟨(abs_valueOf_reread_sub_le h).1, (abs_valueOf_reread_sub_le h).2, fun hshort => (reread_of_isShort hshort).2⟩

end FlightPlanner.Json
