import FlightPlanner.Proofs.Binary64.Order
import FlightPlanner.Proofs.Binary64.Rounding

/-!
# What the machine's rounding packs

The machine rounds a mantissa that was cut off, with two bits that say what was cut. Together they represent a
number, shifting keeps it represented, and the rounded mantissa is the nearest whole number of units. Packed, it
is the magnitude nearest to the number, an infinity beyond the greatest double.
-/

namespace FlightPlanner.Binary64

open Float.Model Float.Model.UnpackedFloat

/-- Whether a mantissa that was cut off, and what is known of the rest, represent a number. -/
def Represents (cut : ExtendedMantissa) (x : ℚ) : Prop :=
  match cut.roundBit, cut.stickyBit with
  | false, false => x = cut.mantissa
  | false, true => cut.mantissa < x ∧ x < cut.mantissa + 1 / 2
  | true, false => x = cut.mantissa + 1 / 2
  | true, true => cut.mantissa + 1 / 2 < x ∧ x < cut.mantissa + 1

/-- The mantissa is the whole part of what is represented. -/
theorem Represents.bounds {cut : ExtendedMantissa} {x : ℚ} (h : Represents cut x) :
    (cut.mantissa : ℚ) ≤ x ∧ x < cut.mantissa + 1 := by
  obtain ⟨mantissa, roundBit, stickyBit⟩ := cut
  cases roundBit <;> cases stickyBit <;> simp only [Represents] at h <;> constructor <;> linarith

/-- A mantissa that was not cut represents itself. -/
theorem represents_exact (mantissa : ℕ) :
    Represents (.ofMantissaAndAccuracy mantissa .exact) mantissa := rfl

/-- The quotient of two whole numbers, and how its remainder compares with half of the divisor, represent their
exact quotient. -/
theorem represents_quotient (dividend : ℕ) {divisor : ℕ} (hpos : 0 < divisor) :
    Represents (.ofMantissaAndAccuracy (dividend / divisor) (accuracyOfFraction (dividend % divisor) divisor))
      (dividend / divisor) := by
  have hd : (0 : ℚ) < divisor := by exact_mod_cast hpos
  have hrest : (dividend : ℚ) / divisor = (dividend / divisor : ℕ) + (dividend % divisor : ℕ) / divisor := by
    rw [add_div' _ _ _ hd.ne', div_left_inj' hd.ne']
    exact_mod_cast (Nat.div_add_mod' dividend divisor).symm
  rw [hrest]
  generalize dividend / divisor = quotient
  have hlt : ((dividend % divisor : ℕ) : ℚ) / divisor < 1 := by
    rw [div_lt_one hd]
    exact_mod_cast Nat.mod_lt dividend hpos
  generalize dividend % divisor = rest at hlt
  unfold accuracyOfFraction
  split
  · next hzero => simp [hzero, Represents, ExtendedMantissa.ofMantissaAndAccuracy]
  · next hne =>
    have hrestpos : (0 : ℚ) < (rest : ℚ) / divisor :=
      div_pos (by exact_mod_cast Nat.pos_of_ne_zero hne) hd
    rcases lt_trichotomy (2 * rest) divisor with h | h | h
    · have hhalf : (rest : ℚ) / divisor < 1 / 2 := by
        rw [div_lt_div_iff₀ hd two_pos]
        exact_mod_cast (by omega : rest * 2 < 1 * divisor)
      rw [compare_lt_iff_lt.2 h]
      exact ⟨lt_add_of_pos_right _ hrestpos, add_lt_add_right hhalf _⟩
    · have hhalf : (rest : ℚ) / divisor = 1 / 2 := by
        rw [div_eq_div_iff hd.ne' two_ne_zero]
        exact_mod_cast (by omega : rest * 2 = 1 * divisor)
      rw [compare_eq_iff_eq.2 h, hhalf]
      rfl
    · have hhalf : 1 / 2 < (rest : ℚ) / divisor := by
        rw [div_lt_div_iff₀ two_pos hd]
        exact_mod_cast (by omega : 1 * divisor < rest * 2)
      rw [compare_gt_iff_gt.2 h]
      exact ⟨add_lt_add_right hhalf _, add_lt_add_right hlt _⟩

/-- Cutting off one more bit halves what is represented. -/
theorem Represents.shiftRightOne {cut : ExtendedMantissa} {x : ℚ} (h : Represents cut x) :
    Represents cut.shiftRightOne (x / 2) := by
  obtain ⟨mantissa, roundBit, stickyBit⟩ := cut
  have hsplit : (mantissa : ℚ) = 2 * (mantissa / 2 : ℕ) + (mantissa % 2 : ℕ) := by
    exact_mod_cast (Nat.div_add_mod mantissa 2).symm
  have hone : ((1 : ℕ) != 0) = true := rfl
  -- the last bit of the mantissa becomes the first one that is cut, and what was cut before is behind it
  obtain hparity | hparity := Nat.mod_two_eq_zero_or_one mantissa <;> rw [hparity] at hsplit <;>
    cases roundBit <;> cases stickyBit <;>
      simp only [Represents, ExtendedMantissa.shiftRightOne, hparity, hone, bne_self_eq_false, Bool.or_true,
        Bool.or_false, Nat.cast_zero, Nat.cast_one, add_zero] at h hsplit ⊢ <;>
      first | linarith | exact ⟨by linarith, by linarith⟩

/-- Cutting off more bits divides what is represented by a power of two. -/
theorem Represents.shiftRight {cut : ExtendedMantissa} {x : ℚ} (h : Represents cut x) (bits : ℕ) :
    Represents (cut >>> bits) (x / 2 ^ bits) := by
  change Represents (bits.repeat ExtendedMantissa.shiftRightOne cut) _
  induction bits with
  | zero => simpa [Nat.repeat] using h
  | succ bits ih =>
    rw [Nat.repeat, pow_succ, div_mul_eq_div_div]
    exact ih.shiftRightOne

/-- The mantissa is rounded to the whole number nearest to what is represented. -/
theorem Represents.roundedMantissa_eq {cut : ExtendedMantissa} {x : ℚ} (h : Represents cut x) :
    cut.roundedMantissa = roundEven x := by
  have hfloor : ⌊x⌋₊ = cut.mantissa := by
    have hbounds := h.bounds
    have hnonneg : (0 : ℚ) ≤ cut.mantissa := Nat.cast_nonneg _
    rw [Nat.floor_eq_iff (by linarith)]
    exact hbounds
  unfold roundEven
  rw [hfloor]
  obtain ⟨mantissa, roundBit, stickyBit⟩ := cut
  cases roundBit <;> cases stickyBit <;> simp only [Represents] at h
  · rw [if_pos (by linarith)]
    rfl
  · rw [if_pos h.2]
    rfl
  · rw [if_neg (by linarith), if_pos h]
    rfl
  · rw [if_neg (by linarith), if_neg h.1.ne']
    rfl

/-- The exponent that the machine shifts a mantissa to. -/
def targetOf (mantissa : ℕ) (exponent : ℤ) : ℤ := max (mantissa.log2 + exponent - 52) (-1074)

/-- It is the one of the format. -/
theorem targetExponent_eq (mantissa : ℕ) (exponent : ℤ) :
    Format.binary64.targetExponent (totalExponent mantissa exponent) = targetOf mantissa exponent := by
  simp only [Format.targetExponent, totalExponent, Format.mantissaBits, Format.minExponent, targetOf]
  norm_num
  omega

/-- A number whose mantissa was cut off at an exponent that is not too large is measured by the exponent that the
machine shifts to. -/
theorem isExponent_targetOf {mantissa : ℕ} {exponent : ℤ} {x : ℚ} (hlow : (mantissa : ℚ) ≤ x) (hhigh : x < mantissa + 1)
    (hexp : exponent ≤ targetOf mantissa exponent) : IsExponent (x * 2 ^ exponent) (targetOf mantissa exponent) := by
  have hpos : (0 : ℚ) < 2 ^ exponent := by positivity
  refine ⟨le_max_right _ _, ?enough, ?needed⟩
  case enough =>
    have hlog : (mantissa : ℚ) + 1 ≤ 2 ^ (mantissa.log2 + 1) := by exact_mod_cast Nat.lt_log2_self
    calc x * 2 ^ exponent < 2 ^ (mantissa.log2 + 1) * 2 ^ exponent :=
          mul_lt_mul_of_pos_right (hhigh.trans_le hlog) hpos
      _ = 2 ^ ((mantissa.log2 + 1 : ℕ) + exponent) := by rw [zpow_add₀ (by norm_num), zpow_natCast]
      _ ≤ 2 ^ (targetOf mantissa exponent + 53) := by
        refine zpow_le_zpow_right₀ (by norm_num) ?_
        unfold targetOf
        omega
  case needed =>
    by_cases hleast : targetOf mantissa exponent = -1074
    · exact .inl hleast
    · right
      have htarget : targetOf mantissa exponent + 52 = (mantissa.log2 : ℕ) + exponent := by
        unfold targetOf at hleast ⊢
        omega
      have hne : mantissa ≠ 0 := by
        rintro rfl
        unfold targetOf at hleast hexp
        simp only [Nat.log2_zero] at hleast hexp
        omega
      have hlog : (2 : ℚ) ^ mantissa.log2 ≤ mantissa := by exact_mod_cast Nat.log2_self_le hne
      rw [htarget, zpow_add₀ (by norm_num), zpow_natCast]
      exact mul_le_mul_of_nonneg_right (hlog.trans hlow) hpos.le

/-- A mantissa that fits is not shifted. -/
theorem shiftToTargetExponent_of_fits {mantissa : ℕ} {exponent : ℤ} (hfits : mantissa < 2 * 0x10000000000000)
    (hexp : -1074 ≤ exponent) :
    shiftToTargetExponent Format.binary64 mantissa exponent .exact = (⟨mantissa, false, false⟩, exponent) := by
  have hlog : mantissa.log2 ≤ 52 := by
    by_cases hzero : mantissa = 0
    · simp [hzero]
    · have := (Nat.log2_lt (k := 53) hzero).2 (by omega)
      omega
  have htarget : (targetOf mantissa exponent - exponent).toNat = 0 := by
    unfold targetOf
    omega
  rw [shiftToTargetExponent, targetExponent_eq, shiftToExponent, htarget]
  simp only [Nat.cast_zero, add_zero]
  rfl

/-- A mantissa that is rounded up to one bit more is shifted by this bit. -/
theorem shiftToTargetExponent_of_carry {exponent : ℤ} (hexp : -1074 ≤ exponent) :
    shiftToTargetExponent Format.binary64 (2 * 0x10000000000000) exponent .exact =
      (⟨0x10000000000000, false, false⟩, exponent + 1) := by
  have hlog : (2 * 0x10000000000000 : ℕ).log2 = 53 := Nat.log2_two_pow (n := 53)
  have htarget : (targetOf (2 * 0x10000000000000) exponent - exponent).toNat = 1 := by
    unfold targetOf
    omega
  rw [shiftToTargetExponent, targetExponent_eq, shiftToExponent, htarget]
  rfl

/-- The mantissa that an accuracy comes with is kept. -/
theorem mantissa_ofMantissaAndAccuracy (mantissa : ℕ) (accuracy : Accuracy) :
    (ExtendedMantissa.ofMantissaAndAccuracy mantissa accuracy).mantissa = mantissa := by
  cases accuracy with
  | exact => rfl
  | inexact order => cases order <;> rfl

/-- What the machine rounds a represented number to: the nearest whole number of units of its exponent. -/
theorem roundWithAccuracy_eq {mantissa : ℕ} {exponent : ℤ} {accuracy : Accuracy} {x : ℚ}
    (hrep : Represents (.ofMantissaAndAccuracy mantissa accuracy) x) (hexp : exponent ≤ targetOf mantissa exponent)
    (sign : Sign) {target : ℤ} {units : ℕ} (htarget : target = exponentOf (x * 2 ^ exponent))
    (hunits : units = roundEven (x * 2 ^ exponent / 2 ^ target)) :
    roundWithAccuracy Format.binary64 sign mantissa exponent accuracy =
      if h : units = 0 then .zero sign
      else if units < 2 * 0x10000000000000 then .finite sign units target (Nat.pos_of_ne_zero h)
      else .finite sign 0x10000000000000 (target + 1) (by decide) := by
  have hbounds := hrep.bounds
  rw [mantissa_ofMantissaAndAccuracy] at hbounds
  have hisexp := isExponent_targetOf hbounds.1 hbounds.2 hexp
  have htarget : target = targetOf mantissa exponent := htarget.trans hisexp.eq_exponentOf
  have hlow : -1074 ≤ target := htarget ▸ hisexp.low
  obtain ⟨bits, hbits⟩ := Int.eq_ofNat_of_zero_le (sub_nonneg.2 (htarget ▸ hexp : exponent ≤ target))
  have hscaled : x * 2 ^ exponent / 2 ^ target = x / 2 ^ bits := by
    have hsum : target = exponent + bits := by omega
    rw [hsum, zpow_add₀ (by norm_num), zpow_natCast, mul_comm, mul_div_mul_left _ _ (by positivity)]
  have hshift : shiftToTargetExponent Format.binary64 mantissa exponent accuracy =
      (ExtendedMantissa.ofMantissaAndAccuracy mantissa accuracy >>> bits, target) := by
    rw [shiftToTargetExponent, targetExponent_eq, ← htarget, shiftToExponent, hbits]
    simp only [Int.toNat_natCast, Prod.mk.injEq, true_and]
    omega
  have hrounded : (ExtendedMantissa.ofMantissaAndAccuracy mantissa accuracy >>> bits).roundedMantissa = units := by
    rw [(hrep.shiftRight bits).roundedMantissa_eq, hunits, hscaled]
  have hmost : units ≤ 2 * 0x10000000000000 := by
    rw [hunits]
    exact (htarget ▸ hisexp : IsExponent _ target).roundEven_le
  rw [roundWithAccuracy, hshift]
  obtain hfits | hcarry := hmost.lt_or_eq
  · simp only [hrounded, shiftToTargetExponent_of_fits hfits hlow, hfits, if_true]
  · subst hcarry
    simp only [hrounded, shiftToTargetExponent_of_carry hlow, lt_irrefl, if_false]
    rfl

/-- The bits of a sign, an exponent field and a mantissa field. -/
theorem toNat_packComponents (sign : Sign) (exponent : BitVec 11) (mantissa : BitVec 52) :
    (packComponents Format.binary64 sign exponent mantissa).toNat =
      (if isNegative sign then Pattern.half else 0) + exponent.toNat * 0x10000000000000 + mantissa.toNat := by
  unfold packComponents
  rw [BitVec.toNat_append, ← Nat.shiftLeft_add_eq_or_of_lt mantissa.isLt, BitVec.toNat_append,
    ← Nat.shiftLeft_add_eq_or_of_lt exponent.isLt]
  have hsign : sign.toBitVec.toNat = if isNegative sign then 1 else 0 := by cases sign <;> rfl
  rw [hsign]
  simp only [Nat.shiftLeft_eq, Pattern.half]
  split <;> omega

/-- A number of the right form is packed as its sign and its magnitude, an infinity if that is too great. -/
theorem toNat_pack_finite (sign : Sign) {mantissa : ℕ} {exponent : ℤ} (pos : 0 < mantissa) (low : -1074 ≤ exponent)
    (high : mantissa < 2 * 0x10000000000000) (hidden : exponent = -1074 ∨ 0x10000000000000 ≤ mantissa) :
    (UnpackedFloat.pack Format.binary64 (.finite sign mantissa exponent pos)).toNat =
      (if isNegative sign then Pattern.half else 0) + min infiniteMagnitude (magnitudeAt exponent mantissa) := by
  have hbiased : (exponent + Format.binary64.exponentBias + (52 : ℕ)).toNat = (exponent + 1075).toNat := by
    have hbias : ((Format.binary64.exponentBias : ℕ) : ℤ) = 1023 := rfl
    omega
  have hbits : Format.binary64.mantissaBits = 53 := rfl
  have hlog : mantissa.log2 + 1 = 53 ↔ 0x10000000000000 ≤ mantissa := by
    have hlow := Nat.le_log2 (k := 52) pos.ne'
    have hhigh := Nat.log2_lt (k := 53) pos.ne'
    omega
  unfold UnpackedFloat.pack
  simp only [hbiased, hbits, hlog]
  split
  · next hinf =>
    have hlarge : infiniteMagnitude ≤ magnitudeAt exponent mantissa := by
      unfold infiniteMagnitude magnitudeAt
      omega
    rw [packedInfinity, toNat_packComponents, min_eq_left hlarge]
    rfl
  · next hinf =>
    have hsmall : magnitudeAt exponent mantissa ≤ infiniteMagnitude := by
      unfold infiniteMagnitude magnitudeAt
      omega
    rw [min_eq_right hsmall]
    unfold magnitudeAt
    split
    · next hnormal =>
      rw [toNat_packComponents, BitVec.toNat_ofNat, BitVec.toNat_ofNat, Nat.mod_eq_of_lt (a := (exponent + 1075).toNat) (by omega)]
      have hfield : mantissa % 2 ^ 52 = mantissa - 0x10000000000000 := by omega
      rw [hfield]
      omega
    · next hsubnormal =>
      have hleast : exponent = -1074 := hidden.resolve_right hsubnormal
      rw [toNat_packComponents, BitVec.toNat_ofNat, BitVec.toNat_ofNat, hleast]
      omega

/-- The place of a double that is a number in the order of all numbers: its magnitude with its sign. The two zeros
share their place. -/
def rank (x : Float) : ℤ := (Pattern.ofFloat x).signedMagnitude

/-- Whether a double is a number or an infinity, and stands at a place. -/
def StandsAt (x : Float) (place : ℤ) : Prop := x.isNaN = false ∧ rank x = place

/-- A pattern whose bits are a sign bit and a magnitude has this sign and this magnitude. -/
theorem Pattern.fields_of_toNat {p : Pattern} {negative : Bool} {magnitude : ℕ}
    (h : p.bits.toNat = (if negative then Pattern.half else 0) + magnitude) (hmost : magnitude ≤ infiniteMagnitude) :
    p.negative = negative ∧ p.magnitude = magnitude := by
  unfold infiniteMagnitude at hmost
  unfold Pattern.negative Pattern.magnitude
  rw [h]
  cases negative <;> simp [Pattern.half] <;> omega

/-- What is packed as a sign and a magnitude stands where these say. -/
theorem standsAt_of_toNat_pack {form : UnpackedFloat} {negative : Bool} {magnitude : ℕ}
    (h : (UnpackedFloat.pack Format.binary64 form).toNat = (if negative then Pattern.half else 0) + magnitude)
    (hmagnitude : magnitude ≤ infiniteMagnitude) :
    StandsAt (.ofModel (.pack form)) (signed negative magnitude) := by
  obtain ⟨hneg, hmag⟩ := Pattern.fields_of_toNat (p := .ofFloat (.ofModel (.pack form))) h hmagnitude
  refine ⟨?_, ?_⟩
  · rw [← isNaN_ofFloat, Pattern.isNaN, hmag]
    simpa [infiniteMagnitude] using hmagnitude
  · rw [rank, Pattern.signedMagnitude, hneg, hmag]

/-- What the machine rounds a represented number to stands at the magnitude nearest to the number. -/
theorem standsAt_roundWithAccuracy {mantissa : ℕ} {exponent : ℤ} {accuracy : Accuracy} {x : ℚ}
    (hrep : Represents (.ofMantissaAndAccuracy mantissa accuracy) x) (hexp : exponent ≤ targetOf mantissa exponent)
    (sign : Sign) :
    StandsAt (.ofModel (.pack (roundWithAccuracy Format.binary64 sign mantissa exponent accuracy)))
      (signed (isNegative sign) (nearestMagnitude (x * 2 ^ exponent))) := by
  have hisexp := isExponent_exponentOf (x * 2 ^ exponent)
  have hlow := hisexp.low
  have hmost := hisexp.roundEven_le
  have hleast := hisexp.le_roundEven
  have hbelow : nearestMagnitude (x * 2 ^ exponent) ≤ infiniteMagnitude := min_le_left _ _
  refine standsAt_of_toNat_pack ?_ hbelow
  rw [roundWithAccuracy_eq hrep hexp sign rfl rfl, nearestMagnitude]
  generalize exponentOf (x * 2 ^ exponent) = target at hlow hmost hleast
  generalize roundEven (x * 2 ^ exponent / 2 ^ target) = units at hmost hleast
  split
  · next hzero =>
    have htarget : target = -1074 := by
      by_contra hne
      have := hleast hne
      omega
    subst hzero htarget
    cases sign <;> rfl
  · split
    · next hpos hfits => exact toNat_pack_finite sign _ hlow hfits (or_iff_not_imp_left.2 hleast)
    · next hcarry =>
      have hunits : units = 2 * 0x10000000000000 := by omega
      rw [hunits, magnitudeAt_carry hlow]
      exact toNat_pack_finite sign _ (by omega) (by omega) (.inr le_rfl)

end FlightPlanner.Binary64
