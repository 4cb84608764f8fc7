import FlightPlanner.Proofs.Binary64.Intervals
import FlightPlanner.Proofs.Binary64.Signs

/-!
# Square roots between zero and one

The machine takes a root by scaling the mantissa until its whole root has the bits of a double, and keeps how the rest
compares with this root. A number of at most one is scaled to at most the square of a power of two, so that its root is
at most this power, and is exact where it reaches it. So rounding does not lead beyond one either.
-/

namespace FlightPlanner.Binary64

open Float.Model Float.Model.UnpackedFloat

variable {x : Float} {m scaled : ℕ} {e target : ℤ}

/-- The exponent over which the machine takes a root. -/
def rootExponent (m : ℕ) (e : ℤ) : ℤ := min (e / 2) (max ((m.log2 + e + 2) / 2 - 53) (-1074))

/-- What is known of the part of a root behind its whole part. -/
def rootAccuracy (scaled : ℕ) : Accuracy :=
  if scaled - scaled.sqrt * scaled.sqrt = 0 then .exact
  else .inexact (if scaled - scaled.sqrt * scaled.sqrt ≤ scaled.sqrt then .lt else .gt)

/-- The machine's root of a number: the whole root of a scaled mantissa, and what it leaves. -/
theorem sqrtCore_eq (htarget : target = rootExponent m e) (hscaled : scaled = m <<< (e - 2 * target).toNat) :
    sqrtCore Format.binary64 m e = (scaled.sqrt, target, rootAccuracy scaled) := by
  have hexp : min (e.ediv 2) (Format.binary64.targetExponent ((totalExponent m e + 1).ediv 2)) = target := by
    simp only [Format.targetExponent, totalExponent, Format.mantissaBits, Format.minExponent]
    rw [htarget, rootExponent]
    change min (e / 2) (max ((m.log2 + 1 + e + 1) / 2 - _) _) = _
    norm_num
    omega
  unfold sqrtCore
  simp only [hexp, ← hscaled]
  rfl

/-- Some number agrees with what is kept of a root, and where this says that the root is exact it is the root. -/
theorem exists_represents (mantissa : ℕ) (accuracy : Accuracy) :
    ∃ q : ℚ, Represents (.ofMantissaAndAccuracy mantissa accuracy) q ∧ (accuracy = .exact → q = mantissa) := by
  cases accuracy with
  | exact => exact ⟨mantissa, represents_exact mantissa, fun _ => rfl⟩
  | inexact half =>
    have hcut : ∀ {q : ℚ}, Accuracy.inexact half = .exact → q = mantissa := by
      intro q h
      contradiction
    cases half with
    | lt =>
      refine ⟨mantissa + 1 / 4, ?_, hcut⟩
      simp only [Represents, ExtendedMantissa.ofMantissaAndAccuracy]
      constructor <;> linarith
    | eq => exact ⟨mantissa + 1 / 2, rfl, hcut⟩
    | gt =>
      refine ⟨mantissa + 3 / 4, ?_, hcut⟩
      simp only [Represents, ExtendedMantissa.ofMantissaAndAccuracy]
      constructor <;> linarith

section Scaled

variable (htarget : target = rootExponent m e) (hscaled : scaled = m <<< (e - 2 * target).toNat)

include htarget hscaled

/-- The scaled mantissa denotes the number itself over twice the exponent of its root. -/
theorem scaled_value : (scaled : ℚ) * (2 ^ target * 2 ^ target) = m * 2 ^ e := by
  obtain ⟨bits, hbits⟩ := Int.eq_ofNat_of_zero_le (show 0 ≤ e - 2 * target by unfold rootExponent at htarget; omega)
  have he : e = bits + (target + target) := by omega
  rw [hscaled, hbits, Int.toNat_natCast, Nat.shiftLeft_eq, he, zpow_add₀ (by norm_num), zpow_add₀ (by norm_num),
    zpow_natCast]
  push_cast
  ring

/-- The whole root has as many bits as a double has, or stands over the least exponent. -/
theorem rootExponent_le_targetOf (hm : 0 < m) : target ≤ targetOf scaled.sqrt target := by
  unfold targetOf
  by_cases hleast : target ≤ -1074
  · omega
  · have hbits : 104 ≤ m.log2 + (e - 2 * target).toNat := by
      unfold rootExponent at htarget
      omega
    have hlong : 2 ^ 52 ≤ scaled.sqrt := by
      rw [Nat.le_sqrt', hscaled, Nat.shiftLeft_eq]
      calc (2 ^ 52) ^ 2 = 2 ^ 104 := by norm_num
        _ ≤ 2 ^ (m.log2 + (e - 2 * target).toNat) := Nat.pow_le_pow_right (by decide) hbits
        _ = 2 ^ m.log2 * 2 ^ (e - 2 * target).toNat := Nat.pow_add ..
        _ ≤ m * 2 ^ (e - 2 * target).toNat := Nat.mul_le_mul_right _ (Nat.log2_self_le hm.ne')
    have hlog := (Nat.le_log2 (by omega)).2 hlong
    omega

end Scaled

/-- What agrees with the root of a number of at most one is at most one. -/
theorem root_le_one {q : ℚ} (hq : Represents (.ofMantissaAndAccuracy scaled.sqrt (rootAccuracy scaled)) q)
    (hexact : rootAccuracy scaled = .exact → q = scaled.sqrt) (hpos : 0 < scaled)
    (hone : (scaled : ℚ) * (2 ^ target * 2 ^ target) ≤ 1) : q * 2 ^ target ≤ 1 := by
  have hnonpos : target ≤ 0 := by
    by_contra hover
    have htwo : (2 : ℚ) ^ (1 : ℤ) ≤ 2 ^ target := zpow_le_zpow_right₀ one_le_two (by omega)
    have hsome : (1 : ℚ) ≤ scaled := by exact_mod_cast hpos
    rw [zpow_one] at htwo
    nlinarith
  obtain ⟨bits, hbits⟩ := Int.eq_ofNat_of_zero_le (neg_nonneg.mpr hnonpos)
  have hunit : (2 : ℚ) ^ target = (2 ^ bits)⁻¹ := by
    have htarget : target = -(bits : ℤ) := by omega
    rw [htarget, zpow_neg, zpow_natCast]
  have hpower : (0 : ℚ) < 2 ^ bits := by positivity
  have hmost : scaled ≤ 2 ^ bits * 2 ^ bits := by
    rw [hunit, ← mul_inv, ← div_eq_mul_inv, div_le_one (by positivity)] at hone
    exact_mod_cast hone
  have hroot : scaled.sqrt ≤ 2 ^ bits := (Nat.sqrt_le_sqrt hmost).trans_eq (Nat.sqrt_eq _)
  rw [hunit, ← div_eq_mul_inv, div_le_one hpower]
  obtain hless | hend := hroot.lt_or_eq
  · have hbounds := hq.bounds.2
    rw [mantissa_ofMantissaAndAccuracy] at hbounds
    have hnext : ((scaled.sqrt + 1 : ℕ) : ℚ) ≤ (2 ^ bits : ℕ) := by exact_mod_cast hless
    push_cast at hnext
    linarith
  · -- the power of two is reached by its square only
    have hsquare : scaled - scaled.sqrt * scaled.sqrt = 0 := by
      rw [hend]
      omega
    rw [hexact (by rw [rootAccuracy, if_pos hsquare]), hend]
    push_cast
    exact le_rfl

/-- What is not a number has no square root. -/
theorem isNaN_sqrt (h : x.isNaN = true) : x.sqrt.isNaN = true := by
  have hroot : x.sqrt = .ofModel (.pack .notANumber) := by
    change Float.ofModel (.pack (UnpackedFloat.sqrt Format.binary64 x.toModel.unpack)) = _
    rw [unpack_of_isNaN h]
    rfl
  rw [hroot]
  decide

/-- The square root of a double from zero to one without a minus sign is such a double. -/
theorem sqrt_mem (h : Unsigned x) (hone : x ≤ 1) : Unsigned x.sqrt ∧ x.sqrt ≤ 1 := by
  rw [le_iff_valueOf h.isFinite (by decide), valueOf_one] at hone
  obtain hzero | hpos := h.valueOf_nonneg.eq_or_lt
  · rw [h.eq_zero hzero.symm]
    have hroot : Float.sqrt 0 = 0 := by decide
    rw [hroot]
    exact ⟨unsigned_zero, by decide⟩
  · obtain ⟨m, e, hm, hform⟩ := (isForm_unpack h.isFinite).sign_of_pos hpos
    obtain ⟨target, htarget⟩ : ∃ target, target = rootExponent m e := ⟨_, rfl⟩
    obtain ⟨scaled, hscaled⟩ : ∃ scaled, scaled = m <<< (e - 2 * target).toNat := ⟨_, rfl⟩
    obtain ⟨q, hq, hexact⟩ := exists_represents scaled.sqrt (rootAccuracy scaled)
    have hsqrt : x.sqrt = .ofModel (.pack (roundWithAccuracy Format.binary64 .positive scaled.sqrt target
        (rootAccuracy scaled))) := by
      change Float.ofModel (.pack (UnpackedFloat.sqrt Format.binary64 x.toModel.unpack)) = _
      rw [hform]
      simp only [UnpackedFloat.sqrt, sqrtCore_eq htarget hscaled]
    have hnonneg : 0 ≤ q * 2 ^ target := by
      have hbounds := hq.bounds.1
      have hmantissa : (0 : ℚ) ≤ scaled.sqrt := Nat.cast_nonneg _
      rw [mantissa_ofMantissaAndAccuracy] at hbounds
      exact mul_nonneg (hmantissa.trans hbounds) (by positivity)
    have hmost : q * 2 ^ target ≤ 1 := by
      refine root_le_one hq hexact ?_ ?_
      · rw [hscaled, Nat.shiftLeft_eq]
        positivity
      · rw [scaled_value htarget hscaled, ← exactOf_positive e hm, ← hform]
        exact hone
    have hstands : StandsAt x.sqrt (nearestPlace (q * 2 ^ target)) := by
      rw [hsqrt, nearestPlace, if_neg (not_lt.mpr hnonneg)]
      exact standsAt_roundWithAccuracy hq (rootExponent_le_targetOf htarget hscaled hm) .positive
    have hfinite : x.sqrt.isFinite = true := by
      refine isFinite_of_standsAt hstands (lt_overflow ?_)
      rw [abs_of_nonneg hnonneg]
      linarith
    refine ⟨?_, le_of_standsAt hstands (standsAt_valueOf (by decide)) (by rwa [valueOf_one])⟩
    rw [hsqrt] at hfinite ⊢
    exact unsigned_of_formSign hfinite (formSign_roundWithAccuracy _ _ _ _)

end FlightPlanner.Binary64
