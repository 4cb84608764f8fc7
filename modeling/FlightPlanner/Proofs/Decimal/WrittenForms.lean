import FlightPlanner.Proofs.Binary64.Views
import FlightPlanner.Proofs.Decimal.Digits
import FlightPlanner.Proofs.Decimal.ReadBack

/-!
# Written forms of doubles without a minus sign

A whole number that is not too great is written as its digits: no decimal with fewer digits reads back as its double,
because doubles of this size are less than one apart. With a fixed number of places what is written is the exact value
in units of the last place, rounded once.
-/

namespace FlightPlanner.Decimal

open Binary64

variable {x : Float}

/-- Zeros behind the digits of a number make its digits times a power of ten. -/
theorem toDigits_mul_pow {n : ℕ} (hpos : 0 < n) (count : ℕ) :
    Nat.toDigits 10 (n * 10 ^ count) = Nat.toDigits 10 n ++ List.replicate count '0' := by
  induction count with
  | zero => simp
  | succ count ih =>
    have hmore : 0 < n * 10 ^ count := by positivity
    have hzero : Nat.toDigits 10 0 = ['0'] := rfl
    have hstep := Nat.toDigits_append_toDigits (b := 10) (d := 0) (by decide) hmore (by decide)
    rw [hzero, Nat.add_zero, ih] at hstep
    have hpower : n * 10 ^ (count + 1) = 10 * (n * 10 ^ count) := by ring
    rw [hpower, ← hstep, List.append_assoc, ← List.replicate_succ']

/-- A whole number that is not too great needs no units that are greater than one. -/
theorem exponent_le_of_natCast {mantissa n : ℕ} {exponent : ℤ}
    (hhidden : exponent = -1074 ∨ 0x10000000000000 ≤ mantissa) (hvalue : (mantissa : ℚ) * 2 ^ exponent = n)
    (hn : n ≤ 9 * 10 ^ 15) : exponent ≤ 0 := by
  by_contra hpos
  have hlong : (0x10000000000000 : ℚ) ≤ mantissa := by exact_mod_cast hhidden.resolve_left (by omega)
  have htwo : (2 : ℚ) ^ (1 : ℤ) ≤ 2 ^ exponent := zpow_le_zpow_right₀ one_le_two (by omega)
  have hproduct : (0x10000000000000 : ℚ) * 2 ^ (1 : ℤ) ≤ mantissa * 2 ^ exponent :=
    mul_le_mul hlong htwo (by positivity) (Nat.cast_nonneg _)
  rw [hvalue, zpow_one] at hproduct
  have hmore : 0x10000000000000 * 2 ≤ n := by exact_mod_cast hproduct
  omega

/-- The fewest digits that read back as a whole number that is not too great are its digits, but for zeros at the
end. -/
theorem shortest_natCast (tie : Tie) {mantissa n : ℕ} {exponent : ℤ} (hpos : 0 < mantissa)
    (hbits : mantissa < 0x20000000000000) (hlow : -1074 ≤ exponent)
    (hhidden : exponent = -1074 ∨ 0x10000000000000 ≤ mantissa) (hvalue : (mantissa : ℚ) * 2 ^ exponent = n)
    (hn : n ≤ 9 * 10 ^ 15) :
    let found := shortest tie mantissa exponent
    0 ≤ found.exponent ∧ found.digits * 10 ^ found.exponent.toNat = n := by
  intro found
  have hunits := exponent_le_of_natCast hhidden hvalue hn
  have hunit : (0 : ℚ) < 2 ^ exponent := by positivity
  have hnpos : 0 < n := by
    have hcast : (0 : ℚ) < n := hvalue ▸ mul_pos (by exact_mod_cast hpos) hunit
    exact_mod_cast hcast
  have hcovers : (Interval.around mantissa exponent).Covers (n * 10 ^ (0 : ℤ)) := by
    have hplace : ((Interval.around mantissa exponent).middle : ℚ) * 2 ^ (Interval.around mantissa exponent).exponent =
        n * 10 ^ (0 : ℤ) := by
      rw [zpow_zero, mul_one, ← hvalue, four_quarters exponent, Interval.around]
      push_cast
      ring
    rw [← hplace]
    exact Interval.covers_middle hpos
  have hgrid : 0 ≤ found.exponent :=
    le_exponent_of_covers tie hpos hbits hlow (by omega) hnpos hn hcovers
  refine ⟨hgrid, ?_⟩
  have hnear := (covers_shortest tie hpos hbits hlow (by omega)).near hpos
  have hwhole : (found.digits : ℚ) * 10 ^ found.exponent = (found.digits * 10 ^ found.exponent.toNat : ℕ) := by
    obtain ⟨power, hpower⟩ := Int.eq_ofNat_of_zero_le hgrid
    rw [hpower, Int.toNat_natCast, zpow_natCast]
    push_cast
    rfl
  have hone : (2 : ℚ) ^ exponent ≤ 1 := zpow_le_one_of_nonpos₀ one_le_two hunits
  rw [hwhole, sub_mul, add_mul, hvalue] at hnear
  -- two whole numbers that are at most half of one apart
  have hfrom : n ≤ found.digits * 10 ^ found.exponent.toNat := by
    have hlt : (n : ℚ) < (found.digits * 10 ^ found.exponent.toNat : ℕ) + 1 := by linarith [hnear.1]
    exact Nat.lt_succ_iff.mp (by exact_mod_cast hlt)
  have hto : found.digits * 10 ^ found.exponent.toNat ≤ n := by
    have hlt : ((found.digits * 10 ^ found.exponent.toNat : ℕ) : ℚ) < n + 1 := by linarith [hnear.2]
    exact Nat.lt_succ_iff.mp (by exact_mod_cast hlt)
  exact le_antisymm hto hfrom

/-- A whole number that is not too great is written in its digits. -/
theorem write_plain {n : ℕ} (h : Unsigned x) (hvalue : valueOf x = n) (hn : n ≤ 9 * 10 ^ 15) :
    Layout.plain.write x = toString n := by
  obtain ⟨mantissa, exponent, hview⟩ := h
  obtain ⟨hunits, hbits, hlow⟩ := valueOf_of_view hview
  rw [hunits] at hvalue
  simp only [Layout.write, hview]
  split
  · next hzero =>
    rw [hzero, Nat.cast_zero, zero_mul] at hvalue
    obtain rfl : n = 0 := by exact_mod_cast hvalue.symm
    rfl
  · next hne =>
    have hpos := Nat.pos_of_ne_zero hne
    obtain ⟨hgrid, hdigits⟩ := shortest_natCast .up hpos hbits hlow (view_rank hview hne).1 hvalue hn
    have hfound : 0 < (shortest .up mantissa exponent).digits :=
      (shortest_bounds .up hpos hbits hlow
        ((exponent_le_of_natCast (view_rank hview hne).1 hvalue hn).trans (by norm_num))).2.1
    apply String.toList_injective
    rw [toList_toString, ← hdigits, toDigits_mul_pow hfound]
    simp [minus, Layout.plain, Layout.writeOut, hgrid, zeros]

/-- A quotient of natural numbers is rounded as the rational number that it is. -/
theorem roundHalfEven_eq (dividend : ℕ) {divisor : ℕ} (hpos : 0 < divisor) :
    roundHalfEven dividend divisor = roundEven (dividend / divisor) := by
  have hdivisor : (0 : ℚ) < divisor := by exact_mod_cast hpos
  have hsplit : (dividend : ℚ) = divisor * (dividend / divisor : ℕ) + (dividend % divisor : ℕ) := by
    exact_mod_cast (Nat.div_add_mod dividend divisor).symm
  have hquotient : (dividend : ℚ) / divisor = (dividend / divisor : ℕ) + (dividend % divisor : ℕ) / divisor := by
    rw [div_eq_iff hdivisor.ne', add_mul, div_mul_cancel₀ _ hdivisor.ne']
    linarith
  unfold roundEven roundHalfEven
  rw [Nat.floor_div_eq_div, hquotient]
  generalize dividend / divisor = quotient
  generalize dividend % divisor = rest
  simp only [add_lt_add_iff_left, add_right_inj]
  rcases lt_trichotomy (2 * rest) divisor with hless | heq | hmore
  · have hhalf : (rest : ℚ) / divisor < 1 / 2 := by
      have hcast : (2 * rest : ℚ) < divisor := by exact_mod_cast hless
      rw [div_lt_iff₀ hdivisor]
      linarith
    rw [compare_lt_iff_lt.2 hless, if_pos hhalf]
  · have hhalf : (rest : ℚ) / divisor = 1 / 2 := by
      have hcast : (2 * rest : ℚ) = divisor := by exact_mod_cast heq
      rw [div_eq_iff hdivisor.ne']
      linarith
    rw [compare_eq_iff_eq.2 heq, if_neg hhalf.not_lt, if_pos hhalf]
  · have hhalf : 1 / 2 < (rest : ℚ) / divisor := by
      have hcast : (divisor : ℚ) < 2 * rest := by exact_mod_cast hmore
      rw [lt_div_iff₀ hdivisor]
      linarith
    rw [compare_gt_iff_gt.2 hmore, if_neg hhalf.not_gt, if_neg hhalf.ne']

/-- With a fixed number of places the exact value is rounded once. -/
theorem fixed_eq (places : ℕ) (h : Unsigned x) :
    fixed places x = writeUnits places (roundEven (valueOf x * 10 ^ places)) := by
  obtain ⟨mantissa, exponent, hview⟩ := h
  have hpower : (0 : ℕ) < Nat.pow 2 (-exponent).toNat := Nat.pow_pos (by decide)
  simp only [fixed, hview, minus, unitsOf]
  rw [roundHalfEven_eq _ hpower, (valueOf_of_view hview).1, zpow_eq_div two_ne_zero exponent]
  simp only [Nat.pow_eq, Nat.cast_mul, Nat.cast_pow, Nat.cast_ofNat]
  rw [mul_div_assoc', div_mul_eq_mul_div]
  rfl

end FlightPlanner.Decimal
