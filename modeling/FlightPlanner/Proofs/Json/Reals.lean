import FlightPlanner.Json.Format
import FlightPlanner.Proofs.Binary64.Finite
import FlightPlanner.Proofs.Decimal.Shortest
import FlightPlanner.Proofs.Json.Numbers

/-!
# Doubles in documents are finite

No number in a document is read as an infinity or as none: leading digits are finite, a power of ten that a double is
divided by only makes it smaller, and one that it is multiplied by is refused where the product is infinite. The
reading is not exact, but it is never off so far that the written form of a finite double would be refused.
-/

namespace FlightPlanner.Json

open Binary64 Decimal

variable {x y : Float}

/-- A natural number that sixty-four bits hold is finite as a double. -/
theorem isFinite_ofNat {n : ℕ} (h : n ≤ greatestSignificand) : (ofNat n).isFinite = true := by
  refine isFinite_nearest false (lt_overflow ?_)
  have hbits : n < 2 ^ 64 := Nat.lt_of_le_of_lt h (by decide)
  rw [zpow_zero, mul_one]
  exact_mod_cast hbits

/-- A whole number that eight bytes hold is finite as a double. -/
theorem isFinite_realOfInt {n : ℤ} (hlow : -0x8000000000000000 ≤ n) (hhigh : n ≤ 0xFFFFFFFFFFFFFFFF) :
    (realOfInt n).isFinite = true := by
  refine isFinite_nearest _ (lt_overflow ?_)
  have hbits : n.natAbs < 2 ^ 64 := by omega
  rw [zpow_zero, mul_one]
  exact_mod_cast hbits

/-- A power of ten stands nearest to its value. -/
theorem standsAt_powerOfTen {n : ℕ} (h : n ≤ 2048) : StandsAt (powerOfTen n) (nearestPlace (10 ^ n)) := by
  have hstands := standsAt_ofDecimal (by decide : 0 < 1) h
  rwa [Nat.cast_one, one_mul] at hstands

/-- Powers of ten grow with the exponent. -/
theorem within_powerOfTen {m n : ℕ} (h : n ≤ m) (hm : m ≤ 2048) : Within (powerOfTen m) (powerOfTen n) :=
  within_of_standsAt (standsAt_powerOfTen (h.trans hm)) (standsAt_powerOfTen hm) (by positivity)
    (pow_le_pow_right₀ (by norm_num) h)

/-- The powers of ten up to the greatest one are finite, and none is below one. -/
theorem isFinite_powerOfTen {n : ℕ} (h : n ≤ 308) : (powerOfTen n).isFinite = true ∧ 1 ≤ valueOf (powerOfTen n) := by
  have hstands := standsAt_powerOfTen (h.trans (by decide))
  have hgreatest : (powerOfTen 308).isFinite = true := by decide +kernel
  have hfinite : (powerOfTen n).isFinite = true := by
    obtain hnan | ⟨hfinite, -, -⟩ := (within_powerOfTen h (by decide)).cases hgreatest
    · exact absurd hnan (Bool.eq_false_iff.1 hstands.1)
    · exact hfinite
  refine ⟨hfinite, ?_⟩
  rw [← valueOf_one]
  refine le_valueOf_of_standsAt hfinite (by decide) hstands ?_
  rw [valueOf_one]
  exact one_le_pow₀ (by norm_num)

/-- Division by powers of ten keeps a double finite. -/
theorem isFinite_scaleDown (power : ℕ) (h : x.isFinite = true) : (scaleDown x power).isFinite = true := by
  induction x, power using scaleDown.induct with
  | case1 x power hpower =>
    obtain ⟨hfinite, hone⟩ := isFinite_powerOfTen hpower
    rw [scaleDown, if_pos hpower]
    exact isFinite_div h hfinite hone
  | case2 x power hpower hzero =>
    rw [scaleDown, if_neg hpower, if_pos hzero]
    exact h
  | case3 x power hpower hzero ih =>
    obtain ⟨hfinite, hone⟩ := isFinite_powerOfTen (n := 308) le_rfl
    rw [scaleDown, if_neg hpower, if_neg hzero]
    exact ih (isFinite_div h hfinite hone)

/-- Multiplication by a power of ten is refused unless the product is finite. -/
theorem isFinite_of_scaleUp? {power : ℕ} (h : x.isFinite = true) (hy : scaleUp? x power = some y) :
    y.isFinite = true := by
  unfold scaleUp? at hy
  split at hy
  · next hpower =>
    simp only at hy
    split at hy
    · contradiction
    · next hinf =>
      obtain rfl := Option.some.inj hy
      have hnan := (standsAt_mul h (isFinite_powerOfTen hpower).1).1
      exact (isFinite_iff _).2 ⟨hnan, Bool.eq_false_of_not_eq_true hinf⟩
  · split at hy
    · obtain rfl := Option.some.inj hy
      exact h
    · contradiction

/-- Digits are appended only as long as eight bytes hold the result. -/
theorem absorb_le (significand : ℕ) (digits : List Char) (h : significand ≤ greatestSignificand) :
    (absorb significand digits).1 ≤ greatestSignificand := by
  induction digits generalizing significand with
  | nil => exact h
  | cons c digits ih =>
    simp only [absorb]
    split
    · next hfits => exact ih _ hfits
    · exact h

/-- A number in a document that is no whole number is a finite double. -/
theorem isFinite_of_real? {n : Literal} (h : n.real? = some x) : x.isFinite = true := by
  unfold Literal.real? at h
  simp only [Option.map_eq_some_iff] at h
  obtain ⟨y, hy, rfl⟩ := h
  refine isFinite_signed _ ?_
  have hdigits := isFinite_ofNat (absorb_le _ (n.fraction.getD []) (absorb_le 0 n.whole (Nat.zero_le _)))
  unfold scaled? at hy
  simp only at hy
  split at hy
  · exact isFinite_of_scaleUp? hdigits hy
  · obtain rfl := Option.some.inj hy
    exact isFinite_scaleDown _ hdigits

/-- Every number in a document that denotes a double denotes a finite one. -/
theorem Literal.isFinite_of_value {n : Literal} (h : n.value = .ok (.real x)) : x.isFinite = true := by
  unfold Literal.value at h
  simp only at h
  split at h
  · simp at h
  · split at h
    · simp at h
    · split at h
      · next hreal =>
        obtain rfl := Number.real.inj (Except.ok.inj h)
        exact isFinite_of_real? hreal
      · contradiction

/-- Every number in a document that is a whole one is held by eight bytes. -/
theorem Literal.bounds_of_value {n : Literal} {value : ℤ} (h : n.value = .ok (.whole value)) :
    -0x8000000000000000 ≤ value ∧ value ≤ 0xFFFFFFFFFFFFFFFF := by
  unfold Literal.value at h
  simp only at h
  split at h
  · next hwhole =>
    obtain rfl := Number.whole.inj (Except.ok.inj h)
    simp at hwhole
    unfold greatestSignificand at hwhole
    omega
  · split at h
    · next hwhole =>
      obtain rfl := Number.whole.inj (Except.ok.inj h)
      simp at hwhole
      omega
    · split at h <;> simp at h

/-- Digits that eight bytes hold are all appended. -/
theorem absorb_eq {significand : ℕ} {digits : List Char}
    (h : Nat.ofDigitChars 10 digits significand ≤ greatestSignificand) :
    absorb significand digits = (Nat.ofDigitChars 10 digits significand, []) := by
  induction digits generalizing significand with
  | nil => rfl
  | cons c digits ih =>
    rw [Nat.ofDigitChars_cons] at h ⊢
    have hle : 10 * significand + (c.toNat - '0'.toNat) ≤
        Nat.ofDigitChars 10 digits (10 * significand + (c.toNat - '0'.toNat)) := by
      rw [Nat.ofDigitChars_eq_ofDigitChars_zero]
      have hpower : 1 ≤ 10 ^ digits.length := Nat.one_le_pow _ _ (by decide)
      exact (Nat.le_mul_of_pos_left _ hpower).trans (Nat.le_add_right _ _)
    simp only [absorb]
    rw [if_pos (hle.trans h)]
    exact ih h

/-- A number whose digits before and after the point eight bytes hold is scaled by the power of its last digit. -/
theorem Literal.real?_eq {n : Literal} {digits : ℕ} {exponent : ℤ}
    (hdigits : ofDigits (n.whole ++ n.fraction.getD []) = digits)
    (hexponent : n.power.getD 0 - (n.fraction.getD []).length = exponent) (h : digits ≤ greatestSignificand) :
    n.real? = (scaled? digits exponent).map (Decimal.signed n.negative) := by
  rw [ofDigits_eq, Nat.ofDigitChars_append] at hdigits
  have hwhole : Nat.ofDigitChars 10 n.whole 0 ≤ greatestSignificand := by
    rw [Nat.ofDigitChars_eq_ofDigitChars_zero] at hdigits
    have hpower : 1 ≤ 10 ^ (n.fraction.getD []).length := Nat.one_le_pow _ _ (by decide)
    have hle := Nat.le_mul_of_pos_left (Nat.ofDigitChars 10 n.whole 0) hpower
    omega
  have hfraction := absorb_eq (hdigits.trans_le h)
  simp only [Literal.real?, absorb_eq hwhole, hfraction, hdigits, ← hexponent]
  congr 2
  simp
  omega

/-- What the fewest digits of a finite double come to at most: those of the greatest one. -/
def greatestWritten : ℕ := 17976931348623157 * 10 ^ 292

/-- The fewest digits of a finite double other than zero: some, not too many, and never more than those of the
greatest double. -/
theorem shortest_le {mantissa : ℕ} {exponent : ℤ} (hpos : 0 < mantissa) (hbits : mantissa < 0x20000000000000)
    (hlow : -1074 ≤ exponent) (hhigh : exponent ≤ 971) :
    let found := shortest .even mantissa exponent
    0 < found.digits ∧ found.digits ≤ 10 * 0x20000000000000 + 10 ∧
      (found.digits : ℚ) * 10 ^ found.exponent ≤ greatestWritten := by
  intro found
  obtain ⟨-, hdigits, hcount, hvalue⟩ := shortest_bounds .even hpos hbits hlow hhigh
  refine ⟨hdigits, hcount, ?_⟩
  by_cases hgreatest : mantissa = 0x1FFFFFFFFFFFFF ∧ exponent = 971
  · have hfound : found = ⟨17976931348623157, 292⟩ := by
      have hshortest : shortest .even 0x1FFFFFFFFFFFFF 971 = ⟨17976931348623157, 292⟩ := by decide +kernel
      rw [← hshortest, ← hgreatest.1, ← hgreatest.2]
    rw [hfound, greatestWritten, Nat.cast_mul, Nat.cast_pow, zpow_ofNat]
    rfl
  · -- half a last place above the second greatest double is still below the digits of the greatest one
    have hsecond : 18014398509481981 * 2 ^ 970 ≤ greatestWritten := by decide +kernel
    have hcast : ((18014398509481981 : ℕ) : ℚ) * (2 : ℚ) ^ 970 ≤ greatestWritten := by
      have hpower : ((2 ^ 970 : ℕ) : ℚ) = (2 : ℚ) ^ 970 := Nat.cast_pow 2 970
      rw [← hpower, ← Nat.cast_mul]
      exact Nat.cast_le.2 hsecond
    have hmantissa : (mantissa : ℚ) ≤ 0x1FFFFFFFFFFFFF := by exact_mod_cast Nat.le_of_lt_succ hbits
    refine hvalue.trans (le_trans ?_ hcast)
    obtain rfl | hlt := hhigh.eq_or_lt
    · have hless : (mantissa : ℚ) ≤ 0x1FFFFFFFFFFFFE := by
        have hless : mantissa ≤ 0x1FFFFFFFFFFFFE := by omega
        exact_mod_cast hless
      rw [zpow_ofNat, pow_succ' 2 970, ← mul_assoc]
      refine mul_le_mul_of_nonneg_right ?_ (by positivity)
      push_cast
      linarith
    · have hpower : (2 : ℚ) ^ exponent ≤ 2 ^ (970 : ℤ) := zpow_le_zpow_right₀ one_le_two (by omega)
      rw [zpow_ofNat] at hpower
      refine mul_le_mul ?_ hpower (by positivity) (by norm_num)
      push_cast
      linarith

/-- The literal of digits and a power of ten has a fraction or an exponent. -/
theorem isNone_dataLiteral (negative : Bool) (found : Digits) :
    ((dataLiteral negative found).fraction.isNone && (dataLiteral negative found).power.isNone) = false := by
  unfold dataLiteral
  simp only
  split
  · simp
  · split
    · rfl
    · split <;> rfl

/-- The digits and the power of ten that a decimal is written with: its own, or those with the zeros up to the point
and the one behind it. -/
inductive WrittenAs (found : Digits) : ℕ → ℤ → Prop
  /-- The digits count as they are. -/
  | same : WrittenAs found found.digits found.exponent
  /-- Zeros are written up to the point and behind it, and count as digits too. -/
  | padded (h : 0 ≤ found.exponent) : WrittenAs found (found.digits * 10 ^ found.exponent.toNat * 10) (-1)

/-- The written digits are as many units as the decimal has. -/
theorem WrittenAs.value_eq {found : Digits} {digits : ℕ} {power : ℤ} (h : WrittenAs found digits power) :
    (digits : ℚ) * 10 ^ power = found.digits * 10 ^ found.exponent := by
  cases h with
  | same => rfl
  | padded hwhole =>
    have hten : ((10 : ℕ) : ℚ) * 10⁻¹ = 1 := by norm_num
    obtain ⟨n, hn⟩ := Int.eq_ofNat_of_zero_le hwhole
    rw [hn, Int.toNat_natCast, zpow_natCast, zpow_neg, zpow_one, Nat.cast_mul, mul_assoc, hten, mul_one]
    push_cast
    rfl

/-- Some digit is written unless the decimal is zero. -/
theorem WrittenAs.pos {found : Digits} {digits : ℕ} {power : ℤ} (h : WrittenAs found digits power)
    (hpos : 0 < found.digits) : 0 < digits := by
  cases h with
  | same => exact hpos
  | padded => positivity

/-- The literal of a decimal is scaled from the digits and by the power that it is written with. -/
theorem real?_dataLiteral (negative : Bool) {found : Digits} (h : found.digits ≤ 10 * 0x20000000000000 + 10) :
    ∃ digits power, digits ≤ greatestSignificand ∧ WrittenAs found digits power ∧
      (dataLiteral negative found).real? = (scaled? digits power).map (Decimal.signed negative) := by
  have hgreatest : 10 * 0x20000000000000 + 10 ≤ greatestSignificand := by decide
  have hdigits := ofDigits_toDigits found.digits
  have hlength : found.digits < 10 ^ (Nat.toDigits 10 found.digits).length :=
    (Nat.length_toDigits_le_iff (by decide) Nat.length_toDigits_pos).1 le_rfl
  have hpos : 0 < (Nat.toDigits 10 found.digits).length := Nat.length_toDigits_pos
  unfold dataLiteral
  generalize Nat.toDigits 10 found.digits = digits at hdigits hlength hpos ⊢
  have hfits := h.trans hgreatest
  simp only
  split
  · have hfraction : (if (digits.drop 1).isEmpty then none else some (digits.drop 1)).getD [] = digits.drop 1 := by
      cases digits.drop 1 <;> rfl
    refine ⟨found.digits, found.exponent, hfits, .same, Literal.real?_eq ?_ ?_ hfits⟩
    · rw [hfraction, List.take_append_drop, hdigits]
    · rw [hfraction, List.length_drop, Option.getD_some]
      omega
  · next hscaled =>
    split
    · next hwhole =>
      -- the digits, the zeros up to the point and the one behind it are not too many
      have hbound : found.digits * 10 ^ found.exponent.toNat * 10 ≤ greatestSignificand := by
        simp at hscaled
        calc found.digits * 10 ^ found.exponent.toNat * 10
            ≤ 10 ^ digits.length * 10 ^ found.exponent.toNat * 10 := by gcongr
          _ = 10 ^ (digits.length + found.exponent.toNat + 1) := by rw [pow_succ, pow_add]
          _ ≤ 10 ^ 17 := Nat.pow_le_pow_right (by decide) (by omega)
          _ ≤ greatestSignificand := by decide
      have hzero : ofDigits ['0'] = 0 := rfl
      refine ⟨_, -1, hbound, .padded hwhole, Literal.real?_eq ?_ rfl hbound⟩
      rw [Option.getD_some, ofDigits_append, ofDigits_append, ofDigits_zeros, hdigits, hzero, List.length_replicate,
        Nat.add_zero, Nat.add_zero, List.length_singleton, pow_one]
    · next hnegative =>
      have hplaces : ((-found.exponent).toNat : ℤ) = -found.exponent := by omega
      split
      · next hshort =>
        refine ⟨found.digits, found.exponent, hfits, .same, Literal.real?_eq ?_ ?_ hfits⟩
        · rw [Option.getD_some, ofDigits_append, ofDigits_append, ofDigits_zeros, hdigits]
          simp [ofDigits]
        · simp
          omega
      · next hlong =>
        refine ⟨found.digits, found.exponent, hfits, .same, Literal.real?_eq ?_ ?_ hfits⟩
        · simpa using hdigits
        · simp
          omega

/-- Digits that come to no more than those of the greatest double are not too many to be scaled up. -/
theorem isSome_scaleUp? {digits power : ℕ} (hpos : 0 < digits) (hcount : digits ≤ 10 * 0x20000000000000 + 10)
    (hvalue : digits * 10 ^ power ≤ greatestWritten) : (scaleUp? (Binary64.ofNat digits) power).isSome = true := by
  have hpower : power < 309 := by
    obtain ⟨n, hn, hsmall⟩ : ∃ n ≤ 309, greatestWritten < 10 ^ n := ⟨309, le_rfl, by decide +kernel⟩
    have hpower : 10 ^ power ≤ greatestWritten := (Nat.le_mul_of_pos_left _ hpos).trans hvalue
    exact ((Nat.pow_lt_pow_iff_right (by decide)).1 (hpower.trans_lt hsmall)).trans_le hn
  -- a bound on the digits and one on the power whose product is finite
  obtain ⟨most, top, hmost, htop, hlarge, hfinite⟩ : ∃ most top, digits ≤ most ∧ power ≤ top ∧
      most ≤ greatestSignificand ∧ top ≤ 308 ∧ (Binary64.ofNat most * powerOfTen top).isFinite = true := by
    by_cases hlow : power ≤ 291
    · exact ⟨10 * 0x20000000000000 + 10, 291, hcount, hlow, by decide, by decide, by decide +kernel⟩
    · have hlast : ∀ n < 17, greatestWritten / 10 ^ (292 + n) ≤ greatestSignificand ∧
          (Binary64.ofNat (greatestWritten / 10 ^ (292 + n)) * powerOfTen (292 + n)).isFinite = true := by
        decide +kernel
      have hn := hlast (power - 292) (by omega)
      rw [show 292 + (power - 292) = power by omega] at hn
      exact ⟨_, power, (Nat.le_div_iff_mul_le (by positivity)).2 hvalue, le_rfl, hn.1, Nat.le_of_lt_succ hpower, hn.2⟩
  have hdigits : Within (Binary64.ofNat most) (Binary64.ofNat digits) :=
    within_of_standsAt (standsAt_ofNat digits) (standsAt_ofNat most) (by positivity) (by exact_mod_cast hmost)
  have hproduct := (hdigits.mul (isFinite_ofNat hlarge) (isFinite_powerOfTen hfinite.1).1
    (within_powerOfTen htop (hfinite.1.trans (by decide)))).cases hfinite.2
  have hinf : (Binary64.ofNat digits * powerOfTen power).isInf = false := by
    obtain hnan | ⟨hproduct, -, -⟩ := hproduct
    · rw [(standsAt_mul (isFinite_ofNat (hmost.trans hlarge))
        (isFinite_powerOfTen (Nat.le_of_lt_succ hpower)).1).1] at hnan
      exact absurd hnan Bool.false_ne_true
    · exact ((isFinite_iff _).1 hproduct).2
  simp [scaleUp?, Nat.le_of_lt_succ hpower, hinf]

/-- The written form of a finite double is read as a double. -/
theorem value_realLiteral (h : x.isFinite = true) : ∃ y, (realLiteral x).value = .ok (.real y) := by
  obtain ⟨negative, mantissa, exponent, hview⟩ := exists_view_of_isFinite h
  simp only [realLiteral, hview]
  split
  · cases negative <;> exact ⟨_, rfl⟩
  · next hne =>
    obtain ⟨hbits, hlow, hhigh⟩ := view_bounds h hview hne
    obtain ⟨hpos, hcount, hvalue⟩ := shortest_le (Nat.pos_of_ne_zero hne) hbits hlow hhigh
    obtain ⟨digits, power, hdigits, hwritten, hreal⟩ := real?_dataLiteral negative hcount
    have hsome : (scaled? digits power).isSome = true := by
      unfold scaled?
      simp only
      split
      · next hup =>
        cases hwritten with
        | padded => omega
        | same =>
          refine isSome_scaleUp? hpos hcount ?_
          have hpower : ((shortest .even mantissa exponent).exponent.toNat : ℤ) =
              (shortest .even mantissa exponent).exponent := Int.toNat_of_nonneg hup
          rw [← hpower, zpow_natCast] at hvalue
          exact_mod_cast hvalue
      · rfl
    obtain ⟨y, hy⟩ := Option.isSome_iff_exists.1 hsome
    refine ⟨Decimal.signed negative y, ?_⟩
    have hpoint := isNone_dataLiteral negative (shortest .even mantissa exponent)
    simp only [Literal.value, hpoint, hreal, hy, Bool.false_and, Bool.false_eq_true, if_false, Option.map_some]

end FlightPlanner.Json
