import FlightPlanner.Binary64.Basic
import FlightPlanner.Proofs.Binary64.Arithmetic

/-!
# Bounds of doubles through arithmetic

Doubles from zero up to a bound add, multiply and divide to doubles from zero up to the sum, product and quotient
of the bounds as these are computed, and taking something away never leads above where it began. What is not a
number is within every bound, as it is for the checks of ranges: a comparison with it fails.
-/

namespace FlightPlanner.Binary64

open Float.Model Float.Model.UnpackedFloat

/-- A double is neither below zero nor above a bound. -/
def Within (high x : Float) : Prop := ¬ x < 0 ∧ ¬ high < x

/-- What is not a number has the form of none. -/
theorem unpack_of_isNaN {x : Float} (h : x.isNaN = true) : x.toModel.unpack = .notANumber :=
  UnpackedFloat.isNaN_iff.1 h

/-- One double is below another one when its form is. -/
theorem lt_iff_compare (x y : Float) : x < y ↔ x.toModel.unpack.compare y.toModel.unpack = some .lt := by
  change decide (x.toModel < y.toModel) = true ↔ _
  rw [decide_eq_true_iff, ← beq_iff_eq]
  rfl

/-- What is not a number is below nothing and above nothing. -/
theorem isNaN_of_lt {x y : Float} (h : x < y) : x.isNaN = false ∧ y.isNaN = false :=
  isNaN_of_compare ((lt_iff_compare x y).1 h)

/-- Numbers and infinities are strictly ordered as their places are. -/
theorem lt_iff_rank {x y : Float} (hx : x.isNaN = false) (hy : y.isNaN = false) : x < y ↔ rank x < rank y := by
  have h := Pattern.toFloat_lt_iff (p := .ofFloat x) (q := .ofFloat y) (by rw [isNaN_ofFloat, hx])
    (by rw [isNaN_ofFloat, hy])
  rwa [Pattern.toFloat_ofFloat, Pattern.toFloat_ofFloat] at h

/-- Doubles that are equal as numbers are numbers or infinities at one place, which the two zeros share. -/
theorem rank_eq_of_beq {x y : Float} (h : (x == y) = true) : x.isNaN = false ∧ y.isNaN = false ∧ rank x = rank y := by
  change (x.toModel.unpack.compare y.toModel.unpack == some .eq) = true at h
  rw [beq_iff_eq] at h
  obtain ⟨hx, hy⟩ := isNaN_of_compare h
  have hcompare := Pattern.compare_toFloat (p := .ofFloat x) (q := .ofFloat y) (by rw [isNaN_ofFloat, hx])
    (by rw [isNaN_ofFloat, hy])
  rw [Pattern.toFloat_ofFloat, Pattern.toFloat_ofFloat, h, Option.some_inj] at hcompare
  exact ⟨hx, hy, compare_eq_iff_eq.mp hcompare.symm⟩

/-- Of two numbers or infinities the first is at most the second where the second is not below it. -/
theorem not_lt_iff_le {x y : Float} (hx : x.isNaN = false) (hy : y.isNaN = false) : ¬ y < x ↔ x ≤ y := by
  rw [lt_iff_rank hy hx, le_iff_rank hx hy, not_lt]

/-- An operation that has no result without a first or a second operand has none for what is not a number. -/
theorem isNaN_of_operand (operation : UnpackedFloat → UnpackedFloat → UnpackedFloat)
    (hleft : ∀ v, operation .notANumber v = .notANumber) (hright : ∀ u, operation u .notANumber = .notANumber)
    {x y : Float} (h : x.isNaN = true ∨ y.isNaN = true) :
    (Float.ofModel (.pack (operation x.toModel.unpack y.toModel.unpack))).isNaN = true := by
  have hnone : operation x.toModel.unpack y.toModel.unpack = .notANumber := by
    rcases h with h | h
    · rw [unpack_of_isNaN h, hleft]
    · rw [unpack_of_isNaN h, hright]
  rw [hnone]
  decide

/-- A sum with what is not a number is none. -/
theorem isNaN_add {x y : Float} (h : x.isNaN = true ∨ y.isNaN = true) : (x + y).isNaN = true :=
  isNaN_of_operand (UnpackedFloat.add Format.binary64) (fun _ => rfl) (fun u => by cases u <;> rfl) h

/-- A difference with what is not a number is none. -/
theorem isNaN_sub {x y : Float} (h : x.isNaN = true ∨ y.isNaN = true) : (x - y).isNaN = true :=
  isNaN_of_operand (UnpackedFloat.sub Format.binary64) (fun _ => rfl) (fun u => by cases u <;> rfl) h

/-- A product with what is not a number is none. -/
theorem isNaN_mul {x y : Float} (h : x.isNaN = true ∨ y.isNaN = true) : (x * y).isNaN = true :=
  isNaN_of_operand (UnpackedFloat.mul Format.binary64) (fun _ => rfl) (fun u => by cases u <;> rfl) h

/-- A quotient with what is not a number is none. -/
theorem isNaN_div {x y : Float} (h : x.isNaN = true ∨ y.isNaN = true) : (x / y).isNaN = true :=
  isNaN_of_operand (UnpackedFloat.div Format.binary64) (fun _ => rfl) (fun u => by cases u <;> rfl) h

/-- Zero stands at zero. -/
theorem standsAt_ofNat_zero : StandsAt 0 0 := ⟨by decide, by decide⟩

/-- What stands nearest to a number from zero upwards is not below zero. -/
theorem not_neg_of_standsAt {x : Float} {q : ℚ} (h : StandsAt x (nearestPlace q)) (hq : 0 ≤ q) : ¬ x < 0 := by
  have hplace := nearestPlace_mono hq
  rw [nearestPlace_zero] at hplace
  rw [lt_iff_rank h.1 standsAt_ofNat_zero.1, h.2, standsAt_ofNat_zero.2]
  omega

/-- What stands nearest to the smaller of two numbers is not above what stands nearest to the greater one. -/
theorem not_lt_of_standsAt {x y : Float} {q r : ℚ} (hx : StandsAt x (nearestPlace q)) (hy : StandsAt y (nearestPlace r))
    (h : q ≤ r) : ¬ y < x := by
  rw [not_lt_iff_le hx.1 hy.1, le_iff_rank hx.1 hy.1, hx.2, hy.2]
  exact nearestPlace_mono h

/-- What is not a number is within every bound. -/
theorem within_of_isNaN (high : Float) {x : Float} (h : x.isNaN = true) : Within high x := by
  constructor
  · intro hlt
    rw [(isNaN_of_lt hlt).1] at h
    contradiction
  · intro hlt
    rw [(isNaN_of_lt hlt).2] at h
    contradiction

/-- What stands nearest to a number between zero and another is within what stands nearest to that. -/
theorem within_of_standsAt {high x : Float} {q r : ℚ} (hx : StandsAt x (nearestPlace q))
    (hhigh : StandsAt high (nearestPlace r)) (hpos : 0 ≤ q) (h : q ≤ r) : Within high x :=
  ⟨not_neg_of_standsAt hx hpos, not_lt_of_standsAt hx hhigh h⟩

/-- A finite double is not below zero exactly when its value is not. -/
theorem not_neg_iff_valueOf {x : Float} (h : x.isFinite = true) : ¬ x < 0 ↔ 0 ≤ valueOf x := by
  have hzero : valueOf 0 = 0 := by rfl
  rw [not_lt_iff_le standsAt_ofNat_zero.1 (isNaN_of_isFinite h), le_iff_valueOf (by decide) h, hzero]

/-- What is within a finite bound is no number, or is finite with a value between zero and that of the bound. -/
theorem Within.cases {high x : Float} (hhigh : high.isFinite = true) (h : Within high x) :
    x.isNaN = true ∨ x.isFinite = true ∧ 0 ≤ valueOf x ∧ valueOf x ≤ valueOf high := by
  cases hnan : x.isNaN with
  | true => exact .inl rfl
  | false =>
    obtain ⟨hzero, habove⟩ := h
    rw [not_lt_iff_le standsAt_ofNat_zero.1 hnan] at hzero
    rw [not_lt_iff_le hnan (isNaN_of_isFinite hhigh)] at habove
    have hfinite : x.isFinite = true := isFinite_of_between (by decide) hhigh hzero habove
    refine .inr ⟨hfinite, ?_, (le_iff_valueOf hfinite hhigh).1 habove⟩
    rwa [← not_neg_iff_valueOf hfinite, not_lt_iff_le standsAt_ofNat_zero.1 hnan]

/-- Sums are within the sum of the bounds. -/
theorem Within.add {high high' x y : Float} (hhigh : high.isFinite = true) (hhigh' : high'.isFinite = true)
    (hx : Within high x) (hy : Within high' y) : Within (high + high') (x + y) := by
  obtain hnan | ⟨hfx, hx, hxhigh⟩ := hx.cases hhigh
  · exact within_of_isNaN _ (isNaN_add (.inl hnan))
  obtain hnan | ⟨hfy, hy, hyhigh⟩ := hy.cases hhigh'
  · exact within_of_isNaN _ (isNaN_add (.inr hnan))
  exact within_of_standsAt (standsAt_add hfx hfy) (standsAt_add hhigh hhigh') (by positivity) (by linarith)

/-- Products are within the product of the bounds. -/
theorem Within.mul {high high' x y : Float} (hhigh : high.isFinite = true) (hhigh' : high'.isFinite = true)
    (hx : Within high x) (hy : Within high' y) : Within (high * high') (x * y) := by
  obtain hnan | ⟨hfx, hx, hxhigh⟩ := hx.cases hhigh
  · exact within_of_isNaN _ (isNaN_mul (.inl hnan))
  obtain hnan | ⟨hfy, hy, hyhigh⟩ := hy.cases hhigh'
  · exact within_of_isNaN _ (isNaN_mul (.inr hnan))
  exact within_of_standsAt (standsAt_mul hfx hfy) (standsAt_mul hhigh hhigh') (by positivity) (by gcongr; linarith)

/-- A finite double above zero has a positive value. -/
theorem valueOf_pos {x : Float} (h : x.isFinite = true) (hpos : 0 < x) : 0 < valueOf x := by
  have hnan := isNaN_of_isFinite h
  have hzero : valueOf 0 = 0 := by rfl
  rw [lt_iff_rank standsAt_ofNat_zero.1 hnan, ← not_le, ← le_iff_rank hnan standsAt_ofNat_zero.1,
    le_iff_valueOf h (by decide), hzero, not_le] at hpos
  exact hpos

/-- Quotients by one positive number are within the quotient of the bound. -/
theorem Within.div {high x y : Float} (hhigh : high.isFinite = true) (hy : y.isFinite = true) (hy' : 0 < y)
    (hx : Within high x) : Within (high / y) (x / y) := by
  have hpos := valueOf_pos hy hy'
  obtain hnan | ⟨hfx, hx, hxhigh⟩ := hx.cases hhigh
  · exact within_of_isNaN _ (isNaN_div (.inl hnan))
  exact within_of_standsAt (standsAt_div hfx hy hpos.ne') (standsAt_div hhigh hy hpos.ne') (by positivity) (by gcongr)

/-- What is neither finite nor no number is an infinity. -/
theorem unpack_of_infinite {x : Float} (hnan : x.isNaN = false) (hinfinite : x.isFinite = false) :
    ∃ sign, x.toModel.unpack = .infinity sign := by
  have hnumber : x.toModel.unpack.isNaN = false := hnan
  have hform : x.toModel.unpack.isFinite = false := hinfinite
  generalize x.toModel.unpack = form at hnumber hform
  cases form with
  | infinity sign => exact ⟨sign, rfl⟩
  | notANumber => contradiction
  | zero sign => contradiction
  | finite sign mantissa exponent pos => contradiction

/-- What is not below zero is no number, a finite double with such a value, or the infinity above all numbers. -/
theorem cases_of_not_neg {x : Float} (h : ¬ x < 0) :
    x.isNaN = true ∨ (x.isFinite = true ∧ 0 ≤ valueOf x) ∨ x.toModel.unpack = .infinity .positive := by
  cases hfinite : x.isFinite with
  | true => exact .inr (.inl ⟨rfl, (not_neg_iff_valueOf hfinite).1 h⟩)
  | false =>
    cases hnan : x.isNaN with
    | true => exact .inl rfl
    | false =>
      obtain ⟨sign, hform⟩ := unpack_of_infinite hnan hfinite
      cases sign with
      | positive => exact .inr (.inr hform)
      | negative =>
        have hbelow : x < 0 := by
          rw [lt_iff_compare, hform]
          rfl
        exact absurd hbelow h

/-- A form with a value above zero has a positive sign. -/
theorem IsForm.sign_of_pos {form : UnpackedFloat} (h : IsForm form) (hpos : 0 < exactOf form) :
    ∃ mantissa exponent pos, form = .finite .positive mantissa exponent pos := by
  cases h with
  | zero sign => exact absurd hpos (lt_irrefl _)
  | @finite sign mantissa exponent pos _ _ _ =>
    cases sign with
    | positive => exact ⟨mantissa, exponent, pos, rfl⟩
    | negative =>
      have hmagnitude : (0 : ℚ) ≤ mantissa * 2 ^ exponent := by positivity
      rw [exactOf_negative] at hpos
      linarith

/-- A number that is not below zero, over a positive one, is not below zero. -/
theorem not_neg_div {x y : Float} (hy : y.isFinite = true) (hy' : 0 < y) (hx : ¬ x < 0) : ¬ x / y < 0 := by
  have hpos := valueOf_pos hy hy'
  obtain hnan | ⟨hfinite, hvalue⟩ | hinfinite := cases_of_not_neg hx
  · exact (within_of_isNaN 0 (isNaN_div (.inl hnan))).1
  · exact not_neg_of_standsAt (standsAt_div hfinite hy hpos.ne') (by positivity)
  · have hquotient : x / y = .ofModel (.pack (.infinity .positive)) := by
      obtain ⟨mantissa, exponent, hmantissa, hform⟩ := (isForm_unpack hy).sign_of_pos hpos
      change Float.ofModel (.pack (UnpackedFloat.div Format.binary64 x.toModel.unpack y.toModel.unpack)) = _
      rw [hinfinite, hform]
      rfl
    rw [hquotient]
    decide

/-- Taking something away from a finite double never leads above it. -/
theorem not_lt_sub {x y : Float} (hx : x.isFinite = true) (hy : ¬ y < 0) : ¬ x < x - y := by
  obtain hnan | ⟨hfinite, hvalue⟩ | hinfinite := cases_of_not_neg hy
  · exact (within_of_isNaN x (isNaN_sub (.inr hnan))).2
  · exact not_lt_of_standsAt (standsAt_sub hx hfinite) (standsAt_valueOf hx) (by linarith)
  · have hdifference : x - y = .ofModel (.pack (.infinity .negative)) := by
      have hform := isForm_unpack hx
      change Float.ofModel (.pack (UnpackedFloat.sub Format.binary64 x.toModel.unpack y.toModel.unpack)) = _
      rw [hinfinite]
      generalize x.toModel.unpack = form at hform ⊢
      cases hform <;> rfl
    have hlow := (isFinite_iff_rank (isNaN_of_isFinite hx)).1 hx
    have hrank : rank (.ofModel (.pack (.infinity .negative))) = -infiniteMagnitude := by rfl
    rw [hdifference, lt_iff_rank (isNaN_of_isFinite hx) (by decide), hrank]
    omega

/-- What is left of a positive bound, and at least zero, is within the bound. -/
theorem within_atLeastZero_sub {high y : Float} (hhigh : high.isFinite = true) (hpos : ¬ high < 0) (hy : ¬ y < 0) :
    Within high (atLeastZero (high - y)) := by
  unfold atLeastZero
  split
  · next hleft =>
    have hleftnan := (isNaN_of_lt hleft).2
    refine ⟨?_, not_lt_sub hhigh hy⟩
    rw [lt_iff_rank standsAt_ofNat_zero.1 hleftnan] at hleft
    rw [lt_iff_rank hleftnan standsAt_ofNat_zero.1]
    exact hleft.asymm
  · exact ⟨by decide, hpos⟩

/-- The double of a natural number stands nearest to it. -/
theorem standsAt_ofNat (n : ℕ) : StandsAt (ofNat n) (nearestPlace n) := by
  unfold ofNat nearest
  split
  · next hzero =>
    rw [hzero, Nat.cast_zero, nearestPlace_zero]
    exact standsAt_zero .positive
  · next hne =>
    have h := standsAt_round .positive hne 0
    have hvalue : ((Sign.positive.apply 1 : ℤ) : ℚ) * (n * 2 ^ (0 : ℤ)) = n := by simp [Sign.apply]
    rwa [signed_nearestMagnitude (by positivity), hvalue] at h

/-- The double of a whole decimal stands nearest to it. -/
theorem standsAt_ofScientific (n : ℕ) : StandsAt (.ofModel (.ofScientific n 0)) (nearestPlace n) := by
  unfold Float.Model.ofScientific UnpackedFloat.ofScientific
  split
  · next hzero =>
    rw [hzero, Nat.cast_zero, nearestPlace_zero]
    exact standsAt_zero .positive
  · next hne =>
    have hexp : (-53 : ℤ) ≤ targetOf (n <<< 53) (-53) := by
      rw [targetOf, log2_shiftLeft hne]
      omega
    have h := standsAt_roundWithAccuracy (represents_exact (n <<< 53)) hexp .positive
    have hvalue : ((Sign.positive.apply 1 : ℤ) : ℚ) * ((n <<< 53 : ℕ) * 2 ^ (-53 : ℤ)) = n := by
      rw [Nat.shiftLeft_eq]
      push_cast
      rw [Sign.apply]
      norm_num [mul_assoc]
    have hpos : (0 : ℚ) ≤ (n <<< 53 : ℕ) * 2 ^ (-53 : ℤ) :=
      mul_nonneg (Nat.cast_nonneg _) (zpow_nonneg (by norm_num) _)
    rw [signed_nearestMagnitude hpos, hvalue] at h
    have hpower : (0 : ℤ) ≤ 2 ^ Format.binary64.exponentBits := by positivity
    rw [if_neg (not_lt.2 hpower), if_neg (by omega), if_pos le_rfl]
    simp only [UnpackedFloat.mul, Int.toNat_zero, pow_zero, Nat.mul_one, Int.add_zero]
    exact h

/-- The double of a byte stands nearest to it. -/
theorem standsAt_toFloat_uint8 (n : UInt8) : StandsAt n.toFloat (nearestPlace n.toNat) := by
  have h := standsAt_normalize n.toNat 0 .positive
  rw [zpow_zero, mul_one] at h
  exact h

/-- The double of a counter stands nearest to it. -/
theorem standsAt_toFloat_uint32 (n : UInt32) : StandsAt n.toFloat (nearestPlace n.toNat) := by
  have h := standsAt_normalize n.toNat 0 .positive
  rw [zpow_zero, mul_one] at h
  exact h

/-- The whole number nearest to a finite double is that of its value, halves going up. -/
theorem nearestNat_eq (limit : ℕ) {x : Float} (h : x.isFinite = true) :
    nearestNat limit x = min limit ⌊valueOf x + 1 / 2⌋₊ := by
  have hform := isForm_unpack h
  unfold nearestNat view valueOf
  generalize x.toModel.unpack = form at hform
  cases hform with
  | zero sign =>
    have hexact : exactOf (.zero sign) = 0 := rfl
    have hhalf : ⌊(0 : ℚ) + 1 / 2⌋₊ = 0 := Nat.floor_eq_zero.2 (by norm_num)
    rw [hexact, hhalf, Nat.min_zero]
    cases sign with
    | negative => rfl
    | positive => exact Nat.min_zero limit
  | @finite sign mantissa exponent pos _ _ _ =>
    cases sign with
    | negative =>
      have hmagnitude : (0 : ℚ) ≤ mantissa * 2 ^ exponent := by positivity
      have hhalf : ⌊-((mantissa : ℚ) * 2 ^ exponent) + 1 / 2⌋₊ = 0 := Nat.floor_eq_zero.2 (by linarith)
      rw [exactOf_negative, hhalf, Nat.min_zero]
      rfl
    | positive =>
      rw [exactOf_positive]
      simp only [isNegative, Bool.false_eq_true, if_false]
      split
      · next hwhole =>
        obtain ⟨bits, rfl⟩ := Int.eq_ofNat_of_zero_le hwhole
        have hfloor : ⌊((mantissa * 2 ^ bits : ℕ) : ℚ) + 1 / 2⌋₊ = mantissa * 2 ^ bits := by
          rw [add_comm, Nat.floor_add_natCast (by norm_num)]
          norm_num
        rw [zpow_natCast]
        push_cast at hfloor
        rw [hfloor]
        rfl
      · next hpart =>
        obtain ⟨bits, hbits⟩ := Int.eq_ofNat_of_zero_le (neg_nonneg.2 (not_le.1 hpart).le)
        have hunits : unitsPerOne exponent = 2 ^ bits := by
          unfold unitsPerOne
          rw [hbits]
          rfl
        have hquotient : (mantissa : ℚ) * 2 ^ exponent + 1 / 2 = ((2 * mantissa + 2 ^ bits : ℕ) : ℚ) / (2 * 2 ^ bits : ℕ) := by
          rw [show exponent = -(bits : ℤ) by omega, zpow_neg, zpow_natCast]
          push_cast
          field_simp
        rw [hunits, hquotient, Nat.floor_div_eq_div]

/-- No double is rounded to more than the limit. -/
theorem nearestNat_le_limit (limit : ℕ) (x : Float) : nearestNat limit x ≤ limit := by
  unfold nearestNat
  split
  · exact Nat.zero_le _
  · split <;> omega
  · split
    · exact Nat.zero_le _
    · split <;> exact min_le_left _ _

/-- Rounding to whole numbers keeps the order. -/
theorem nearestNat_mono (limit : ℕ) {x y : Float} (h : x ≤ y) : nearestNat limit x ≤ nearestNat limit y := by
  obtain ⟨hx, hy⟩ := isNaN_of_le h
  have hcompare := (le_iff_compare x y).1 h
  have hinfinite : ∀ {z : Float} {sign : Sign}, z.toModel.unpack = .infinity sign →
      nearestNat limit z = if isNegative sign then 0 else limit := by
    intro z sign hz
    unfold nearestNat view
    rw [hz]
  cases hfx : x.isFinite with
  | false =>
    obtain ⟨sign, hform⟩ := unpack_of_infinite hx hfx
    cases sign with
    | negative =>
      rw [hinfinite hform]
      exact Nat.zero_le _
    | positive =>
      have htop : y.toModel.unpack = .infinity .positive := by
        rw [hform] at hcompare
        generalize y.toModel.unpack = form at hcompare
        cases form with
        | infinity sign =>
          cases sign with
          | positive => rfl
          | negative => exact absurd hcompare (by decide)
        | _ => simp [UnpackedFloat.compare] at hcompare
      rw [hinfinite hform, hinfinite htop]
  | true =>
    cases hfy : y.isFinite with
    | true =>
      rw [nearestNat_eq limit hfx, nearestNat_eq limit hfy]
      have hvalue := (le_iff_valueOf hfx hfy).1 h
      gcongr
    | false =>
      obtain ⟨sign, hform⟩ := unpack_of_infinite hy hfy
      cases sign with
      | positive =>
        rw [hinfinite hform]
        exact nearestNat_le_limit limit x
      | negative =>
        have hfinite : x.toModel.unpack.isFinite = true := hfx
        rw [hform] at hcompare
        generalize x.toModel.unpack = form at hcompare hfinite
        cases form <;> simp_all [UnpackedFloat.compare, UnpackedFloat.isFinite]

/-- What is within a finite bound is rounded to no more than the bound is. -/
theorem Within.nearestNat_le {high x : Float} (hhigh : high.isFinite = true) (h : Within high x) (limit : ℕ) :
    nearestNat limit x ≤ nearestNat limit high := by
  cases hnan : x.isNaN with
  | true =>
    have hzero : nearestNat limit x = 0 := by
      unfold nearestNat view
      rw [unpack_of_isNaN hnan]
    omega
  | false => exact nearestNat_mono limit ((not_lt_iff_le hnan (isNaN_of_isFinite hhigh)).1 h.2)

end FlightPlanner.Binary64
