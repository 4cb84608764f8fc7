import FlightPlanner.Proofs.Binary64.Packing

/-!
# Arithmetic of doubles as rounded arithmetic

A finite double has an exact value. The sum, difference, product and quotient of finite doubles stand where the
exact result is rounded to, and rounding never reverses an order. So every bound on the exact values of operands
is one on the result.
-/

namespace FlightPlanner.Binary64

open Float.Model Float.Model.UnpackedFloat

/-- The exact value of an unpacked number, and zero for what is none. -/
def exactOf : UnpackedFloat → ℚ
  | .finite sign mantissa exponent _ => sign.apply 1 * (mantissa * 2 ^ exponent)
  | _ => 0

/-- The value of a number above zero. -/
theorem exactOf_positive {mantissa : ℕ} (exponent : ℤ) (pos : 0 < mantissa) :
    exactOf (.finite .positive mantissa exponent pos) = mantissa * 2 ^ exponent := by
  simp [exactOf, Sign.apply]

/-- The value of a number below zero. -/
theorem exactOf_negative {mantissa : ℕ} (exponent : ℤ) (pos : 0 < mantissa) :
    exactOf (.finite .negative mantissa exponent pos) = -(mantissa * 2 ^ exponent) := by
  simp [exactOf, Sign.apply]

/-- The exact value of a finite double. -/
def valueOf (x : Float) : ℚ := exactOf x.toModel.unpack

/-- The place of the double nearest to a number. -/
def nearestPlace (x : ℚ) : ℤ := if x < 0 then -nearestMagnitude (-x) else nearestMagnitude x

/-- Nothing is nearer to zero than zero. -/
theorem nearestMagnitude_zero : nearestMagnitude 0 = 0 := by
  have h := @nearestMagnitude_units 0 (-1074) le_rfl (by norm_num) (.inl rfl)
  simpa [magnitudeAt] using h

/-- The place nearest to zero is that of zero. -/
@[simp] theorem nearestPlace_zero : nearestPlace 0 = 0 := by simp [nearestPlace, nearestMagnitude_zero]

/-- A greater number has no smaller nearest place. -/
theorem nearestPlace_mono {x y : ℚ} (h : x ≤ y) : nearestPlace x ≤ nearestPlace y := by
  unfold nearestPlace
  split
  · split
    · exact neg_le_neg (by exact_mod_cast nearestMagnitude_mono (neg_le_neg h))
    · exact (neg_nonpos.2 (Nat.cast_nonneg _)).trans (Nat.cast_nonneg _)
  · next hx =>
    rw [if_neg (by linarith)]
    exact_mod_cast nearestMagnitude_mono h

/-- A magnitude with its sign is the nearest place of the number with this sign. -/
theorem signed_nearestMagnitude {x : ℚ} (h : 0 ≤ x) (sign : Sign) :
    signed (isNegative sign) (nearestMagnitude x) = nearestPlace (sign.apply 1 * x) := by
  unfold nearestPlace
  cases sign with
  | positive =>
    have hvalue : ((Sign.positive.apply 1 : ℤ) : ℚ) * x = x := by simp [Sign.apply]
    rw [hvalue, if_neg (not_lt.2 h)]
    simp [signed, isNegative]
  | negative =>
    have hvalue : ((Sign.negative.apply 1 : ℤ) : ℚ) * x = -x := by simp [Sign.apply]
    rw [hvalue, neg_neg]
    obtain rfl | hpos := h.eq_or_lt
    · simp [nearestMagnitude_zero, signed]
    · rw [if_pos (by linarith)]
      simp [signed, isNegative]

/-- The form of a double has the sign and the magnitude of its place. -/
theorem denotes_rank (x : Float) :
    ∃ negative magnitude, Denotes (signOf negative) magnitude x.toModel.unpack ∧
      rank x = signed negative magnitude :=
  ⟨_, _, (Pattern.ofFloat x).denotes, rfl⟩

/-- What the form of a finite double is like: a zero, or a number whose mantissa is as long as can be. -/
inductive IsForm : UnpackedFloat → Prop where
  /-- A zero. -/
  | zero (sign : Sign) : IsForm (.zero sign)
  /-- A number. Only at the least exponent is the mantissa shorter than fifty-three bits. -/
  | finite (sign : Sign) {mantissa : ℕ} {exponent : ℤ} (pos : 0 < mantissa) (low : -1074 ≤ exponent)
      (high : mantissa < 2 * 0x10000000000000) (hidden : exponent = -1074 ∨ 0x10000000000000 ≤ mantissa) :
      IsForm (.finite sign mantissa exponent pos)

/-- A finite double has such a form. -/
theorem isForm_unpack {x : Float} (h : x.isFinite = true) : IsForm x.toModel.unpack := by
  obtain ⟨negative, magnitude, hdenotes, -⟩ := denotes_rank x
  have hfinite : x.toModel.unpack.isFinite = true := h
  generalize x.toModel.unpack = form at hdenotes hfinite ⊢
  cases hdenotes with
  | zero => exact .zero _
  | finite pos low high hidden _ _ => exact .finite _ pos low high hidden
  | infinity => contradiction
  | notANumber => contradiction

/-- Both zeros stand at zero. -/
theorem standsAt_zero (sign : Sign) : StandsAt (.ofModel (.pack (.zero sign))) 0 := by
  cases sign with
  | negative => exact @standsAt_of_toNat_pack _ true 0 rfl (by decide)
  | positive => exact @standsAt_of_toNat_pack _ false 0 rfl (by decide)

/-- Such a form is packed at the place nearest to its value. -/
theorem IsForm.standsAt {form : UnpackedFloat} (h : IsForm form) :
    StandsAt (.ofModel (.pack form)) (nearestPlace (exactOf form)) := by
  cases h with
  | zero sign =>
    have h := standsAt_zero sign
    rwa [← nearestPlace_zero] at h
  | @finite sign mantissa exponent pos low high hidden =>
    have hnearest := nearestMagnitude_units low high hidden
    have hbelow : nearestMagnitude (mantissa * 2 ^ exponent) ≤ infiniteMagnitude := min_le_left _ _
    rw [exactOf, ← signed_nearestMagnitude (by positivity)]
    refine standsAt_of_toNat_pack ?_ hbelow
    rw [hnearest]
    exact toNat_pack_finite sign pos low high hidden

/-- A double is packed from its own form. -/
theorem ofModel_pack_unpack (x : Float) : Float.ofModel (.pack x.toModel.unpack) = x := Float.ofBits_toBits x

/-- A finite double stands at the place nearest to its value. -/
theorem standsAt_valueOf {x : Float} (h : x.isFinite = true) : StandsAt x (nearestPlace (valueOf x)) := by
  have hform := (isForm_unpack h).standsAt
  rwa [ofModel_pack_unpack] at hform

/-- A finite double is a number. -/
theorem isNaN_of_isFinite {x : Float} (h : x.isFinite = true) : x.isNaN = false :=
  (standsAt_valueOf h).1

/-- A finite double stands nearest to its value. -/
theorem rank_of_isFinite {x : Float} (h : x.isFinite = true) : rank x = nearestPlace (valueOf x) :=
  (standsAt_valueOf h).2

/-- Numbers and infinities are ordered as their places are. -/
theorem le_iff_rank {x y : Float} (hx : x.isNaN = false) (hy : y.isNaN = false) : x ≤ y ↔ rank x ≤ rank y := by
  have h := Pattern.toFloat_le_iff (p := .ofFloat x) (q := .ofFloat y) (by rw [isNaN_ofFloat, hx])
    (by rw [isNaN_ofFloat, hy])
  rwa [Pattern.toFloat_ofFloat, Pattern.toFloat_ofFloat] at h

/-- One double is at most another one when its form is. -/
theorem le_iff_compare (x y : Float) : x ≤ y ↔ (x.toModel.unpack.compare y.toModel.unpack).any (·.isLE) = true := by
  change decide (x.toModel ≤ y.toModel) = true ↔ _
  rw [decide_eq_true_iff]
  rfl

/-- What is not a number compares with nothing. -/
theorem isNaN_of_compare {x y : Float} {order : Ordering}
    (h : x.toModel.unpack.compare y.toModel.unpack = some order) : x.isNaN = false ∧ y.isNaN = false := by
  have hx : x.isNaN = x.toModel.unpack.isNaN := rfl
  have hy : y.isNaN = y.toModel.unpack.isNaN := rfl
  rw [hx, hy]
  generalize x.toModel.unpack = u at h ⊢
  generalize y.toModel.unpack = v at h ⊢
  cases u <;> cases v <;> simp_all [UnpackedFloat.compare, UnpackedFloat.isNaN]

/-- What is not a number is at most nothing and at least nothing. -/
theorem isNaN_of_le {x y : Float} (h : x ≤ y) : x.isNaN = false ∧ y.isNaN = false := by
  have hcompare := (le_iff_compare x y).1 h
  cases horder : x.toModel.unpack.compare y.toModel.unpack with
  | none =>
    rw [horder] at hcompare
    contradiction
  | some order => exact isNaN_of_compare horder

/-- A number or an infinity is finite when its place is between those of the infinities. -/
theorem isFinite_iff_rank {x : Float} (hx : x.isNaN = false) :
    x.isFinite = true ↔ -infiniteMagnitude < rank x ∧ rank x < infiniteMagnitude := by
  obtain ⟨negative, magnitude, hdenotes, hrank⟩ := denotes_rank x
  have hfinite : x.isFinite = x.toModel.unpack.isFinite := rfl
  have hnan : x.toModel.unpack.isNaN = false := hx
  rw [hfinite, hrank]
  generalize x.toModel.unpack = form at hdenotes hnan
  cases hdenotes with
  | zero => cases negative <;> simp [signed, UnpackedFloat.isFinite, infiniteMagnitude]
  | finite pos low high hidden bounded sum =>
    cases negative <;> simp [signed, UnpackedFloat.isFinite, infiniteMagnitude] <;> omega
  | infinity => cases negative <;> simp [signed, UnpackedFloat.isFinite, infiniteMagnitude]
  | notANumber => contradiction

/-- The number that a place stands for. -/
def placeValue (place : ℤ) : ℚ :=
  if place < 0 then -magnitudeValue place.natAbs else magnitudeValue place.natAbs

/-- The place on the other side of zero stands for the negative number. -/
theorem placeValue_neg (place : ℤ) : placeValue (-place) = -placeValue place := by
  have hzero : magnitudeValue 0 = 0 := by simp [magnitudeValue]
  unfold placeValue
  rw [Int.natAbs_neg]
  rcases lt_trichotomy place 0 with h | rfl | h
  · rw [if_neg (by omega), if_pos h, neg_neg]
  · simp [hzero]
  · rw [if_pos (by omega), if_neg (by omega)]

/-- The value of a finite double is what its place stands for. -/
theorem valueOf_eq_placeValue {x : Float} (h : x.isFinite = true) : valueOf x = placeValue (rank x) := by
  obtain ⟨negative, magnitude, hdenotes, hrank⟩ := denotes_rank x
  have hfinite : x.toModel.unpack.isFinite = true := h
  have hsigned : placeValue (signed negative magnitude) = (signOf negative).apply 1 * magnitudeValue magnitude := by
    cases negative with
    | false => simp [signed, signOf, Sign.apply, placeValue]
    | true =>
      rw [signed, if_pos rfl, placeValue_neg, placeValue, if_neg (by omega)]
      simp [signOf, Sign.apply]
  rw [hrank, hsigned, valueOf]
  generalize x.toModel.unpack = form at hdenotes hfinite
  cases hdenotes with
  | zero => simp [exactOf, magnitudeValue]
  | @finite _ mantissa exponent pos low high hidden bounded sum =>
    have hmagnitude : magnitude = magnitudeAt exponent mantissa := by
      unfold magnitudeAt
      omega
    rw [hmagnitude, magnitudeValue_magnitudeAt low (by omega) hidden, exactOf]
  | infinity => contradiction
  | notANumber => contradiction

/-- Finite doubles at the same place have the same value. -/
theorem valueOf_eq_of_rank_eq {x y : Float} (hx : x.isFinite = true) (hy : y.isFinite = true)
    (h : rank x = rank y) : valueOf x = valueOf y := by
  rw [valueOf_eq_placeValue hx, valueOf_eq_placeValue hy, h]

/-- Finite doubles are ordered as their values are. -/
theorem le_iff_valueOf {x y : Float} (hx : x.isFinite = true) (hy : y.isFinite = true) :
    x ≤ y ↔ valueOf x ≤ valueOf y := by
  rw [le_iff_rank (isNaN_of_isFinite hx) (isNaN_of_isFinite hy)]
  constructor
  · intro hrank
    by_contra hvalue
    have hback := nearestPlace_mono (not_le.1 hvalue).le
    rw [← rank_of_isFinite hx, ← rank_of_isFinite hy] at hback
    exact hvalue (valueOf_eq_of_rank_eq hx hy (le_antisymm hrank hback)).le
  · intro hvalue
    rw [rank_of_isFinite hx, rank_of_isFinite hy]
    exact nearestPlace_mono hvalue

/-- What stands between finite doubles is finite. -/
theorem isFinite_of_between {low x high : Float} (hlow : low.isFinite = true) (hhigh : high.isFinite = true)
    (hlowx : low ≤ x) (hxhigh : x ≤ high) : x.isFinite = true := by
  have hx := (isNaN_of_le hlowx).2
  have hl := isNaN_of_isFinite hlow
  have hh := isNaN_of_isFinite hhigh
  rw [isFinite_iff_rank hl] at hlow
  rw [isFinite_iff_rank hh] at hhigh
  rw [le_iff_rank hl hx] at hlowx
  rw [le_iff_rank hx hh] at hxhigh
  rw [isFinite_iff_rank hx]
  omega

/-- Lowering an exponent keeps the number. -/
theorem decreaseExponent_value (mantissa : ℕ) (exponent target : ℤ) :
    ((decreaseExponent mantissa exponent target).1 : ℚ) * 2 ^ (decreaseExponent mantissa exponent target).2 =
      mantissa * 2 ^ exponent := by
  unfold decreaseExponent
  simp only [Nat.shiftLeft_eq, Nat.cast_mul, Nat.cast_pow, Nat.cast_ofNat]
  rw [zpow_sub₀ (by norm_num), zpow_natCast]
  field_simp

/-- A mantissa that is shifted has so many more bits. -/
theorem log2_shiftLeft {mantissa : ℕ} (hne : mantissa ≠ 0) (bits : ℕ) :
    (mantissa <<< bits).log2 = mantissa.log2 + bits := by
  induction bits with
  | zero => rfl
  | succ bits ih =>
    have hshifted : mantissa <<< bits ≠ 0 := by
      rw [Nat.shiftLeft_eq]
      exact Nat.mul_ne_zero hne (by positivity)
    rw [Nat.shiftLeft_succ, Nat.log2_two_mul hshifted, ih, Nat.add_assoc]

/-- What the machine rounds a number to stands at the magnitude nearest to it. -/
theorem standsAt_round (sign : Sign) {mantissa : ℕ} (hne : mantissa ≠ 0) (exponent : ℤ) :
    StandsAt (.ofModel (.pack (UnpackedFloat.round Format.binary64 sign mantissa exponent)))
      (signed (isNegative sign) (nearestMagnitude (mantissa * 2 ^ exponent))) := by
  rw [← decreaseExponent_value mantissa exponent (targetOf mantissa exponent)]
  unfold UnpackedFloat.round
  rw [targetExponent_eq]
  refine standsAt_roundWithAccuracy (represents_exact _) ?_ sign
  unfold targetOf
  simp only [log2_shiftLeft hne]
  omega

/-- What the machine rounds a signed number to stands nearest to it. -/
theorem standsAt_normalize (mantissa exponent : ℤ) (zeroSign : Sign) :
    StandsAt (.ofModel (.pack (UnpackedFloat.normalize Format.binary64 mantissa exponent zeroSign)))
      (nearestPlace (mantissa * 2 ^ exponent)) := by
  have hround : ∀ (sign : Sign) (magnitude : ℕ), magnitude ≠ 0 →
      StandsAt (.ofModel (.pack (UnpackedFloat.round Format.binary64 sign magnitude exponent)))
        (nearestPlace (sign.apply 1 * (magnitude * 2 ^ exponent))) := by
    intro sign magnitude hne
    rw [← signed_nearestMagnitude (by positivity)]
    exact standsAt_round sign hne exponent
  unfold UnpackedFloat.normalize
  rcases lt_trichotomy mantissa 0 with h | h | h
  · obtain ⟨magnitude, hmagnitude⟩ := Int.eq_ofNat_of_zero_le (neg_nonneg.2 h.le)
    have hvalue : (mantissa : ℚ) * 2 ^ exponent = Sign.negative.apply 1 * (magnitude * 2 ^ exponent) := by
      have hcast : (mantissa : ℚ) = -magnitude := by exact_mod_cast (by omega : mantissa = -magnitude)
      rw [hcast]
      simp [Sign.apply]
    rw [compare_lt_iff_lt.2 h, hmagnitude, hvalue]
    exact hround .negative magnitude (by omega)
  · subst h
    rw [Int.cast_zero, zero_mul, nearestPlace_zero]
    exact standsAt_zero zeroSign
  · obtain ⟨magnitude, rfl⟩ := Int.eq_ofNat_of_zero_le h.le
    have hvalue : (((magnitude : ℕ) : ℤ) : ℚ) * 2 ^ exponent = Sign.positive.apply 1 * (magnitude * 2 ^ exponent) := by
      simp [Sign.apply]
    rw [compare_gt_iff_gt.2 h, hvalue]
    exact hround .positive magnitude (by omega)

/-- A sign applied to a number multiplies it by one with this sign. -/
theorem apply_natCast (sign : Sign) (n : ℕ) : ((sign.apply n : ℤ) : ℚ) = sign.apply 1 * n := by
  cases sign <;> simp [Sign.apply]

/-- The exact sum of two numbers over their smaller exponent. -/
theorem exactOf_add (s t : Sign) {m n : ℕ} (e f : ℤ) (hm : 0 < m) (hn : 0 < n) :
    exactOf (.finite s m e hm) + exactOf (.finite t n f hn) =
      ((s.apply (decreaseExponent m e (min e f)).1 + t.apply (decreaseExponent n f (min e f)).1 : ℤ) : ℚ) *
        2 ^ min e f := by
  have hlowered : ∀ (k : ℕ) (g : ℤ), min e f ≤ g →
      ((decreaseExponent k g (min e f)).1 : ℚ) * 2 ^ min e f = k * 2 ^ g := by
    intro k g hg
    rw [← decreaseExponent_value k g (min e f)]
    congr 2
    simp only [decreaseExponent]
    omega
  rw [exactOf, exactOf, Int.cast_add, apply_natCast, apply_natCast, add_mul, mul_assoc, mul_assoc,
    hlowered m e (min_le_left e f), hlowered n f (min_le_right e f)]

/-- The negative sign gives the negative number. -/
theorem apply_neg (sign : Sign) (n : ℤ) : (-sign).apply n = -sign.apply n := by
  cases sign with
  | negative => exact (neg_neg n).symm
  | positive => rfl

/-- The negative of such a form is one, and has the negative value. -/
theorem IsForm.neg {form : UnpackedFloat} (h : IsForm form) : IsForm form.neg ∧ exactOf form.neg = -exactOf form := by
  cases h with
  | zero sign => exact ⟨.zero _, by simp [exactOf, UnpackedFloat.neg]⟩
  | finite sign pos low high hidden =>
    refine ⟨.finite _ pos low high hidden, ?_⟩
    rw [UnpackedFloat.neg, exactOf, exactOf, apply_neg, Int.cast_neg, neg_mul]

/-- The sum of such forms is packed nearest to the exact sum. -/
theorem IsForm.add {u v : UnpackedFloat} (hu : IsForm u) (hv : IsForm v) :
    StandsAt (.ofModel (.pack (UnpackedFloat.add Format.binary64 u v))) (nearestPlace (exactOf u + exactOf v)) := by
  have hstandsu := hu.standsAt
  have hstandsv := hv.standsAt
  cases hu with
  | zero s =>
    have hzero : exactOf (.zero s) = 0 := rfl
    rw [hzero, zero_add]
    cases hv with
    | zero t => cases s <;> cases t <;> exact (IsForm.zero _).standsAt
    | finite t pos low high hidden => exact hstandsv
  | finite s pos low high hidden =>
    cases hv with
    | zero t =>
      have hzero : exactOf (.zero t) = 0 := rfl
      rw [hzero, add_zero]
      exact hstandsu
    | finite t pos' low' high' hidden' =>
      rw [exactOf_add]
      exact standsAt_normalize _ _ _

/-- The sum of finite doubles stands nearest to the exact sum. -/
theorem standsAt_add {x y : Float} (hx : x.isFinite = true) (hy : y.isFinite = true) :
    StandsAt (x + y) (nearestPlace (valueOf x + valueOf y)) :=
  (isForm_unpack hx).add (isForm_unpack hy)

/-- A difference is a sum with the negative. -/
theorem unpackedSub_eq_add_neg (u v : UnpackedFloat) :
    UnpackedFloat.sub Format.binary64 u v = UnpackedFloat.add Format.binary64 u v.neg := by
  cases u <;> cases v <;>
    simp only [UnpackedFloat.sub, UnpackedFloat.add, UnpackedFloat.neg, apply_neg, Int.sub_eq_add_neg]

/-- The difference of finite doubles stands nearest to the exact difference. -/
theorem standsAt_sub {x y : Float} (hx : x.isFinite = true) (hy : y.isFinite = true) :
    StandsAt (x - y) (nearestPlace (valueOf x - valueOf y)) := by
  have hu := isForm_unpack hx
  have hv := isForm_unpack hy
  have hsum := hu.add hv.neg.1
  rw [← unpackedSub_eq_add_neg, hv.neg.2, ← sub_eq_add_neg] at hsum
  exact hsum

/-- A product of signs gives the product of the signed ones. -/
theorem apply_mul (s t : Sign) : (s * t).apply 1 = s.apply 1 * t.apply 1 := by
  cases s <;> cases t <;> rfl

/-- A quotient of signs is their product. -/
theorem sign_div_eq_mul (s t : Sign) : s / t = s * t := by
  cases s <;> cases t <;> rfl

/-- The product of finite doubles stands nearest to the exact product. -/
theorem standsAt_mul {x y : Float} (hx : x.isFinite = true) (hy : y.isFinite = true) :
    StandsAt (x * y) (nearestPlace (valueOf x * valueOf y)) := by
  have hforms : ∀ {u v : UnpackedFloat}, IsForm u → IsForm v →
      StandsAt (.ofModel (.pack (UnpackedFloat.mul Format.binary64 u v))) (nearestPlace (exactOf u * exactOf v)) := by
    intro u v hu hv
    have hzero : ∀ s : Sign, exactOf (.zero s) = 0 := fun s => rfl
    have hstands : ∀ s : Sign, StandsAt (.ofModel (.pack (.zero s))) (nearestPlace 0) :=
      fun s => (IsForm.zero s).standsAt
    cases hu with
    | zero s =>
      rw [hzero, zero_mul]
      cases hv with
      | zero t => exact hstands _
      | finite t pos low high hidden => exact hstands _
    | @finite s m e pos low high hidden =>
      cases hv with
      | zero t =>
        rw [hzero, mul_zero]
        exact hstands _
      | @finite t n f pos' low' high' hidden' =>
        have hexp : e + f ≤ targetOf (m * n) (e + f) := by
          unfold targetOf
          by_cases hleast : e = -1074 ∧ f = -1074
          · omega
          · have hlong : 0x10000000000000 ≤ m * n := by
              obtain h | h : 0x10000000000000 ≤ m ∨ 0x10000000000000 ≤ n := by omega
              · exact h.trans (Nat.le_mul_of_pos_right m pos')
              · exact h.trans (Nat.le_mul_of_pos_left n pos)
            have hlog := (Nat.le_log2 (k := 52) (Nat.mul_pos pos pos').ne').2 hlong
            omega
        have hround := standsAt_roundWithAccuracy (represents_exact (m * n)) hexp (s * t)
        rw [signed_nearestMagnitude (by positivity)] at hround
        have hexact : exactOf (.finite s m e pos) * exactOf (.finite t n f pos') =
            (s * t).apply 1 * ((m * n : ℕ) * 2 ^ (e + f)) := by
          rw [exactOf, exactOf, apply_mul, zpow_add₀ (by norm_num)]
          push_cast
          ring
        rw [hexact]
        exact hround
  exact hforms (isForm_unpack hx) (isForm_unpack hy)

/-- The exponent over which the machine divides. -/
def quotientExponent (m : ℕ) (e : ℤ) (n : ℕ) (f : ℤ) : ℤ := min (e - f) (max (m.log2 + e - (n.log2 + f) - 53) (-1074))

/-- The machine's quotient of two numbers, over their exponent and with what it leaves. -/
theorem divCore_eq (m : ℕ) (e : ℤ) (n : ℕ) (f : ℤ) {target : ℤ} {bits : ℕ} (htarget : target = quotientExponent m e n f)
    (hbits : bits = (e - f - target).toNat) :
    divCore Format.binary64 m e n f =
      (m <<< bits / n, target, accuracyOfFraction (m <<< bits % n) n) := by
  have hexp : min (e - f) (Format.binary64.targetExponent (totalExponent m e - totalExponent n f)) = target := by
    simp only [Format.targetExponent, totalExponent, Format.mantissaBits, Format.minExponent]
    rw [htarget, quotientExponent]
    norm_num
    omega
  unfold divCore
  simp only [hexp, ← hbits]

/-- What the machine rounds a quotient to stands at the magnitude nearest to it. -/
theorem standsAt_divCore (sign : Sign) {m n : ℕ} (e f : ℤ) (hm : 0 < m) (hn : 0 < n) :
    let (mantissa, exponent, accuracy) := divCore Format.binary64 m e n f
    StandsAt (.ofModel (.pack (roundWithAccuracy Format.binary64 sign mantissa exponent accuracy)))
      (signed (isNegative sign) (nearestMagnitude ((m : ℚ) * 2 ^ e / (n * 2 ^ f)))) := by
  obtain ⟨target, htarget⟩ : ∃ target, target = quotientExponent m e n f := ⟨_, rfl⟩
  obtain ⟨bits, hbits⟩ : ∃ bits, bits = (e - f - target).toNat := ⟨_, rfl⟩
  rw [divCore_eq m e n f htarget hbits]
  have hscale : target + bits = e - f := by
    unfold quotientExponent at htarget
    omega
  have hexact : ((m <<< bits : ℕ) : ℚ) / n * 2 ^ target = (m : ℚ) * 2 ^ e / (n * 2 ^ f) := by
    have he : e = target + bits + f := by omega
    have hnpos : (n : ℚ) ≠ 0 := by exact_mod_cast hn.ne'
    rw [he, zpow_add₀ (by norm_num), zpow_add₀ (by norm_num), zpow_natCast, Nat.shiftLeft_eq]
    push_cast
    field_simp
  have hexp : target ≤ targetOf (m <<< bits / n) target := by
    unfold targetOf
    by_cases hleast : target ≤ -1074
    · omega
    · -- above the least exponent the quotient has at least fifty-three bits
      have hbitslow : 53 + n.log2 ≤ m.log2 + bits := by
        unfold quotientExponent at htarget
        omega
      have hlong : 0x10000000000000 ≤ m <<< bits / n := by
        rw [Nat.le_div_iff_mul_le hn, Nat.shiftLeft_eq]
        calc 0x10000000000000 * n ≤ 2 ^ 52 * 2 ^ (n.log2 + 1) := Nat.mul_le_mul_left _ Nat.lt_log2_self.le
          _ = 2 ^ (53 + n.log2) := by rw [← Nat.pow_add]; congr 1; omega
          _ ≤ 2 ^ (m.log2 + bits) := Nat.pow_le_pow_right (by decide) hbitslow
          _ = 2 ^ m.log2 * 2 ^ bits := Nat.pow_add ..
          _ ≤ m * 2 ^ bits := Nat.mul_le_mul_right _ (Nat.log2_self_le hm.ne')
      have hlog := (Nat.le_log2 (k := 52) (by omega)).2 hlong
      omega
  rw [← hexact]
  exact standsAt_roundWithAccuracy (represents_quotient _ hn) hexp sign

/-- The quotient of finite doubles, the divisor not being zero, stands nearest to the exact quotient. -/
theorem standsAt_div {x y : Float} (hx : x.isFinite = true) (hy : y.isFinite = true) (hne : valueOf y ≠ 0) :
    StandsAt (x / y) (nearestPlace (valueOf x / valueOf y)) := by
  have hforms : ∀ {u v : UnpackedFloat}, IsForm u → IsForm v → exactOf v ≠ 0 →
      StandsAt (.ofModel (.pack (UnpackedFloat.div Format.binary64 u v))) (nearestPlace (exactOf u / exactOf v)) := by
    intro u v hu hv hne
    cases hv with
    | zero t => contradiction
    | @finite t n f pos' low' high' hidden' =>
      cases hu with
      | zero s =>
        have hzero : exactOf (.zero s) = 0 := rfl
        rw [hzero, zero_div]
        exact (IsForm.zero _).standsAt
      | @finite s m e pos low high hidden =>
        have hexact : exactOf (.finite s m e pos) / exactOf (.finite t n f pos') =
            (s * t).apply 1 * ((m : ℚ) * 2 ^ e / (n * 2 ^ f)) := by
          rw [exactOf, exactOf, apply_mul]
          cases t <;> simp [Sign.apply, div_neg, mul_div_assoc]
        rw [hexact, ← signed_nearestMagnitude (by positivity), ← sign_div_eq_mul]
        exact standsAt_divCore (s / t) e f pos pos'
  exact hforms (isForm_unpack hx) (isForm_unpack hy) hne

end FlightPlanner.Binary64
