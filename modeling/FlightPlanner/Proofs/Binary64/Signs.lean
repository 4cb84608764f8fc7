import FlightPlanner.Proofs.Binary64.Nearest
import FlightPlanner.Proofs.Binary64.WholeParts
import FlightPlanner.Proofs.Binary64.Zeros

/-!
# Doubles and their signs

The negative of a double differs from it in the sign bit alone. So products and quotients of negatives are the negatives
of products and quotients, bit for bit and for all doubles, and the factors of a product may be swapped. A difference the
other way round is the negative one or, between equal doubles, may be the same zero. What is known of the sign bit of an
operand tells which of the two zeros a sum or a square is.
-/

namespace FlightPlanner.Binary64

open Float.Model Float.Model.UnpackedFloat

variable {x y : Float}

section Forms

variable {sign : Sign} {magnitude : ℕ} {form u v : UnpackedFloat}

/-- A sign and a magnitude denote one form. -/
theorem Denotes.unique (hu : Denotes sign magnitude u) (hv : Denotes sign magnitude v) : u = v := by
  cases hu with
  | zero =>
    cases hv with
    | zero => rfl
    | finite => omega
    | notANumber beyond => omega
  | @finite _ mantissa exponent pos low high hidden bounded sum =>
    cases hv with
    | zero => omega
    | @finite _ mantissa' exponent' pos' low' high' hidden' bounded' sum' =>
      obtain rfl : exponent = exponent' := by omega
      obtain rfl : mantissa = mantissa' := by omega
      rfl
    | infinity => omega
    | notANumber beyond => omega
  | infinity =>
    cases hv with
    | finite => omega
    | infinity => rfl
    | notANumber beyond => omega
  | notANumber beyond =>
    cases hv with
    | zero => omega
    | finite => omega
    | infinity => omega
    | notANumber => rfl

/-- The other sign with the same magnitude denotes the negative. -/
theorem Denotes.neg (h : Denotes sign magnitude u) : Denotes (-sign) magnitude u.neg := by
  cases h with
  | zero => exact .zero
  | finite pos low high hidden bounded sum => exact .finite pos low high hidden bounded sum
  | infinity => exact .infinity
  | notANumber beyond => exact .notANumber beyond

/-- The sign of a form; the positive one stands for what is not a number. -/
def formSign : UnpackedFloat → Sign
  | .notANumber => .positive
  | .infinity sign => sign
  | .zero sign => sign
  | .finite sign _ _ _ => sign

/-- A sign is that of its sign bit. -/
theorem signOf_isNegative (sign : Sign) : signOf (isNegative sign) = sign := by cases sign <;> rfl

/-- A form other than that of no number is packed as its sign bit and a magnitude, and its negative as the other sign bit
and the same magnitude. -/
theorem exists_toNat_pack (h : form ≠ .notANumber) :
    ∃ magnitude, magnitude ≤ infiniteMagnitude ∧
      (UnpackedFloat.pack Format.binary64 form).toNat =
        (if isNegative (formSign form) then Pattern.half else 0) + magnitude ∧
      (UnpackedFloat.pack Format.binary64 form.neg).toNat =
        (if isNegative (-formSign form) then Pattern.half else 0) + magnitude := by
  have hinfinite : ∀ sign : Sign, (packedInfinity Format.binary64 sign).toNat =
      (if isNegative sign then Pattern.half else 0) + infiniteMagnitude := by
    intro sign
    cases sign <;> rfl
  -- both are packed from the same two fields
  have hfields : ∀ {field : BitVec 11} (low : BitVec 52), field.toNat < 2047 → ∀ sign : Sign,
      ∃ magnitude, magnitude ≤ infiniteMagnitude ∧
        (packComponents Format.binary64 sign field low).toNat =
          (if isNegative sign then Pattern.half else 0) + magnitude ∧
        (packComponents Format.binary64 (-sign) field low).toNat =
          (if isNegative (-sign) then Pattern.half else 0) + magnitude := by
    intro field low hfield sign
    have hlow := low.isLt
    refine ⟨field.toNat * 0x10000000000000 + low.toNat, by unfold infiniteMagnitude; omega, ?_, ?_⟩
    · rw [toNat_packComponents, Nat.add_assoc]
    · rw [toNat_packComponents, Nat.add_assoc]
  cases form with
  | notANumber => exact absurd rfl h
  | zero sign => exact hfields _ (by decide) sign
  | infinity sign => exact ⟨infiniteMagnitude, le_rfl, hinfinite sign, hinfinite (-sign)⟩
  | finite sign mantissa exponent pos =>
    simp only [UnpackedFloat.neg, UnpackedFloat.pack, formSign]
    split
    · exact ⟨infiniteMagnitude, le_rfl, hinfinite sign, hinfinite (-sign)⟩
    · next hsmall =>
      split
      · refine hfields _ ?_ sign
        have hbits : 2 ^ Format.binary64.exponentBits = 2048 := rfl
        rw [BitVec.toNat_ofNat]
        omega
      · exact hfields _ (by decide) sign

/-- Forms are packed to the same double exactly when they are packed to the same bits. -/
theorem ofModel_pack_eq_iff : Float.ofModel (.pack u) = .ofModel (.pack v) ↔
    (UnpackedFloat.pack Format.binary64 u).toNat = (UnpackedFloat.pack Format.binary64 v).toNat := by
  constructor
  · intro h
    exact congrArg (fun x : Float => x.toModel.toBits.toBitVec.toNat) h
  · intro h
    have hbits := BitVec.eq_of_toNat_eq h
    have hmodel : Float.Model.pack u = .pack v := by simp only [Float.Model.pack, hbits]
    rw [hmodel]

/-- The negative of a form is packed as the negative double. -/
theorem ofModel_pack_neg (form : UnpackedFloat) : Float.ofModel (.pack form.neg) = -Float.ofModel (.pack form) := by
  by_cases hform : form = .notANumber
  · subst hform
    decide
  · obtain ⟨magnitude, hmost, hbits, hother⟩ := exists_toNat_pack hform
    obtain ⟨x, hx⟩ : ∃ x, x = Float.ofModel (.pack form) := ⟨_, rfl⟩
    -- the form that this double is unpacked to need not be the given one, but it is packed to the same bits
    have hunpacked : x.toModel.unpack ≠ .notANumber := by
      intro hnan
      have hnumber := (standsAt_of_toNat_pack hbits hmost).1
      rw [← hx] at hnumber
      exact Bool.false_ne_true (hnumber.symm.trans (UnpackedFloat.isNaN_iff.mpr hnan))
    obtain ⟨magnitude', hmost', hbits', hother'⟩ := exists_toNat_pack hunpacked
    have hsame := ofModel_pack_eq_iff.mp ((ofModel_pack_unpack x).trans hx)
    obtain ⟨hsign, hmagnitude⟩ := Pattern.fields_of_toNat (p := .ofFloat (.ofModel (.pack form))) hbits hmost
    obtain ⟨hsign', hmagnitude'⟩ := Pattern.fields_of_toNat (p := .ofFloat (.ofModel (.pack form)))
      (hsame.symm.trans hbits') hmost'
    have hsigns : formSign x.toModel.unpack = formSign form := by
      rw [← signOf_isNegative (formSign form), ← hsign, hsign', signOf_isNegative]
    have hneg : -x = Float.ofModel (.pack x.toModel.unpack.neg) := rfl
    rw [← hx, hneg, ofModel_pack_eq_iff, hother, hother', hsigns, ← hmagnitude, hmagnitude']

/-- The negative of a double has the negative form. -/
theorem unpack_neg (x : Float) : (-x).toModel.unpack = x.toModel.unpack.neg := by
  by_cases hform : x.toModel.unpack = .notANumber
  · rw [← ofModel_pack_unpack x, hform]
    rfl
  · obtain ⟨magnitude, hmost, hbits, hother⟩ := exists_toNat_pack hform
    have hx : (Pattern.ofFloat x).bits.toNat =
        (if isNegative (formSign x.toModel.unpack) then Pattern.half else 0) + magnitude := by
      rw [← hbits]
      exact congrArg (fun y : Float => y.toBits.toNat) (ofModel_pack_unpack x).symm
    obtain ⟨hsign, hmagnitude⟩ := Pattern.fields_of_toNat hx hmost
    obtain ⟨hsign', hmagnitude'⟩ := Pattern.fields_of_toNat (p := .ofFloat (-x)) hother hmost
    have hdenotes : Denotes _ _ x.toModel.unpack := (Pattern.ofFloat x).denotes
    have hdenotes' : Denotes _ _ (-x).toModel.unpack := (Pattern.ofFloat (-x)).denotes
    rw [hsign, hmagnitude, signOf_isNegative] at hdenotes
    rw [hsign', hmagnitude', signOf_isNegative] at hdenotes'
    exact hdenotes'.unique hdenotes.neg

end Forms

/-- A double is the negative of its negative. -/
theorem negate_negate (x : Float) : -(-x) = x := by
  have hform : x.toModel.unpack.neg.neg = x.toModel.unpack := by
    cases x.toModel.unpack with
    | notANumber => rfl
    | infinity sign => cases sign <;> rfl
    | zero sign => cases sign <;> rfl
    | finite sign mantissa exponent pos => cases sign <;> rfl
  calc -(-x) = Float.ofModel (.pack (-x).toModel.unpack.neg) := rfl
    _ = Float.ofModel (.pack x.toModel.unpack) := by rw [unpack_neg, hform]
    _ = x := ofModel_pack_unpack x

/-- A difference is a sum with the negative. -/
theorem add_negate (x y : Float) : x + -y = x - y := by
  calc x + -y = Float.ofModel (.pack (UnpackedFloat.add Format.binary64 x.toModel.unpack (-y).toModel.unpack)) := rfl
    _ = x - y := by rw [unpack_neg, ← unpackedSub_eq_add_neg]; rfl

/-- What is rounded under the other sign is the negative. -/
theorem roundWithAccuracy_neg (sign : Sign) (mantissa : ℕ) (exponent : ℤ) (accuracy : Accuracy) :
    roundWithAccuracy Format.binary64 (-sign) mantissa exponent accuracy =
      (roundWithAccuracy Format.binary64 sign mantissa exponent accuracy).neg := by
  simp only [roundWithAccuracy]
  split <;> rfl

/-- Rounding keeps the sign. -/
theorem formSign_roundWithAccuracy (sign : Sign) (mantissa : ℕ) (exponent : ℤ) (accuracy : Accuracy) :
    formSign (roundWithAccuracy Format.binary64 sign mantissa exponent accuracy) = sign := by
  simp only [roundWithAccuracy]
  split <;> rfl

/-- An operation that takes the negative of its first form to the negative result does so with doubles. -/
theorem negate_operand (operation : UnpackedFloat → UnpackedFloat → UnpackedFloat)
    (hforms : ∀ u v, operation u.neg v = (operation u v).neg) (x y : Float) :
    Float.ofModel (.pack (operation (-x).toModel.unpack y.toModel.unpack)) =
      -Float.ofModel (.pack (operation x.toModel.unpack y.toModel.unpack)) := by
  rw [unpack_neg, hforms, ofModel_pack_neg]

/-- The negative of a product is that of its first factor times the second. -/
theorem negate_mul (x y : Float) : -x * y = -(x * y) := by
  have hsigns : ∀ s t : Sign, -s * t = -(s * t) := by
    intro s t
    cases s <;> cases t <;> rfl
  refine negate_operand (UnpackedFloat.mul Format.binary64) ?_ x y
  intro u v
  cases u <;> cases v <;> simp only [UnpackedFloat.neg, UnpackedFloat.mul, hsigns, roundWithAccuracy_neg]

/-- The negative of a quotient is that of its dividend over the divisor. -/
theorem negate_div (x y : Float) : -x / y = -(x / y) := by
  have hsigns : ∀ s t : Sign, -s / t = -(s / t) := by
    intro s t
    cases s <;> cases t <;> rfl
  refine negate_operand (UnpackedFloat.div Format.binary64) ?_ x y
  intro u v
  cases u <;> cases v <;> simp only [UnpackedFloat.neg, UnpackedFloat.div, hsigns, roundWithAccuracy_neg]

/-- The factors of a product may be swapped. -/
theorem mul_swap (x y : Float) : x * y = y * x := by
  have hsigns : ∀ s t : Sign, s * t = t * s := by
    intro s t
    cases s <;> cases t <;> rfl
  have hforms : ∀ u v : UnpackedFloat,
      UnpackedFloat.mul Format.binary64 u v = UnpackedFloat.mul Format.binary64 v u := by
    intro u v
    cases u <;> cases v <;> simp only [UnpackedFloat.mul, hsigns, Nat.mul_comm, Int.add_comm]
  exact congrArg (fun form => Float.ofModel (.pack form)) (hforms x.toModel.unpack y.toModel.unpack)

/-- What is normalized from the negative of a mantissa other than zero is the negative. -/
theorem normalize_neg {mantissa : ℤ} (hne : mantissa ≠ 0) (exponent : ℤ) :
    UnpackedFloat.normalize Format.binary64 (-mantissa) exponent .positive =
      (UnpackedFloat.normalize Format.binary64 mantissa exponent .positive).neg := by
  unfold UnpackedFloat.normalize
  rcases lt_or_gt_of_ne hne with h | h
  · rw [compare_gt_iff_gt.mpr (by omega), compare_lt_iff_lt.mpr h]
    exact roundWithAccuracy_neg .negative _ _ _
  · rw [compare_lt_iff_lt.mpr (by omega), compare_gt_iff_gt.mpr (by omega), neg_neg]
    exact roundWithAccuracy_neg .positive _ _ _

/-- The difference of two forms the other way round is the negative one, unless it is the same zero. -/
theorem unpackedSub_swap (u v : UnpackedFloat) :
    UnpackedFloat.sub Format.binary64 u v = UnpackedFloat.sub Format.binary64 v u ∨
      UnpackedFloat.sub Format.binary64 u v = (UnpackedFloat.sub Format.binary64 v u).neg := by
  have hsigns : ∀ s t : Sign, t = s ∨ t = -s := by
    intro s t
    cases s <;> cases t
    · exact .inl rfl
    · exact .inr rfl
    · exact .inr rfl
    · exact .inl rfl
  cases u with
  | notANumber => cases v <;> exact .inl rfl
  | infinity s =>
    cases v with
    | notANumber => exact .inl rfl
    | infinity t =>
      obtain rfl | rfl := hsigns s t
      · exact .inl rfl
      · exact .inr (by cases s <;> rfl)
    | zero t => exact .inr (by cases s <;> rfl)
    | finite t n f pos' => exact .inr (by cases s <;> rfl)
  | zero s =>
    cases v with
    | notANumber => exact .inl rfl
    | infinity t => exact .inr rfl
    | zero t =>
      obtain rfl | rfl := hsigns s t
      · exact .inl rfl
      · exact .inr (by cases s <;> rfl)
    | finite t n f pos' => exact .inr rfl
  | finite s m e pos =>
    cases v with
    | notANumber => exact .inl rfl
    | infinity t => exact .inr rfl
    | zero t => exact .inr (by cases s <;> rfl)
    | finite t n f pos' =>
      simp only [UnpackedFloat.sub]
      rw [min_comm f e]
      generalize s.apply (decreaseExponent m e (min e f)).1 = a
      generalize t.apply (decreaseExponent n f (min e f)).1 = b
      by_cases h : b - a = 0
      · have hzero : a - b = 0 := by omega
        rw [h, hzero]
        exact .inl rfl
      · rw [← normalize_neg h, neg_sub]
        exact .inr rfl

/-- Two doubles are the same, or one is the negative of the other. -/
def Mirrored (x y : Float) : Prop := x = y ∨ x = -y

/-- The difference of two doubles either way round is the same up to the sign. -/
theorem mirrored_sub (x y : Float) : Mirrored (x - y) (y - x) := by
  obtain h | h := unpackedSub_swap x.toModel.unpack y.toModel.unpack
  · exact .inl (congrArg (fun form => Float.ofModel (.pack form)) h)
  · refine .inr ?_
    calc x - y = Float.ofModel (.pack (UnpackedFloat.sub Format.binary64 y.toModel.unpack x.toModel.unpack).neg) :=
        congrArg (fun form => Float.ofModel (.pack form)) h
      _ = -(y - x) := ofModel_pack_neg _

/-- Multiplication by one double keeps doubles the same up to the sign. -/
theorem Mirrored.mul (h : Mirrored x y) (c : Float) : Mirrored (x * c) (y * c) := by
  rcases h with rfl | rfl
  · exact .inl rfl
  · exact .inr (negate_mul y c)

/-- Division by one double keeps doubles the same up to the sign. -/
theorem Mirrored.div (h : Mirrored x y) (c : Float) : Mirrored (x / c) (y / c) := by
  rcases h with rfl | rfl
  · exact .inl rfl
  · exact .inr (negate_div y c)

/-- An odd function keeps doubles the same up to the sign. -/
theorem Mirrored.map (h : Mirrored x y) {f : Float → Float} (hodd : ∀ z, f (-z) = -f z) : Mirrored (f x) (f y) := by
  rcases h with rfl | rfl
  · exact .inl rfl
  · exact .inr (hodd y)

/-- Doubles that are the same up to the sign have the same square. -/
theorem Mirrored.mul_self (h : Mirrored x y) : x * x = y * y := by
  rcases h with rfl | rfl
  · rfl
  · rw [negate_mul, mul_swap, negate_mul, negate_negate]

/-- A zero is the one without a minus sign or its negative. -/
theorem mirrored_zero (h : StandsAt x 0) : Mirrored x 0 := by
  obtain ⟨sign, hform⟩ := unpack_of_standsAt_zero h
  rw [← ofModel_pack_unpack x, hform]
  cases sign
  · exact .inr (by decide)
  · exact .inl (by decide)

/-- The least double above zero stands right behind zero. -/
theorem nearestPlace_least : nearestPlace (2 ^ (-1074 : ℤ)) = 1 := by
  have hpos : (0 : ℚ) ≤ 2 ^ (-1074 : ℤ) := by positivity
  have hunits := @nearestMagnitude_units 1 (-1074) le_rfl (by decide) (.inl rfl)
  have hmagnitude : min infiniteMagnitude (magnitudeAt (-1074) 1) = 1 := by decide
  rw [Nat.cast_one, one_mul, hmagnitude] at hunits
  rw [nearestPlace, if_neg (not_lt.mpr hpos), hunits, Nat.cast_one]

/-- A sum of finite doubles stands at zero only where the exact sum is zero: both are numbers of the least double above
zero, and so is their sum. -/
theorem valueOf_add_eq_zero (hx : x.isFinite = true) (hy : y.isFinite = true) (h : StandsAt (x + y) 0) :
    valueOf x + valueOf y = 0 := by
  have hplace : nearestPlace (valueOf x + valueOf y) = 0 := (standsAt_add hx hy).2.symm.trans h.2
  obtain ⟨m, hm⟩ := (valueOf_on_grid hx (le_refl (-1074))).resolve_right (fun hover => lt_irrefl _ hover.1)
  obtain ⟨n, hn⟩ := (valueOf_on_grid hy (le_refl (-1074))).resolve_right (fun hover => lt_irrefl _ hover.1)
  have hpos : (0 : ℚ) ≤ 2 ^ (-1074 : ℤ) := by positivity
  have hleast := nearestPlace_least
  generalize (2 : ℚ) ^ (-1074 : ℤ) = least at hm hn hpos hleast
  have hbehind : ∀ k : ℤ, 0 < k → nearestPlace (k * least) ≠ 0 := by
    intro k hk
    have hmono := nearestPlace_mono (le_mul_of_one_le_left hpos (show (1 : ℚ) ≤ k by exact_mod_cast hk))
    omega
  have hsum : valueOf x + valueOf y = (m + n : ℤ) * least := by
    rw [hm, hn]
    push_cast
    ring
  rw [hsum] at hplace ⊢
  rcases lt_trichotomy (m + n) 0 with hneg | hzero | hmore
  · have hother := hbehind (-(m + n)) (by omega)
    rw [Int.cast_neg, neg_mul, nearestPlace_neg, hplace] at hother
    exact absurd rfl hother
  · rw [hzero, Int.cast_zero, zero_mul]
  · exact absurd hplace (hbehind _ hmore)

/-- A double without a minus sign and one of the opposite value make the zero without a minus sign. -/
theorem Unsigned.add_eq_zero (hx : Unsigned x) (hy : y.isFinite = true) (h : valueOf x + valueOf y = 0) :
    x + y = 0 := by
  have hvalue : valueOf y = -valueOf x := by linarith
  by_cases hzero : valueOf x = 0
  · have hstands := standsAt_valueOf hy
    rw [hvalue, hzero, neg_zero, nearestPlace_zero] at hstands
    obtain ⟨sign, hform⟩ := unpack_of_standsAt_zero hstands
    rw [hx.eq_zero hzero, ← ofModel_pack_unpack y, hform]
    cases sign <;> decide
  · have hopposite : y = -x := by
      refine eq_of_rank_eq ?_ (rank_ne_zero hy (by rw [hvalue]; exact neg_ne_zero.mpr hzero))
      rw [rank_of_isFinite hy, hvalue, nearestPlace_neg, (standsAt_neg hx.isFinite).2.2, rank_of_isFinite hx.isFinite]
    rw [hopposite, add_negate, sub_self_eq_zero hx.isFinite]

/-- A finite sum that is not below zero has no minus sign if its first part has none. -/
theorem Unsigned.add (hx : Unsigned x) (hy : y.isFinite = true) (hsum : (x + y).isFinite = true) (h : 0 ≤ x + y) :
    Unsigned (x + y) := by
  obtain hzero | hpos := (Binary64.valueOf_nonneg h hsum).eq_or_lt
  · have hstands := standsAt_valueOf hsum
    rw [← hzero, nearestPlace_zero] at hstands
    rw [hx.add_eq_zero hy (valueOf_add_eq_zero hx.isFinite hy hstands)]
    exact unsigned_zero
  · exact .of_pos hsum hpos

/-- The exact view of a finite double shows its sign bit. -/
theorem negative_of_view {negative : Bool} {mantissa : ℕ} {exponent : ℤ}
    (hview : view x = .finite negative mantissa exponent) : (Pattern.ofFloat x).negative = negative := by
  have hdenotes : Denotes _ _ x.toModel.unpack := (Pattern.ofFloat x).denotes
  have hsign : ∀ bit, isNegative (signOf bit) = bit := by decide
  unfold view at hview
  generalize (Pattern.ofFloat x).negative = bit at hdenotes ⊢
  generalize (Pattern.ofFloat x).magnitude = magnitude at hdenotes
  generalize x.toModel.unpack = form at hdenotes hview
  cases hdenotes with
  | zero => rw [← (Value.finite.inj hview).1, hsign]
  | finite pos low high hidden bounded sum => rw [← (Value.finite.inj hview).1, hsign]
  | infinity => contradiction
  | notANumber => contradiction

/-- A finite double that is packed from a form with the positive sign has no minus sign. -/
theorem unsigned_of_formSign {form : UnpackedFloat} (hfinite : (Float.ofModel (.pack form)).isFinite = true)
    (hsign : formSign form = .positive) : Unsigned (.ofModel (.pack form)) := by
  have hform : form ≠ .notANumber := by
    rintro rfl
    exact absurd hfinite (by decide)
  obtain ⟨magnitude, hmost, hbits, -⟩ := exists_toNat_pack hform
  obtain ⟨hnegative, -⟩ := Pattern.fields_of_toNat (p := .ofFloat (.ofModel (.pack form))) hbits hmost
  obtain ⟨negative, mantissa, exponent, hview⟩ := exists_view_of_isFinite hfinite
  have hplus : negative = false := by
    rw [← negative_of_view hview, hnegative, hsign]
    rfl
  exact ⟨mantissa, exponent, hplus ▸ hview⟩

/-- The square of a finite double has no minus sign, as long as it is finite. -/
theorem unsigned_mul_self (hx : x.isFinite = true) (h : (x * x).isFinite = true) : Unsigned (x * x) := by
  have hform := isForm_unpack hx
  refine @unsigned_of_formSign (UnpackedFloat.mul Format.binary64 x.toModel.unpack x.toModel.unpack) h ?_
  generalize x.toModel.unpack = form at hform
  cases hform with
  | zero sign => cases sign <;> rfl
  | finite sign pos low high hidden =>
    have hsign : sign * sign = .positive := by cases sign <;> rfl
    rw [UnpackedFloat.mul, hsign]
    exact formSign_roundWithAccuracy _ _ _ _

end FlightPlanner.Binary64
