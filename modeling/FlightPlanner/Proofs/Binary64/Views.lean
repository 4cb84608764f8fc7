import FlightPlanner.Proofs.Binary64.RoundingError

/-!
# The exact view of a double

What is seen of a finite double is a sign, a mantissa and an exponent. They are within bounds, and with them its place
and its value are known. Among doubles without a minus sign the value alone tells which one it is.
-/

namespace FlightPlanner.Binary64

open Float.Model Float.Model.UnpackedFloat

variable {x y : Float} {negative : Bool} {mantissa : ℕ} {exponent : ℤ}

/-- The exact view of a finite double is that of a number. -/
theorem exists_view_of_isFinite (h : x.isFinite = true) :
    ∃ negative mantissa exponent, view x = .finite negative mantissa exponent := by
  have hform : x.toModel.unpack.isFinite = true := h
  unfold view
  generalize x.toModel.unpack = form at hform
  cases form with
  | zero sign => exact ⟨_, _, _, rfl⟩
  | finite sign mantissa exponent pos => exact ⟨_, _, _, rfl⟩
  | infinity sign => contradiction
  | notANumber => contradiction

/-- Only a finite double is seen as a number. -/
theorem isFinite_of_view (hview : view x = .finite negative mantissa exponent) : x.isFinite = true := by
  change x.toModel.unpack.isFinite = true
  unfold view at hview
  generalize x.toModel.unpack = form at hview
  cases form with
  | zero sign => rfl
  | finite sign mantissa exponent pos => rfl
  | infinity sign => contradiction
  | notANumber => contradiction

/-- The bounds of the mantissa and the exponent of a finite double other than zero. -/
theorem view_bounds (h : x.isFinite = true) (hview : view x = .finite negative mantissa exponent) (hne : mantissa ≠ 0) :
    mantissa < 0x20000000000000 ∧ -1074 ≤ exponent ∧ exponent ≤ 971 := by
  obtain ⟨sign, magnitude, hdenotes, -⟩ := denotes_rank x
  have hfinite : x.toModel.unpack.isFinite = true := h
  unfold view at hview
  generalize x.toModel.unpack = form at hdenotes hfinite hview
  cases hdenotes with
  | zero =>
    cases hview
    exact absurd rfl hne
  | finite pos low high hidden bounded sum =>
    cases hview
    omega
  | infinity => contradiction
  | notANumber => contradiction

/-- The exact view of a finite double other than zero says where it stands and what its value is. -/
theorem view_rank (hview : view x = .finite negative mantissa exponent) (hne : mantissa ≠ 0) :
    (exponent = -1074 ∨ 0x10000000000000 ≤ mantissa) ∧ rank x = signed negative (magnitudeAt exponent mantissa) ∧
      valueOf x = (signOf negative).apply 1 * (mantissa * 2 ^ exponent) := by
  obtain ⟨sign, magnitude, hdenotes, hrank⟩ := denotes_rank x
  unfold valueOf
  unfold view at hview
  generalize x.toModel.unpack = form at hdenotes hview
  cases hdenotes with
  | zero =>
    cases hview
    exact absurd rfl hne
  | @finite _ units place pos low high hidden bounded sum =>
    obtain ⟨hsign, rfl, rfl⟩ := Value.finite.inj hview
    obtain rfl : sign = negative := by
      rw [← hsign]
      cases sign <;> rfl
    have hmagnitude : magnitude = magnitudeAt place units := by
      unfold magnitudeAt
      omega
    exact ⟨hidden, by rw [hrank, hmagnitude], rfl⟩
  | infinity => contradiction
  | notANumber => contradiction

/-- What is seen with no mantissa is the zero of its sign. -/
theorem view_zero (hview : view x = .finite negative 0 exponent) :
    x = .ofModel (.pack (.zero (signOf negative))) ∧ exponent = 0 ∧ valueOf x = 0 := by
  have hform : x.toModel.unpack = .zero (signOf negative) ∧ exponent = 0 := by
    unfold view at hview
    generalize x.toModel.unpack = form at hview
    cases form with
    | notANumber => contradiction
    | infinity sign => contradiction
    | zero sign => cases sign <;> cases hview <;> exact ⟨rfl, rfl⟩
    | finite sign mantissa exponent pos => exact absurd (Value.finite.inj hview).2.1 pos.ne'
  refine ⟨by rw [← hform.1, ofModel_pack_unpack], hform.2, ?_⟩
  rw [valueOf, hform.1]
  rfl

/-- A sign put in front of a finite double moves it to the other side of zero, and its value with it. -/
theorem signed_rank (negative : Bool) (h : y.isFinite = true) :
    rank (Decimal.signed negative y) = (signOf negative).apply 1 * rank y ∧
      valueOf (Decimal.signed negative y) = (signOf negative).apply 1 * valueOf y := by
  cases negative with
  | false => simp [Decimal.signed, signOf, Sign.apply]
  | true =>
    have hrank := (standsAt_neg h).2.2
    have hvalue := valueOf_neg h
    simp [Decimal.signed, signOf, Sign.apply, hrank, hvalue]

/-- A finite double without a minus sign, be it a zero or not. -/
def Unsigned (x : Float) : Prop := ∃ mantissa exponent, view x = .finite false mantissa exponent

/-- It is finite. -/
theorem Unsigned.isFinite (h : Unsigned x) : x.isFinite = true := by
  obtain ⟨mantissa, exponent, hview⟩ := h
  exact isFinite_of_view hview

/-- What is seen of it is its value, and has at most fifty-three bits. -/
theorem valueOf_of_view (hview : view x = .finite false mantissa exponent) :
    valueOf x = mantissa * 2 ^ exponent ∧ mantissa < 2 * 0x10000000000000 ∧ -1074 ≤ exponent := by
  by_cases hzero : mantissa = 0
  · subst hzero
    obtain ⟨-, hexponent, hvalue⟩ := view_zero hview
    rw [hvalue, hexponent]
    norm_num
  · obtain ⟨hbits, hlow, -⟩ := view_bounds (isFinite_of_view hview) hview hzero
    obtain ⟨-, -, hvalue⟩ := view_rank hview hzero
    refine ⟨?_, hbits, hlow⟩
    rw [hvalue, signOf]
    simp [Sign.apply]

/-- Its value is not below zero. -/
theorem Unsigned.valueOf_nonneg (h : Unsigned x) : 0 ≤ valueOf x := by
  obtain ⟨mantissa, exponent, hview⟩ := h
  rw [(valueOf_of_view hview).1]
  positivity

/-- A finite double whose value is above zero has no minus sign. -/
theorem Unsigned.of_pos (h : x.isFinite = true) (hpos : 0 < valueOf x) : Unsigned x := by
  obtain ⟨mantissa, exponent, pos, hform⟩ := (isForm_unpack h).sign_of_pos hpos
  refine ⟨mantissa, exponent, ?_⟩
  unfold view
  rw [hform]
  rfl

/-- Zero has no minus sign. -/
theorem unsigned_zero : Unsigned 0 := ⟨0, 0, by decide⟩

/-- One has no minus sign. -/
theorem unsigned_one : Unsigned 1 := ⟨0x10000000000000, -52, by decide⟩

/-- The value of zero. -/
theorem valueOf_zero : valueOf 0 = 0 := by rfl

/-- A double without a minus sign is at least zero. -/
theorem Unsigned.nonneg (h : Unsigned x) : 0 ≤ x := by
  rw [le_iff_valueOf (by decide) h.isFinite, valueOf_zero]
  exact h.valueOf_nonneg

/-- A double without a minus sign is not negative zero. -/
theorem Unsigned.ne_negative_zero (h : Unsigned x) : x ≠ -0 := by
  rintro rfl
  obtain ⟨mantissa, exponent, hview⟩ := h
  have hzero : view (-0) = .finite true 0 0 := by decide
  rw [hzero] at hview
  exact absurd (Value.finite.inj hview).1 (by decide)

/-- Without a minus sign there is one zero only. -/
theorem Unsigned.eq_zero (h : Unsigned x) (hvalue : valueOf x = 0) : x = 0 := by
  obtain ⟨mantissa, exponent, hview⟩ := h
  rw [(valueOf_of_view hview).1] at hvalue
  obtain hmantissa | hpower := mul_eq_zero.mp hvalue
  · obtain rfl : mantissa = 0 := by exact_mod_cast hmantissa
    rw [(view_zero hview).1]
    decide
  · exact absurd hpower (by positivity)

/-- A finite double with another value than zero stands elsewhere. -/
theorem rank_ne_zero (h : x.isFinite = true) (hvalue : valueOf x ≠ 0) : rank x ≠ 0 := by
  intro hrank
  rw [valueOf_eq_placeValue h, hrank] at hvalue
  exact hvalue (by simp [placeValue, magnitudeValue])

/-- Without a minus sign, doubles with the same value are the same. -/
theorem Unsigned.ext (hx : Unsigned x) (hy : Unsigned y) (h : valueOf x = valueOf y) : x = y := by
  by_cases hzero : valueOf x = 0
  · rw [hx.eq_zero hzero, hy.eq_zero (h ▸ hzero)]
  · refine eq_of_rank_eq ?_ (rank_ne_zero hx.isFinite hzero)
    rw [rank_of_isFinite hx.isFinite, rank_of_isFinite hy.isFinite, h]

end FlightPlanner.Binary64
