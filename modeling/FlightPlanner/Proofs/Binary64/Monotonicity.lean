import FlightPlanner.Proofs.Binary64.Intervals

/-!
# Arithmetic keeps the order of amounts

An amount is a double from zero upwards, the infinity above all numbers included. Sums and quotients of greater amounts
are not smaller, also where they leave the finite doubles, and neither are products of greater finite amounts. What is
left of a finite double, and at least zero, is not greater when more is taken away.
-/

namespace FlightPlanner.Binary64

open Float.Model Float.Model.UnpackedFloat

variable {x y z w : Float}

/-- The order of doubles is reflexive on numbers and infinities. -/
theorem le_refl_number (h : x.isNaN = false) : x ≤ x := (le_iff_rank h h).mpr le_rfl

/-- What has the form of the infinity above all numbers is this infinity. -/
theorem eq_infinity_of_unpack (h : x.toModel.unpack = .infinity .positive) : x = infinity false := by
  rw [← ofModel_pack_unpack x, h]
  rfl

/-- An amount is finite with a value that is not below zero, or it is the infinity above all numbers. -/
theorem amount_cases (h : 0 ≤ x) : x.isFinite = true ∧ 0 ≤ valueOf x ∨ x = infinity false := by
  have hnumber := (isNaN_of_le h).2
  have hneg : ¬ x < 0 := (not_lt_iff_le (by decide) hnumber).mpr h
  rcases cases_of_not_neg hneg with hnan | hfinite | hinfinite
  · rw [hnumber] at hnan
    contradiction
  · exact .inl hfinite
  · exact .inr (eq_infinity_of_unpack hinfinite)

/-- The place of the infinity above all numbers. -/
theorem rank_infinity : rank (infinity false) = infiniteMagnitude := by rfl

/-- No double is beyond the infinity above all numbers. -/
theorem le_infinity (h : x.isNaN = false) : x ≤ infinity false := by
  obtain ⟨negative, magnitude, hdenotes, hrank⟩ := denotes_rank x
  have hform : x.toModel.unpack.isNaN = false := h
  rw [le_iff_rank h (by decide), rank_infinity, hrank]
  generalize x.toModel.unpack = form at hdenotes hform
  cases hdenotes with
  | zero => cases negative <;> simp [signed]
  | finite pos low high hidden bounded sum =>
    simp only [signed, infiniteMagnitude]
    split <;> omega
  | infinity => cases negative <;> simp [signed, infiniteMagnitude]
  | notANumber => contradiction

/-- An amount added to the infinity above all numbers, on either side, gives this infinity. -/
theorem add_infinity (h : 0 ≤ x) : x + infinity false = infinity false ∧ infinity false + x = infinity false := by
  rcases amount_cases h with ⟨hfinite, -⟩ | rfl
  · have hform := isForm_unpack hfinite
    change Float.ofModel (.pack (UnpackedFloat.add Format.binary64 x.toModel.unpack (.infinity .positive))) = _ ∧
      Float.ofModel (.pack (UnpackedFloat.add Format.binary64 (.infinity .positive) x.toModel.unpack)) = _
    generalize x.toModel.unpack = form at hform
    cases hform <;> exact ⟨rfl, rfl⟩
  · exact ⟨rfl, rfl⟩

/-- The sum of amounts is an amount. -/
theorem amount_add (hx : 0 ≤ x) (hy : 0 ≤ y) : 0 ≤ x + y := by
  have htop : 0 ≤ infinity false := le_infinity (by decide)
  rcases amount_cases hx with ⟨hfx, hvx⟩ | rfl
  · rcases amount_cases hy with ⟨hfy, hvy⟩ | rfl
    · rw [← not_lt_iff_le (by decide) (standsAt_add hfx hfy).1]
      exact not_neg_of_standsAt (standsAt_add hfx hfy) (add_nonneg hvx hvy)
    · rwa [(add_infinity hx).1]
  · rwa [(add_infinity hy).2]

/-- Greater amounts have no smaller sum. -/
theorem sum_le_sum (hx : 0 ≤ x) (hz : 0 ≤ z) (hxy : x ≤ y) (hzw : z ≤ w) : x + z ≤ y + w := by
  have hnumber := (isNaN_of_le (amount_add hx hz)).2
  have hy := le_trans_number hx hxy
  have hw := le_trans_number hz hzw
  rcases amount_cases hy with ⟨hfy, -⟩ | rfl
  · rcases amount_cases hw with ⟨hfw, -⟩ | rfl
    · have hfx : x.isFinite = true := isFinite_of_between (by decide) hfy hx hxy
      have hfz : z.isFinite = true := isFinite_of_between (by decide) hfw hz hzw
      refine le_of_standsAt (standsAt_add hfx hfz) (standsAt_add hfy hfw) ?_
      exact add_le_add ((le_iff_valueOf hfx hfy).mp hxy) ((le_iff_valueOf hfz hfw).mp hzw)
    · rw [(add_infinity hy).1]
      exact le_infinity hnumber
  · rw [(add_infinity hw).2]
    exact le_infinity hnumber

/-- The value of a finite amount is not below zero. -/
theorem valueOf_nonneg (h : 0 ≤ x) (hfinite : x.isFinite = true) : 0 ≤ valueOf x :=
  (not_neg_iff_valueOf hfinite).mp ((not_lt_iff_le (by decide) (isNaN_of_isFinite hfinite)).mpr h)

/-- The product of finite amounts is an amount. -/
theorem amount_mul (hx : 0 ≤ x) (hy : 0 ≤ y) (hfx : x.isFinite = true) (hfy : y.isFinite = true) : 0 ≤ x * y := by
  have hstands := standsAt_mul hfx hfy
  rw [← not_lt_iff_le (by decide) hstands.1]
  exact not_neg_of_standsAt hstands (mul_nonneg (valueOf_nonneg hx hfx) (valueOf_nonneg hy hfy))

/-- Greater finite amounts have no smaller product. -/
theorem product_le_product (hx : 0 ≤ x) (hz : 0 ≤ z) (hxy : x ≤ y) (hzw : z ≤ w) (hfy : y.isFinite = true)
    (hfw : w.isFinite = true) : x * z ≤ y * w := by
  have hfx : x.isFinite = true := isFinite_of_between (by decide) hfy hx hxy
  have hfz : z.isFinite = true := isFinite_of_between (by decide) hfw hz hzw
  have hvz := valueOf_nonneg hz hfz
  have hvy := valueOf_nonneg (le_trans_number hx hxy) hfy
  refine le_of_standsAt (standsAt_mul hfx hfz) (standsAt_mul hfy hfw) ?_
  exact mul_le_mul ((le_iff_valueOf hfx hfy).mp hxy) ((le_iff_valueOf hfz hfw).mp hzw) hvz hvy

/-- The infinity above all numbers over a number above zero is this infinity. -/
theorem infinity_div (hy : y.isFinite = true) (hpos : 0 < y) : infinity false / y = infinity false := by
  obtain ⟨mantissa, exponent, hmantissa, hform⟩ := (isForm_unpack hy).sign_of_pos (valueOf_pos hy hpos)
  change Float.ofModel (.pack (UnpackedFloat.div Format.binary64 (.infinity .positive) y.toModel.unpack)) = _
  rw [hform]
  rfl

/-- Of two numbers the greater one has no smaller quotient by a number above zero. -/
theorem quotient_le_quotient (hx : 0 ≤ x) (hxy : x ≤ y) (hz : z.isFinite = true) (hpos : 0 < z) :
    0 ≤ x / z ∧ x / z ≤ y / z := by
  have hvalue := valueOf_pos hz hpos
  have hamount : ∀ {u : Float}, 0 ≤ u → 0 ≤ u / z := by
    intro u hu
    rcases amount_cases hu with ⟨hfu, hvu⟩ | rfl
    · have hstands := standsAt_div hfu hz hvalue.ne'
      rw [← not_lt_iff_le (by decide) hstands.1]
      exact not_neg_of_standsAt hstands (div_nonneg hvu hvalue.le)
    · rw [infinity_div hz hpos]
      exact le_infinity (by decide)
  refine ⟨hamount hx, ?_⟩
  rcases amount_cases (le_trans_number hx hxy) with ⟨hfy, -⟩ | rfl
  · have hfx : x.isFinite = true := isFinite_of_between (by decide) hfy hx hxy
    refine le_of_standsAt (standsAt_div hfx hz hvalue.ne') (standsAt_div hfy hz hvalue.ne') ?_
    exact div_le_div_of_nonneg_right ((le_iff_valueOf hfx hfy).mp hxy) hvalue.le
  · rw [infinity_div hz hpos]
    exact le_infinity (isNaN_of_le (hamount hx)).2

/-- What is at least zero is an amount. -/
theorem atLeastZero_nonneg (x : Float) : 0 ≤ atLeastZero x := by
  unfold atLeastZero
  split
  · next hpos =>
    obtain ⟨hzero, hx⟩ := isNaN_of_lt hpos
    rw [lt_iff_rank hzero hx] at hpos
    exact (le_iff_rank hzero hx).mpr hpos.le
  · exact le_refl_number (by decide)

/-- Bringing doubles up to zero keeps their order. -/
theorem atLeastZero_mono (h : x ≤ y) : atLeastZero x ≤ atLeastZero y := by
  by_cases hpos : 0 < x
  · have hpos' : 0 < y := lt_of_lt_of_le_number hpos h
    rw [atLeastZero, atLeastZero, if_pos hpos, if_pos hpos']
    exact h
  · rw [atLeastZero, if_neg hpos]
    exact atLeastZero_nonneg y

/-- Bringing a finite double up to zero leaves it finite. -/
theorem isFinite_atLeastZero (h : x.isFinite = true) : (atLeastZero x).isFinite = true := by
  unfold atLeastZero
  split
  · exact h
  · decide

/-- Of two finite doubles the greater one leaves no more of a third. -/
theorem difference_le_difference (hz : z.isFinite = true) (hx : x.isFinite = true) (hy : y.isFinite = true)
    (hxy : x ≤ y) : z - y ≤ z - x :=
  le_of_standsAt (standsAt_sub hz hy) (standsAt_sub hz hx)
    (sub_le_sub_left ((le_iff_valueOf hx hy).mp hxy) (valueOf z))

/-- The infinity above all numbers leaves nothing of a finite double. -/
theorem atLeastZero_sub_infinity (hz : z.isFinite = true) : atLeastZero (z - infinity false) = 0 := by
  have hdifference : z - infinity false = infinity true := by
    have hform := isForm_unpack hz
    change Float.ofModel (.pack (UnpackedFloat.sub Format.binary64 z.toModel.unpack (.infinity .positive))) = _
    generalize z.toModel.unpack = form at hform ⊢
    cases hform <;> rfl
  have hbelow : ¬ 0 < infinity true := by decide
  rw [hdifference, atLeastZero, if_neg hbelow]

end FlightPlanner.Binary64
