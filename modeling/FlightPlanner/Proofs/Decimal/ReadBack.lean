import FlightPlanner.Proofs.Binary64.Rounding
import FlightPlanner.Proofs.Decimal.Shortest

/-!
# What rounds to a double

The interval around a double holds just the numbers that are rounded to it. So the search for the fewest digits finds a
decimal that is rounded to the double, and whenever a decimal that is rounded to it has few digits, what the search
finds has hardly more.
-/

namespace FlightPlanner.Decimal

open Binary64

variable {i : Interval} {tie : Tie} {grid : ℤ} {point : ℕ} {mantissa : ℕ} {exponent : ℤ} {q r : ℚ}

/-- Whether a number is between the ends of an interval. The ends count where the interval is closed. -/
def Interval.Covers (i : Interval) (q : ℚ) : Prop :=
  if i.closed then i.low * 2 ^ i.exponent ≤ q ∧ q ≤ i.high * 2 ^ i.exponent
  else i.low * 2 ^ i.exponent < q ∧ q < i.high * 2 ^ i.exponent

/-- What an interval covers is not below its lower end and not above its upper end. -/
theorem Interval.Covers.bounds (h : i.Covers q) : i.low * 2 ^ i.exponent ≤ q ∧ q ≤ i.high * 2 ^ i.exponent := by
  unfold Covers at h
  split at h
  · exact h
  · exact ⟨h.1.le, h.2.le⟩

/-- What is between two numbers that an interval covers is covered too. -/
theorem Interval.Covers.between {low high : ℚ} (hlow : i.Covers low) (hhigh : i.Covers high) (hl : low ≤ q)
    (hh : q ≤ high) : i.Covers q := by
  unfold Covers at *
  split at hlow
  · next hclosed =>
    rw [if_pos hclosed] at hhigh ⊢
    exact ⟨hlow.1.trans hl, hh.trans hhigh.2⟩
  · next hopen =>
    rw [if_neg hopen] at hhigh ⊢
    exact ⟨hlow.1.trans_le hl, hh.trans_lt hhigh.2⟩

/-- The points of a grid that an interval contains are those that it covers. -/
theorem Interval.contains_iff : i.contains grid point = true ↔ i.Covers (point * 10 ^ grid) := by
  have hlow : i.low * i.numerator grid ≤ point * i.denominator grid ↔
      (i.low : ℚ) * 2 ^ i.exponent ≤ point * 10 ^ grid := by
    rw [← not_lt, i.lt_iff, not_lt]
  have hlow' : i.low * i.numerator grid < point * i.denominator grid ↔
      (i.low : ℚ) * 2 ^ i.exponent < point * 10 ^ grid := by
    rw [← not_le, i.le_iff, not_le]
  have hhigh := i.le_iff grid point i.high
  have hhigh' := i.lt_iff grid point i.high
  unfold Interval.contains Covers
  cases i.closed <;> simp [hlow, hlow', hhigh, hhigh']

/-- A grid with some point that an interval covers has a neighbour of the double that is picked, if the interval covers
the double. -/
theorem Interval.exists_pick?_of_covers (tie : Tie) (hmiddle : i.Covers (i.middle * 2 ^ i.exponent))
    (h : i.Covers (point * 10 ^ grid)) : ∃ found, i.pick? tie grid = some found := by
  obtain ⟨hbelow, habove⟩ := i.neighbours grid
  have hgrid : (0 : ℚ) < 10 ^ grid := by positivity
  refine exists_pick? tie ?_
  generalize i.middle * i.numerator grid / i.denominator grid = below at hbelow habove ⊢
  rw [i.le_iff] at hbelow
  rw [← Nat.add_one_mul, ← not_le, i.le_iff, not_le] at habove
  rw [contains_iff, contains_iff]
  rcases Nat.lt_or_ge below point with hmore | hless
  · right
    have hcast : ((below + 1 : ℕ) : ℚ) ≤ point := by exact_mod_cast hmore
    exact hmiddle.between h habove.le (mul_le_mul_of_nonneg_right hcast hgrid.le)
  · left
    have hcast : (point : ℚ) ≤ below := by exact_mod_cast hless
    exact h.between hmiddle (mul_le_mul_of_nonneg_right hcast hgrid.le) hbelow

/-- Units of two exponents come to one magnitude only if the exponents and the units are the same, or the units of the
one are a power of two more than fit. -/
theorem magnitudeAt_eq_iff {e f : ℤ} {m n : ℕ} (he : -1074 ≤ e) (hm : m < 2 * 0x10000000000000)
    (hm' : e = -1074 ∨ 0x10000000000000 ≤ m) (hf : -1074 ≤ f) (hn : n ≤ 2 * 0x10000000000000)
    (hn' : f = -1074 ∨ 0x10000000000000 ≤ n) :
    magnitudeAt f n = magnitudeAt e m ↔
      f = e ∧ n = m ∨ f + 1 = e ∧ n = 2 * 0x10000000000000 ∧ m = 0x10000000000000 := by
  unfold magnitudeAt
  omega

section Around

variable (hpos : 0 < mantissa) (hbits : mantissa < 2 * 0x10000000000000) (hlow : -1074 ≤ exponent)
  (hhidden : exponent = -1074 ∨ 0x10000000000000 ≤ mantissa) (hhigh : exponent ≤ 971)

include hpos in
/-- The interval around a double covers the double. -/
theorem Interval.covers_middle :
    (around mantissa exponent).Covers
      ((around mantissa exponent).middle * 2 ^ (around mantissa exponent).exponent) := by
  have hunit : (0 : ℚ) < 2 ^ (around mantissa exponent).exponent := by positivity
  have hlow : ((around mantissa exponent).low : ℚ) < (around mantissa exponent).middle := by
    exact_mod_cast (low_around exponent hpos).2
  have hhigh : ((around mantissa exponent).middle : ℚ) < (around mantissa exponent).high := by
    exact_mod_cast Nat.lt_add_of_pos_right (by decide)
  have h := And.intro (mul_lt_mul_of_pos_right hlow hunit) (mul_lt_mul_of_pos_right hhigh hunit)
  unfold Covers
  split
  · exact ⟨h.1.le, h.2.le⟩
  · exact h

include hpos in
/-- The interval around a double covers the numbers that are rounded to it in its own units, unless the double is a
power of two with a nearer neighbour below. -/
theorem Interval.covers_around_iff_of_regular (hq : 0 ≤ q)
    (hregular : ¬ (mantissa = 0x10000000000000 ∧ -1074 < exponent)) :
    (around mantissa exponent).Covers q ↔ roundEven (q / 2 ^ exponent) = mantissa := by
  have hunit : (0 : ℚ) < 2 ^ (exponent - 2) := by positivity
  have hends : ((4 * mantissa - 2 : ℕ) : ℚ) = 4 * (mantissa - 1 / 2) := by
    rw [Nat.cast_sub (by omega)]
    push_cast
    ring
  rw [roundEven_eq_iff (div_nonneg hq (by positivity)), IsNearest, four_quarters exponent, le_div_iff₀ (by positivity),
    lt_div_iff₀ (by positivity), div_le_iff₀ (by positivity), div_lt_iff₀ (by positivity)]
  unfold Covers around
  simp only [if_neg hregular, hends, decide_eq_true_eq]
  push_cast
  have hlow : 4 * ((mantissa : ℚ) - 1 / 2) * 2 ^ (exponent - 2) = (mantissa - 1 / 2) * (4 * 2 ^ (exponent - 2)) := by
    ring
  have hhigh : (4 * (mantissa : ℚ) + 2) * 2 ^ (exponent - 2) = (mantissa + 1 / 2) * (4 * 2 ^ (exponent - 2)) := by
    ring
  rw [hlow, hhigh]

/-- The interval around a power of two with a nearer neighbour below reaches from a quarter of a last place below it to
half of one above it. -/
theorem Interval.covers_around_iff_of_power (h : -1074 < exponent) :
    (around 0x10000000000000 exponent).Covers q ↔
      (4 * 0x10000000000000 - 1) * 2 ^ (exponent - 2) ≤ q ∧ q ≤ (4 * 0x10000000000000 + 2) * 2 ^ (exponent - 2) := by
  unfold Covers around
  norm_num [h]

/-- Above such a power of two its units are those in which a number is measured, below it they are halves of them. -/
theorem nearestMagnitude_near_power (h : -1074 < exponent) (hhigh : exponent ≤ 971)
    (hfrom : (4 * 0x10000000000000 - 1) * 2 ^ (exponent - 2) ≤ q)
    (hto : q ≤ (4 * 0x10000000000000 + 2) * 2 ^ (exponent - 2)) :
    nearestMagnitude q = magnitudeAt exponent 0x10000000000000 := by
  have hunit : (0 : ℚ) < 2 ^ (exponent - 2) := by positivity
  have hq : 0 ≤ q := le_trans (by positivity) hfrom
  have hfinite : magnitudeAt exponent 0x10000000000000 ≤ infiniteMagnitude := (magnitudeAt_lt (by decide) hhigh).le
  have hpower : ∀ bits : ℕ, (2 : ℚ) ^ (exponent - 2 + bits) = 2 ^ bits * 2 ^ (exponent - 2) := by
    intro bits
    rw [zpow_add₀ (by norm_num), zpow_natCast, mul_comm]
  rcases lt_or_ge q (2 ^ 54 * 2 ^ (exponent - 2)) with hless | hmore
  · have hexp : IsExponent q (exponent - 1) := by
      refine ⟨by omega, ?_, .inr ?_⟩
      · have htop := hpower 54
        rwa [← htop, show exponent - 2 + (54 : ℕ) = exponent - 1 + 53 by omega] at hless
      · have hbottom := hpower 53
        rw [show exponent - 1 + 52 = exponent - 2 + (53 : ℕ) by omega, hbottom]
        refine le_trans (mul_le_mul_of_nonneg_right ?_ hunit.le) hfrom
        norm_num
    have hround : roundEven (q / 2 ^ (exponent - 1)) = 2 * 0x10000000000000 := by
      rw [roundEven_eq_iff (div_nonneg hq (by positivity)), IsNearest, if_pos (by decide),
        two_zpow_sub_one (exponent - 1), sub_sub, le_div_iff₀ (by positivity), div_le_iff₀ (by positivity)]
      norm_num at hfrom hless ⊢
      constructor <;> linarith
    rw [hexp.nearestMagnitude_eq, hround, magnitudeAt_carry hexp.low, sub_add_cancel]
    exact min_eq_right hfinite
  · have hexp : IsExponent q exponent := by
      refine ⟨h.le, ?_, .inr ?_⟩
      · have htop := hpower 55
        rw [show exponent + 53 = exponent - 2 + (55 : ℕ) by omega, htop]
        refine hto.trans_lt (mul_lt_mul_of_pos_right ?_ hunit)
        norm_num
      · have hbottom := hpower 54
        rwa [show exponent + 52 = exponent - 2 + (54 : ℕ) by omega, hbottom]
    have hround : roundEven (q / 2 ^ exponent) = 0x10000000000000 := by
      rw [roundEven_eq_iff (div_nonneg hq (by positivity)), IsNearest, if_pos (by decide), four_quarters exponent,
        le_div_iff₀ (by positivity), div_le_iff₀ (by positivity)]
      norm_num at hto hmore ⊢
      constructor <;> linarith
    rw [hexp.nearestMagnitude_eq, hround]
    exact min_eq_right hfinite

include hbits hlow hhidden in
/-- What is rounded to a whole number of units that fifty-three bits hold is measured in these units, unless the number
of units is the least one that needs so many bits. -/
theorem isExponent_of_regular (hq : 0 ≤ q) (hregular : ¬ (mantissa = 0x10000000000000 ∧ -1074 < exponent))
    (h : roundEven (q / 2 ^ exponent) = mantissa) : IsExponent q exponent := by
  have hunit : (0 : ℚ) < 2 ^ exponent := by positivity
  have hbounds := ((roundEven_eq_iff (div_nonneg hq hunit.le)).mp h).bounds
  rw [le_div_iff₀ hunit, div_le_iff₀ hunit] at hbounds
  refine ⟨hlow, ?_, ?_⟩
  · have hmost : (mantissa : ℚ) + 1 ≤ 2 ^ 53 := by exact_mod_cast hbits
    rw [zpow_add₀ (by norm_num), mul_comm]
    refine hbounds.2.trans_lt (mul_lt_mul_of_pos_right ?_ hunit)
    rw [zpow_ofNat]
    linarith
  · refine or_iff_not_imp_left.mpr fun hleast => ?_
    have hmore : 0x10000000000000 + 1 ≤ mantissa := by omega
    have hcast : (2 : ℚ) ^ 52 + 1 ≤ mantissa := by exact_mod_cast hmore
    rw [zpow_add₀ (by norm_num), mul_comm]
    refine le_trans (mul_le_mul_of_nonneg_right ?_ hunit.le) hbounds.1
    rw [zpow_ofNat]
    linarith

include hbits hlow hhidden hhigh in
/-- A number that is rounded to a double is measured in its units, or in halves of them below a power of two. -/
theorem exponentOf_of_nearestMagnitude (h : nearestMagnitude q = magnitudeAt exponent mantissa) :
    exponentOf q = exponent ∧ roundEven (q / 2 ^ exponent) = mantissa ∨
      exponentOf q + 1 = exponent ∧ roundEven (q / 2 ^ (exponent - 1)) = 2 * 0x10000000000000 ∧
        mantissa = 0x10000000000000 := by
  have hexp := isExponent_exponentOf q
  have hfinite := magnitudeAt_lt hbits hhigh
  have hmagnitude :
      magnitudeAt (exponentOf q) (roundEven (q / 2 ^ exponentOf q)) = magnitudeAt exponent mantissa := by
    unfold nearestMagnitude at h
    omega
  rw [magnitudeAt_eq_iff hlow hbits hhidden hexp.low hexp.roundEven_le (or_iff_not_imp_left.mpr hexp.le_roundEven)]
    at hmagnitude
  rcases hmagnitude with ⟨hsame, hround⟩ | ⟨hnext, hround, hmantissa⟩
  · exact .inl ⟨hsame, hsame ▸ hround⟩
  · have hbefore : exponentOf q = exponent - 1 := by omega
    exact .inr ⟨hnext, hbefore ▸ hround, hmantissa⟩

/-- What is rounded to a power of two with a nearer neighbour below is not far from it, on either side. -/
theorem near_power_of_nearestMagnitude (hleast : -1074 < exponent) (hhigh : exponent ≤ 971) (hq : 0 ≤ q)
    (h : nearestMagnitude q = magnitudeAt exponent 0x10000000000000) :
    (4 * 0x10000000000000 - 1) * 2 ^ (exponent - 2) ≤ q ∧ q ≤ (4 * 0x10000000000000 + 2) * 2 ^ (exponent - 2) := by
  have hexp := isExponent_exponentOf q
  have hunit : (0 : ℚ) < 2 ^ (exponent - 2) := by positivity
  rcases exponentOf_of_nearestMagnitude (by decide) hleast.le (.inr le_rfl) hhigh h with
    ⟨hsame, hround⟩ | ⟨hnext, hround, -⟩
  · have hneeded := hexp.needed.resolve_left (by omega)
    rw [hsame, show exponent + 52 = exponent - 2 + 54 by ring, zpow_add₀ (by norm_num)] at hneeded
    have hto := ((roundEven_eq_iff (div_nonneg hq (by positivity))).mp hround).bounds.2
    rw [four_quarters exponent, div_le_iff₀ (by positivity)] at hto
    norm_num at hneeded hto ⊢
    constructor <;> linarith
  · have henough := hexp.enough
    have htop : exponentOf q + 53 = exponent - 2 + 54 := by omega
    rw [htop, zpow_add₀ (by norm_num)] at henough
    have hfrom := ((roundEven_eq_iff (div_nonneg hq (by positivity))).mp hround).bounds.1
    rw [two_zpow_sub_one (exponent - 1), sub_sub, le_div_iff₀ (by positivity)] at hfrom
    norm_num at henough hfrom ⊢
    constructor <;> linarith

include hpos hbits hlow hhidden hhigh in
/-- The interval around a double covers just the numbers that are rounded to it. -/
theorem Interval.covers_around_iff (hq : 0 ≤ q) :
    (around mantissa exponent).Covers q ↔ nearestMagnitude q = magnitudeAt exponent mantissa := by
  by_cases hregular : mantissa = 0x10000000000000 ∧ -1074 < exponent
  · obtain ⟨rfl, hleast⟩ := hregular
    rw [covers_around_iff_of_power hleast]
    exact ⟨fun h => nearestMagnitude_near_power hleast hhigh h.1 h.2, near_power_of_nearestMagnitude hleast hhigh hq⟩
  · rw [covers_around_iff_of_regular hpos hq hregular]
    constructor
    · intro hround
      rw [(isExponent_of_regular hbits hlow hhidden hq hregular hround).nearestMagnitude_eq, hround]
      exact min_eq_right (magnitudeAt_lt hbits hhigh).le
    · intro h
      rcases exponentOf_of_nearestMagnitude hbits hlow hhidden hhigh h with ⟨-, hround⟩ | ⟨hnext, -, hmantissa⟩
      · exact hround
      · exact absurd ⟨hmantissa, by have := (isExponent_exponentOf q).low; omega⟩ hregular

include hpos in
/-- What the interval around a double covers is at most half of a last place away from it. -/
theorem Interval.Covers.near (h : (around mantissa exponent).Covers q) :
    (mantissa - 1 / 2) * 2 ^ exponent ≤ q ∧ q ≤ (mantissa + 1 / 2) * 2 ^ exponent := by
  obtain ⟨hfrom, hto⟩ := h.bounds
  have hunit : (0 : ℚ) < 2 ^ (exponent - 2) := by positivity
  have hlow : (4 * mantissa - 2 : ℚ) ≤ (around mantissa exponent).low := by
    have hnat : 4 * mantissa ≤ (around mantissa exponent).low + 2 := by
      unfold around
      dsimp only
      split <;> omega
    have hcast : (4 * mantissa : ℚ) ≤ (around mantissa exponent).low + 2 := by exact_mod_cast hnat
    linarith
  have hhigh : ((around mantissa exponent).high : ℚ) = 4 * mantissa + 2 := by
    unfold around
    push_cast
    ring
  have hexponent : (around mantissa exponent).exponent = exponent - 2 := rfl
  rw [hexponent] at hfrom hto
  rw [hhigh] at hto
  rw [four_quarters exponent]
  constructor
  · linarith [mul_le_mul_of_nonneg_right hlow hunit.le]
  · linarith

/-- The interval around a double covers the decimal that is found for it. -/
theorem covers_shortest (tie : Tie) (hpos : 0 < mantissa) (hbits : mantissa < 0x20000000000000)
    (hlow : -1074 ≤ exponent) (hhigh : exponent ≤ 971) :
    let found := shortest tie mantissa exponent
    (Interval.around mantissa exponent).Covers (found.digits * 10 ^ found.exponent) :=
  Interval.contains_iff.mp (shortest_bounds tie hpos hbits hlow hhigh).1

/-- The steps of the coarsest grid that is tried are above half of the double, and those of the grid twenty-three powers
of ten further down go into it more often than fifty-three bits count. -/
theorem value_between_grids (hpos : 0 < mantissa) (hbits : mantissa < 0x20000000000000) (hlow : -1074 ≤ exponent)
    (hhigh : exponent ≤ 971) :
    ((mantissa : ℚ) + 1) * 2 ^ exponent ≤ 2 * 10 ^ gridAbove mantissa exponent ∧
      2 ^ 53 * (10 : ℚ) ^ (gridAbove mantissa exponent - 23) < mantissa * 2 ^ exponent := by
  obtain ⟨hstart, hend⟩ := gridAbove_between hpos hbits hlow hhigh
  have hunit : (0 : ℚ) < 2 ^ exponent := by positivity
  -- the mantissa is between two powers of two
  have hfloor : (2 : ℚ) ^ mantissa.log2 ≤ mantissa := by exact_mod_cast Nat.log2_self_le hpos.ne'
  have hceil : (mantissa : ℚ) + 1 ≤ 2 * 2 ^ mantissa.log2 := by
    rw [← pow_succ']
    exact_mod_cast Nat.lt_log2_self
  have hsplit : (2 : ℚ) ^ (mantissa.log2 + exponent) = 2 ^ mantissa.log2 * 2 ^ exponent := by
    rw [zpow_add₀ (by norm_num), zpow_natCast]
  rw [hsplit] at hstart
  constructor
  · calc ((mantissa : ℚ) + 1) * 2 ^ exponent ≤ 2 * 2 ^ mantissa.log2 * 2 ^ exponent :=
          mul_le_mul_of_nonneg_right hceil hunit.le
      _ ≤ 2 * 10 ^ gridAbove mantissa exponent := by
          rw [mul_assoc]
          exact mul_le_mul_of_nonneg_left hstart zero_le_two
  · calc 2 ^ 53 * (10 : ℚ) ^ (gridAbove mantissa exponent - 23) < 2 ^ 53 * 2 ^ (mantissa.log2 + exponent - 53) :=
          mul_lt_mul_of_pos_left hend (by positivity)
      _ = 2 ^ mantissa.log2 * 2 ^ exponent := by
          rw [← hsplit, ← zpow_natCast, ← zpow_add₀ (by norm_num), Nat.cast_ofNat, add_sub_cancel]
      _ ≤ mantissa * 2 ^ exponent := mul_le_mul_of_nonneg_right hfloor hunit.le

/-- A decimal with not too many digits that the interval around a double covers is not coarser than the one that is
found for it. -/
theorem le_exponent_of_covers (tie : Tie) (hpos : 0 < mantissa) (hbits : mantissa < 0x20000000000000)
    (hlow : -1074 ≤ exponent) (hhigh : exponent ≤ 971) (hpoint : 0 < point) (hdigits : point ≤ 9 * 10 ^ 15)
    (h : (Interval.around mantissa exponent).Covers (point * 10 ^ grid)) :
    grid ≤ (shortest tie mantissa exponent).exponent := by
  obtain ⟨hfrom, hto⟩ := h.near hpos
  obtain ⟨hmost, hleast⟩ := value_between_grids hpos hbits hlow hhigh
  have hunit : (0 : ℚ) < 2 ^ exponent := by positivity
  have hstep : (0 : ℚ) < 10 ^ grid := by positivity
  have hone : (1 : ℚ) ≤ point := by exact_mod_cast hpoint
  have hcount : (point : ℚ) ≤ 9 * 10 ^ 15 := by exact_mod_cast hdigits
  have hmantissa : (1 : ℚ) ≤ mantissa := by exact_mod_cast hpos
  have hbelow : grid ≤ gridAbove mantissa exponent := by
    have hlt : (10 : ℚ) ^ grid < 10 ^ (gridAbove mantissa exponent + 1) := by
      rw [zpow_add₀ (by norm_num), zpow_one]
      calc (10 : ℚ) ^ grid ≤ point * 10 ^ grid := le_mul_of_one_le_left hstep.le hone
        _ ≤ (mantissa + 1) * 2 ^ exponent := hto.trans (mul_le_mul_of_nonneg_right (by linarith) hunit.le)
        _ ≤ 2 * 10 ^ gridAbove mantissa exponent := hmost
        _ < 10 ^ gridAbove mantissa exponent * 10 := by
            have hgrid : (0 : ℚ) < 10 ^ gridAbove mantissa exponent := by positivity
            linarith
    have hexponents := (zpow_lt_zpow_iff_right₀ (by norm_num : (1 : ℚ) < 10)).mp hlt
    omega
  have habove : gridAbove mantissa exponent - 24 < grid := by
    have hlt : (10 : ℚ) ^ (gridAbove mantissa exponent - 23) < 10 ^ (grid + 1) := by
      rw [zpow_add₀ (by norm_num), zpow_one]
      have hhalf : (mantissa : ℚ) * 2 ^ exponent ≤ 2 * ((mantissa - 1 / 2) * 2 ^ exponent) := by
        rw [← mul_assoc]
        exact mul_le_mul_of_nonneg_right (by linarith) hunit.le
      have hfew : (point : ℚ) * 10 ^ grid ≤ 9 * 10 ^ 15 * 10 ^ grid := mul_le_mul_of_nonneg_right hcount hstep.le
      norm_num at hleast hfew
      linarith
    have hexponents := (zpow_lt_zpow_iff_right₀ (by norm_num : (1 : ℚ) < 10)).mp hlt
    omega
  exact (Interval.search_hit tie (Interval.around mantissa exponent) 24 habove hbelow
    (Interval.exists_pick?_of_covers tie (Interval.covers_middle hpos) h)).2

/-- Around a double with all its bits, what is found for it is hardly greater than what else the interval covers. -/
theorem shortest_le_of_covers (tie : Tie) (hlong : 0x10000000000000 ≤ mantissa) (hbits : mantissa < 0x20000000000000)
    (hlow : -1074 ≤ exponent) (hhigh : exponent ≤ 971) (h : (Interval.around mantissa exponent).Covers q) :
    let found := shortest tie mantissa exponent
    (found.digits : ℚ) * 10 ^ found.exponent ≤ q + q / 2 ^ 51 := by
  intro found
  have hpos : 0 < mantissa := by omega
  have hmantissa : (2 : ℚ) ^ 52 ≤ mantissa := by exact_mod_cast hlong
  have hunit : (0 : ℚ) < 2 ^ exponent := by positivity
  have hfound := ((covers_shortest tie hpos hbits hlow hhigh).near hpos).2
  have hfrom := (h.near hpos).1
  have hplace : (2 : ℚ) ^ exponent * 2 ^ 51 ≤ q := by
    refine le_trans ?_ hfrom
    rw [mul_comm]
    exact mul_le_mul_of_nonneg_right (by linarith) hunit.le
  rw [← le_div_iff₀ (by positivity)] at hplace
  linarith

end Around

end FlightPlanner.Decimal
