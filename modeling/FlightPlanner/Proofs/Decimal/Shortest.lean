import FlightPlanner.Decimal.Shortest
import Mathlib.Data.Int.Log
import Mathlib.Data.Rat.Floor
import Mathlib.Tactic

/-!
# The search for the fewest digits ends with a hit

The points of a grid that is finer than half a last place of a double cannot miss the decimals that round to it. The
search meets such a grid before its steps are used up, and starts above the double, so that the point it stops at
rounds to the double and has at most seventeen digits.
-/

namespace FlightPlanner.Decimal

variable {i : Interval} {tie : Tie} {grid : ℤ} {point : ℕ}

/-- Numerators are positive. -/
theorem Interval.numerator_pos (i : Interval) (grid : ℤ) : 0 < i.numerator grid :=
  Nat.mul_pos (Nat.pow_pos (by decide)) (Nat.pow_pos (by decide))

/-- Denominators are positive. -/
theorem Interval.denominator_pos (i : Interval) (grid : ℤ) : 0 < i.denominator grid :=
  Nat.mul_pos (Nat.pow_pos (by decide)) (Nat.pow_pos (by decide))

/-- A power is the quotient of one with a natural exponent and of another one, one of which is one. -/
theorem zpow_eq_div {b : ℚ} (hb : b ≠ 0) (e : ℤ) : b ^ e = b ^ e.toNat / b ^ (-e).toNat := by
  have hsplit : e = (e.toNat : ℤ) - ((-e).toNat : ℤ) := by omega
  conv_lhs => rw [hsplit, zpow_sub₀ hb, zpow_natCast, zpow_natCast]

/-- The numerator is to the denominator as the unit of the interval is to the step of the grid. -/
theorem Interval.numerator_mul (i : Interval) (grid : ℤ) :
    (i.numerator grid : ℚ) * 10 ^ grid = 2 ^ i.exponent * i.denominator grid := by
  have htwo := zpow_eq_div (b := 2) (by norm_num) i.exponent
  have hten := zpow_eq_div (b := 10) (by norm_num) grid
  unfold Interval.numerator Interval.denominator
  simp only [Nat.pow_eq, Nat.cast_mul, Nat.cast_pow, Nat.cast_ofNat]
  rw [htwo, hten]
  field_simp

/-- Steps of the grid are compared with units of the interval through numerator and denominator. -/
theorem Interval.lt_iff (i : Interval) (grid : ℤ) (steps units : ℕ) :
    steps * i.denominator grid < units * i.numerator grid ↔ (steps : ℚ) * 10 ^ grid < units * 2 ^ i.exponent := by
  have hden : (0 : ℚ) < i.denominator grid := by exact_mod_cast i.denominator_pos grid
  have hten : (0 : ℚ) < 10 ^ grid := by positivity
  have hunits : (units : ℚ) * i.numerator grid * 10 ^ grid = units * 2 ^ i.exponent * i.denominator grid := by
    rw [mul_assoc, i.numerator_mul, mul_assoc]
  have hsteps : (steps : ℚ) * i.denominator grid * 10 ^ grid = steps * 10 ^ grid * i.denominator grid := by ring
  rw [← Nat.cast_lt (α := ℚ), ← mul_lt_mul_iff_left₀ hten, Nat.cast_mul, Nat.cast_mul, hunits, hsteps,
    mul_lt_mul_iff_left₀ hden]

/-- The same for what is at most as great. -/
theorem Interval.le_iff (i : Interval) (grid : ℤ) (steps units : ℕ) :
    steps * i.denominator grid ≤ units * i.numerator grid ↔ (steps : ℚ) * 10 ^ grid ≤ units * 2 ^ i.exponent := by
  have hden : (0 : ℚ) < i.denominator grid := by exact_mod_cast i.denominator_pos grid
  have hten : (0 : ℚ) < 10 ^ grid := by positivity
  have hunits : (units : ℚ) * i.numerator grid * 10 ^ grid = units * 2 ^ i.exponent * i.denominator grid := by
    rw [mul_assoc, i.numerator_mul, mul_assoc]
  have hsteps : (steps : ℚ) * i.denominator grid * 10 ^ grid = steps * 10 ^ grid * i.denominator grid := by ring
  rw [← Nat.cast_le (α := ℚ), ← mul_le_mul_iff_left₀ hten, Nat.cast_mul, Nat.cast_mul, hunits, hsteps,
    mul_le_mul_iff_left₀ hden]

/-- What is contained in an interval is between its ends. -/
theorem Interval.contains_bounds (h : i.contains grid point = true) :
    i.low * i.numerator grid ≤ point * i.denominator grid ∧ point * i.denominator grid ≤ i.high * i.numerator grid := by
  unfold Interval.contains at h
  cases hclosed : i.closed <;> simp [hclosed] at h <;> omega

/-- What is strictly between the ends of an interval is contained in it. -/
theorem Interval.contains_of_lt (hlow : i.low * i.numerator grid < point * i.denominator grid)
    (hhigh : point * i.denominator grid < i.high * i.numerator grid) : i.contains grid point = true := by
  unfold Interval.contains
  cases i.closed <;> simp <;> omega

/-- What is picked rounds to the double. -/
theorem Interval.contains_of_pick? (h : i.pick? tie grid = some point) : i.contains grid point = true := by
  unfold Interval.pick? at h
  cases hbelow : i.contains grid (i.middle * i.numerator grid / i.denominator grid) <;>
    cases habove : i.contains grid (i.middle * i.numerator grid / i.denominator grid + 1) <;>
    simp only [hbelow, habove] at h
  · contradiction
  · exact Option.some.inj h ▸ habove
  · exact Option.some.inj h ▸ hbelow
  · split at h
    · exact Option.some.inj h ▸ hbelow
    · exact Option.some.inj h ▸ habove
    · cases tie with
      | up => exact Option.some.inj h ▸ habove
      | even =>
        obtain rfl := Option.some.inj h
        split
        · exact hbelow
        · exact habove

/-- Something is picked where one of the neighbours of the double rounds to it. -/
theorem Interval.exists_pick? (tie : Tie)
    (h : i.contains grid (i.middle * i.numerator grid / i.denominator grid) = true ∨
      i.contains grid (i.middle * i.numerator grid / i.denominator grid + 1) = true) :
    ∃ point, i.pick? tie grid = some point := by
  unfold Interval.pick?
  simp only
  split
  · next hbelow habove => simp [hbelow, habove] at h
  · exact ⟨_, rfl⟩
  · exact ⟨_, rfl⟩
  · split
    · exact ⟨_, rfl⟩
    · exact ⟨_, rfl⟩
    · cases tie <;> exact ⟨_, rfl⟩

/-- A search that comes by a grid with a hit ends with one, on this grid or on a coarser one. -/
theorem Interval.search_hit (tie : Tie) (i : Interval) (steps : ℕ) {start : ℤ} (hlow : start - steps < grid)
    (hhigh : grid ≤ start) (hhit : ∃ point, i.pick? tie grid = some point) :
    i.pick? tie (i.search tie steps start).exponent = some (i.search tie steps start).digits ∧
      grid ≤ (i.search tie steps start).exponent := by
  induction steps generalizing start with
  | zero => omega
  | succ steps ih =>
    unfold Interval.search
    cases hpick : i.pick? tie start with
    | some point => exact ⟨hpick, hhigh⟩
    | none =>
      have hne : grid ≠ start := by
        rintro rfl
        obtain ⟨point, hpoint⟩ := hhit
        rw [hpick] at hpoint
        contradiction
      exact ih (by push_cast at hlow; omega) (by omega)

/-- The neighbour below a double is not above it, and the one above it is. -/
theorem Interval.neighbours (i : Interval) (grid : ℤ) :
    i.middle * i.numerator grid / i.denominator grid * i.denominator grid ≤ i.middle * i.numerator grid ∧
      i.middle * i.numerator grid <
        i.middle * i.numerator grid / i.denominator grid * i.denominator grid + i.denominator grid :=
  ⟨Nat.div_mul_le_self _ _, Nat.lt_div_mul_add (i.denominator_pos grid)⟩

/-- Powers of two one exponent apart. -/
theorem two_zpow_sub_one (e : ℤ) : (2 : ℚ) ^ e = 2 * 2 ^ (e - 1) := by
  rw [← zpow_one_add₀ (by norm_num)]
  congr 1
  ring

/-- The last place of a double in quarters of it. -/
theorem four_quarters (exponent : ℤ) : (2 : ℚ) ^ exponent = 4 * 2 ^ (exponent - 2) := by
  rw [two_zpow_sub_one exponent, two_zpow_sub_one (exponent - 1), sub_sub, ← mul_assoc]
  norm_num

/-- A hundred thousand times the decimal logarithm of two is just below 30103. -/
theorem two_pow_le_ten_pow : 2 ^ 100000 ≤ 10 ^ 30103 ∧ 10 ^ 30103 ≤ 2 ^ 100001 := by decide +kernel

/-- Powers of ten with exponents in steps of 30103 are nearly powers of two with exponents in steps of 100000. -/
theorem ten_zpow_bounds {k : ℤ} (hlow : -1100 ≤ k) (hhigh : k ≤ 1100) :
    (2 : ℚ) ^ (100000 * k - 1100) ≤ 10 ^ (30103 * k) ∧ (10 : ℚ) ^ (30103 * k) ≤ 2 ^ (100000 * k + 1100) := by
  have hlower : (2 : ℚ) ^ (100000 : ℤ) ≤ 10 ^ (30103 : ℤ) := by exact_mod_cast two_pow_le_ten_pow.1
  have hupper : (10 : ℚ) ^ (30103 : ℤ) ≤ 2 ^ (100001 : ℤ) := by exact_mod_cast two_pow_le_ten_pow.2
  rw [zpow_mul 10]
  rcases le_total 0 k with hk | hk
  · constructor
    · calc (2 : ℚ) ^ (100000 * k - 1100) ≤ 2 ^ (100000 * k) := zpow_le_zpow_right₀ one_le_two (by omega)
        _ = (2 ^ (100000 : ℤ)) ^ k := zpow_mul 2 _ k
        _ ≤ (10 ^ (30103 : ℤ)) ^ k := zpow_le_zpow_left₀ hk (by positivity) hlower
    · calc ((10 : ℚ) ^ (30103 : ℤ)) ^ k ≤ (2 ^ (100001 : ℤ)) ^ k := zpow_le_zpow_left₀ hk (by positivity) hupper
        _ = 2 ^ (100001 * k) := (zpow_mul 2 _ k).symm
        _ ≤ 2 ^ (100000 * k + 1100) := zpow_le_zpow_right₀ one_le_two (by omega)
  · obtain ⟨n, rfl⟩ : ∃ n : ℤ, k = -n := ⟨-k, by omega⟩
    rw [zpow_neg]
    constructor
    · calc (2 : ℚ) ^ (100000 * -n - 1100) ≤ 2 ^ (-(100001 * n)) := zpow_le_zpow_right₀ one_le_two (by omega)
        _ = ((2 ^ (100001 : ℤ)) ^ n)⁻¹ := by rw [zpow_neg, zpow_mul]
        _ ≤ ((10 ^ (30103 : ℤ)) ^ n)⁻¹ :=
          inv_anti₀ (by positivity) (zpow_le_zpow_left₀ (by omega) (by positivity) hupper)
    · calc (((10 : ℚ) ^ (30103 : ℤ)) ^ n)⁻¹ ≤ ((2 ^ (100000 : ℤ)) ^ n)⁻¹ :=
          inv_anti₀ (by positivity) (zpow_le_zpow_left₀ (by omega) (by positivity) hlower)
        _ = 2 ^ (-(100000 * n)) := by rw [zpow_neg, zpow_mul]
        _ ≤ 2 ^ (100000 * -n + 1100) := zpow_le_zpow_right₀ one_le_two (by omega)

/-- The power of ten that a power of two is compared with is not below it, and not by twenty-three places above it. -/
theorem two_zpow_between {k : ℤ} (hlow : -1100 ≤ k) (hhigh : k ≤ 1100) :
    (2 : ℚ) ^ (k - 1) ≤ 10 ^ (k * 30103 / 100000 + 1) ∧
      (10 : ℚ) ^ (k * 30103 / 100000 + 1 - 23) < 2 ^ (k - 54) := by
  obtain ⟨hlower, hupper⟩ := ten_zpow_bounds hlow hhigh
  have hfloor : 30103 * k < 100000 * (k * 30103 / 100000 + 1) ∧ 100000 * (k * 30103 / 100000) ≤ 30103 * k := by omega
  generalize k * 30103 / 100000 = quotient at hfloor ⊢
  -- both sides are compared by their hundred thousandth powers
  have hpower : ∀ (b : ℚ) (e : ℤ), (b ^ e) ^ 100000 = b ^ (100000 * e) := by
    intro b e
    rw [← zpow_natCast, ← zpow_mul, mul_comm]
    rfl
  constructor
  · rw [← pow_le_pow_iff_left₀ (by positivity) (by positivity) (n := 100000) (by decide), hpower, hpower]
    calc (2 : ℚ) ^ (100000 * (k - 1)) ≤ 2 ^ (100000 * k - 1100) := zpow_le_zpow_right₀ one_le_two (by omega)
      _ ≤ 10 ^ (30103 * k) := hlower
      _ ≤ 10 ^ (100000 * (quotient + 1)) := zpow_le_zpow_right₀ (by norm_num) (by omega)
  · have hstep : (10 : ℚ) ^ (-22 : ℤ) ≤ 2 ^ (-73 : ℤ) := by norm_num
    rw [← pow_lt_pow_iff_left₀ (by positivity) (by positivity) (n := 100000) (by decide), hpower, hpower]
    calc (10 : ℚ) ^ (100000 * (quotient + 1 - 23)) = 10 ^ (100000 * quotient) * 10 ^ (100000 * (-22 : ℤ)) := by
          rw [← zpow_add₀ (by norm_num)]
          congr 1
          ring
      _ ≤ 10 ^ (30103 * k) * 10 ^ (100000 * (-22 : ℤ)) :=
          mul_le_mul_of_nonneg_right (zpow_le_zpow_right₀ (by norm_num) hfloor.2) (by positivity)
      _ ≤ 2 ^ (100000 * k + 1100) * 2 ^ (100000 * (-73 : ℤ)) := by
          rw [← hpower 10, ← hpower 2]
          exact mul_le_mul hupper (pow_le_pow_left₀ (by positivity) hstep _) (by positivity) (by positivity)
      _ = 2 ^ (100000 * k + 1100 + 100000 * (-73)) := (zpow_add₀ (by norm_num) _ _).symm
      _ < 2 ^ (100000 * (k - 54)) := zpow_lt_zpow_right₀ one_lt_two (by omega)

section Around

variable {mantissa : ℕ} {exponent : ℤ}

/-- The lower end of the interval around a double is above zero and at most a quarter of a last place too near. -/
theorem Interval.low_around (exponent : ℤ) (hpos : 0 < mantissa) :
    0 < (around mantissa exponent).low ∧ (around mantissa exponent).low < 4 * mantissa := by
  unfold around
  dsimp only
  split <;> omega

/-- On a grid that is finer than half of the last place, the neighbour above the double rounds to it. -/
theorem Interval.exists_pick?_of_fine (tie : Tie) (hpos : 0 < mantissa)
    (hgrid : (10 : ℚ) ^ grid < 2 ^ (exponent - 1)) :
    ∃ point, (around mantissa exponent).pick? tie grid = some point := by
  have hfine := ((around mantissa exponent).lt_iff grid 1 2).2 (by
    rw [two_zpow_sub_one (exponent - 1), sub_sub] at hgrid
    simpa [around] using hgrid)
  obtain ⟨hbelow, habove⟩ := (around mantissa exponent).neighbours grid
  have hlow := Nat.mul_le_mul_right ((around mantissa exponent).numerator grid)
    (low_around exponent hpos).2.le
  have hhigh : (around mantissa exponent).high * (around mantissa exponent).numerator grid =
      (around mantissa exponent).middle * (around mantissa exponent).numerator grid +
        2 * (around mantissa exponent).numerator grid := Nat.add_mul _ _ _
  have hmiddle : (around mantissa exponent).middle = 4 * mantissa := rfl
  rw [← hmiddle] at hlow
  refine exists_pick? tie (.inr (contains_of_lt ?_ ?_)) <;> rw [Nat.add_one_mul] <;> omega

/-- On a grid that is finer than the last place, one of the neighbours of the double rounds to it, unless the double is
a power of two with a nearer neighbour below. -/
theorem Interval.exists_pick?_of_regular (tie : Tie) (hpos : 0 < mantissa)
    (hregular : ¬ (mantissa = 0x10000000000000 ∧ -1074 < exponent)) (hgrid : (10 : ℚ) ^ grid < 2 ^ exponent) :
    ∃ point, (around mantissa exponent).pick? tie grid = some point := by
  have hfine := ((around mantissa exponent).lt_iff grid 1 4).2 (by
    rw [four_quarters exponent] at hgrid
    simpa [around] using hgrid)
  obtain ⟨hbelow, habove⟩ := (around mantissa exponent).neighbours grid
  have hlow : (around mantissa exponent).low * (around mantissa exponent).numerator grid +
      2 * (around mantissa exponent).numerator grid =
        (around mantissa exponent).middle * (around mantissa exponent).numerator grid := by
    rw [← Nat.add_mul]
    unfold around
    dsimp only
    rw [if_neg hregular]
    congr 1
    omega
  have hhigh : (around mantissa exponent).high * (around mantissa exponent).numerator grid =
      (around mantissa exponent).middle * (around mantissa exponent).numerator grid +
        2 * (around mantissa exponent).numerator grid := Nat.add_mul _ _ _
  have hnumerator := (around mantissa exponent).numerator_pos grid
  generalize hn : (around mantissa exponent).numerator grid = n at *
  generalize hd : (around mantissa exponent).denominator grid = d at *
  refine exists_pick? tie ?_
  rw [hn, hd]
  -- the nearer one of two neighbours that are less than a last place apart is within half of it
  by_cases hnear : (around mantissa exponent).middle * n < (around mantissa exponent).middle * n / d * d + 2 * n
  · left
    refine contains_of_lt ?_ ?_ <;> rw [hn, hd] <;> omega
  · right
    refine contains_of_lt ?_ ?_ <;> rw [hn, hd, Nat.add_one_mul] <;> omega

/-- The steps of the coarsest grid that is tried are not below the first bit of the double, and those of the grid
twenty-three powers of ten further down are below its fifty-fourth bit. -/
theorem gridAbove_between (hpos : 0 < mantissa) (hbits : mantissa < 0x20000000000000) (hlow : -1074 ≤ exponent)
    (hhigh : exponent ≤ 971) :
    (2 : ℚ) ^ (mantissa.log2 + exponent) ≤ 10 ^ gridAbove mantissa exponent ∧
      (10 : ℚ) ^ (gridAbove mantissa exponent - 23) < 2 ^ (mantissa.log2 + exponent - 53) := by
  have hlog : mantissa.log2 ≤ 52 := by
    rw [← Nat.lt_succ_iff, Nat.log2_lt (by omega)]
    exact hbits
  have hbetween := two_zpow_between (k := mantissa.log2 + 1 + exponent) (by omega) (by omega)
  have hstart : (mantissa.log2 : ℤ) + 1 + exponent - 1 = mantissa.log2 + exponent := by ring
  have hend : (mantissa.log2 : ℤ) + 1 + exponent - 54 = mantissa.log2 + exponent - 53 := by ring
  rwa [hstart, hend] at hbetween

/-- A search that is sure to hit on every grid finer than some power of two ends with a hit, and its point has at most
ten times as many steps of the grid as the interval has such units. -/
theorem Interval.search_around (tie : Tie) (units : ℤ) (hpos : 0 < mantissa) (hbits : mantissa < 0x20000000000000)
    (hlow : -1074 ≤ exponent) (hhigh : exponent ≤ 971) (hunits : exponent - 1 ≤ units ∧ units ≤ exponent)
    (hhit : ∀ grid : ℤ, (10 : ℚ) ^ grid < 2 ^ units →
      ∃ point, (around mantissa exponent).pick? tie grid = some point) :
    let found := shortest tie mantissa exponent
    (around mantissa exponent).contains found.exponent found.digits = true ∧ 0 < found.digits ∧
      (found.digits : ℚ) * 10 ^ found.exponent ≤ (4 * mantissa + 2) * 2 ^ (exponent - 2) ∧
      (found.digits : ℚ) * 2 ^ units ≤ 10 * ((4 * mantissa + 2) * 2 ^ (exponent - 2)) := by
  intro found
  have hlog : mantissa.log2 ≤ 52 := by
    rw [← Nat.lt_succ_iff, Nat.log2_lt (by omega)]
    exact hbits
  obtain ⟨hstart, hend⟩ := gridAbove_between hpos hbits hlow hhigh
  -- the finest grid that has to be tried
  have hfine : (10 : ℚ) ^ (Int.clog 10 ((2 : ℚ) ^ units) - 1) < 2 ^ units := by
    exact_mod_cast Int.zpow_pred_clog_lt_self (b := 10) (by norm_num) (by positivity : (0 : ℚ) < 2 ^ units)
  have hcoarse : (2 : ℚ) ^ units ≤ 10 ^ Int.clog 10 ((2 : ℚ) ^ units) := by
    exact_mod_cast Int.self_le_zpow_clog (b := 10) (by norm_num) ((2 : ℚ) ^ units)
  generalize Int.clog 10 ((2 : ℚ) ^ units) = fine at hfine hcoarse
  have hbelow : fine - 1 ≤ gridAbove mantissa exponent := by
    have hlt : (10 : ℚ) ^ (fine - 1) < 10 ^ gridAbove mantissa exponent := hfine.trans_le
      ((zpow_le_zpow_right₀ one_le_two (by omega)).trans hstart)
    exact ((zpow_lt_zpow_iff_right₀ (by norm_num)).1 hlt).le
  have habove : gridAbove mantissa exponent - 23 < fine := by
    have hlt : (10 : ℚ) ^ (gridAbove mantissa exponent - 23) < 10 ^ fine :=
      (hend.trans_le (zpow_le_zpow_right₀ one_le_two (by omega))).trans_le hcoarse
    exact (zpow_lt_zpow_iff_right₀ (by norm_num)).1 hlt
  obtain ⟨hpick, hexponent⟩ := search_hit tie (around mantissa exponent) 24 (by omega) hbelow (hhit _ hfine)
  obtain ⟨hfrom, hto⟩ := contains_bounds (contains_of_pick? hpick)
  have hvalue : (found.digits : ℚ) * 10 ^ found.exponent ≤ (4 * mantissa + 2) * 2 ^ (exponent - 2) := by
    have h := (le_iff _ _ _ _).1 hto
    unfold around at h
    exact_mod_cast h
  refine ⟨contains_of_pick? hpick, ?_, hvalue, ?_⟩
  · have hleast := Nat.mul_pos (low_around exponent hpos).1
      ((around mantissa exponent).numerator_pos found.exponent)
    exact Nat.pos_of_mul_pos_right (hleast.trans_le hfrom)
  · calc (found.digits : ℚ) * 2 ^ units ≤ found.digits * 10 ^ fine :=
          mul_le_mul_of_nonneg_left hcoarse (Nat.cast_nonneg _)
      _ = 10 * (found.digits * 10 ^ (fine - 1)) := by
          rw [← mul_assoc, mul_comm 10, mul_assoc, ← zpow_one_add₀ (by norm_num)]
          congr 2
          ring
      _ ≤ 10 * (found.digits * 10 ^ found.exponent) := by
          have hstep : (10 : ℚ) ^ (fine - 1) ≤ 10 ^ found.exponent := zpow_le_zpow_right₀ (by norm_num) hexponent
          gcongr
      _ ≤ 10 * ((4 * mantissa + 2) * 2 ^ (exponent - 2)) := by gcongr

/-- The fewest digits that read back as a positive double are in the interval around it, more than none and at most
seventeen, and the decimal is at most half of a last place above the double. -/
theorem shortest_bounds (tie : Tie) (hpos : 0 < mantissa) (hbits : mantissa < 0x20000000000000)
    (hlow : -1074 ≤ exponent) (hhigh : exponent ≤ 971) :
    let found := shortest tie mantissa exponent
    (Interval.around mantissa exponent).contains found.exponent found.digits = true ∧ 0 < found.digits ∧
      found.digits ≤ 10 * 0x20000000000000 + 10 ∧
      (found.digits : ℚ) * 10 ^ found.exponent ≤ (mantissa + 1 / 2) * 2 ^ exponent := by
  intro found
  have hplace := four_quarters exponent
  have hunit : (0 : ℚ) < 2 ^ (exponent - 2) := by positivity
  have hend : ((mantissa : ℚ) + 1 / 2) * 2 ^ exponent = (4 * mantissa + 2) * 2 ^ (exponent - 2) := by
    rw [hplace]
    ring
  rw [hend]
  by_cases hregular : mantissa = 0x10000000000000 ∧ -1074 < exponent
  · obtain ⟨rfl, -⟩ := hregular
    obtain ⟨hcontains, hdigits, hvalue, hcount⟩ := Interval.search_around tie (exponent - 1) hpos hbits hlow hhigh
      (by omega) (fun _ => Interval.exists_pick?_of_fine tie hpos)
    refine ⟨hcontains, hdigits, ?_, hvalue⟩
    have hhalf : (2 : ℚ) ^ (exponent - 1) = 2 * 2 ^ (exponent - 2) := by
      rw [two_zpow_sub_one (exponent - 1), sub_sub]
      rfl
    rw [hhalf, ← mul_assoc, ← mul_assoc, mul_le_mul_iff_left₀ hunit] at hcount
    push_cast at hcount
    have hcast : (found.digits : ℚ) ≤ (10 * 0x20000000000000 + 10 : ℕ) := by push_cast; linarith
    exact_mod_cast hcast
  · obtain ⟨hcontains, hdigits, hvalue, hcount⟩ := Interval.search_around tie exponent hpos hbits hlow hhigh
      (by omega) (fun _ => Interval.exists_pick?_of_regular tie hpos hregular)
    refine ⟨hcontains, hdigits, ?_, hvalue⟩
    rw [hplace, ← mul_assoc, ← mul_assoc, mul_le_mul_iff_left₀ hunit] at hcount
    have hmantissa : (mantissa : ℚ) ≤ 0x20000000000000 := by exact_mod_cast hbits.le
    have hcast : (found.digits : ℚ) ≤ (10 * 0x20000000000000 + 10 : ℕ) := by push_cast; linarith
    exact_mod_cast hcast

end Around

end FlightPlanner.Decimal
