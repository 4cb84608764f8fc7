import Mathlib.Data.Int.Log
import Mathlib.Data.Rat.Floor
import Mathlib.Tactic

/-!
# Rounding to the nearest magnitude

The magnitude of a double, its bits but for the sign read as one number, counts the doubles from zero on. The
magnitude nearest to a rational number depends on the number alone: the number is measured in units of its own
binade, the count of units is rounded to the nearest whole one, of two equally near ones to the even one, and the
binades are counted in front of it. A greater number never has a smaller nearest magnitude, and a number that is
that of a magnitude has this one.
-/

namespace FlightPlanner.Binary64

/-- The whole number nearest to one that is not below zero, of two equally near ones the even one. -/
def roundEven (x : ℚ) : ℕ :=
  if x < ⌊x⌋₊ + 1 / 2 then ⌊x⌋₊ else if x = ⌊x⌋₊ + 1 / 2 then ⌊x⌋₊ + ⌊x⌋₊ % 2 else ⌊x⌋₊ + 1

/-- Rounding goes at most one up from the whole part. -/
theorem floor_le_roundEven (x : ℚ) : ⌊x⌋₊ ≤ roundEven x ∧ roundEven x ≤ ⌊x⌋₊ + 1 := by
  unfold roundEven
  split
  · omega
  · split <;> omega

/-- A whole number is its own nearest one. -/
@[simp]
theorem roundEven_natCast (n : ℕ) : roundEven n = n := by
  simp [roundEven]

/-- A greater number has no smaller nearest whole one. -/
theorem roundEven_mono {x y : ℚ} (h : x ≤ y) : roundEven x ≤ roundEven y := by
  have hx := floor_le_roundEven x
  have hy := floor_le_roundEven y
  obtain hlt | heq : ⌊x⌋₊ < ⌊y⌋₊ ∨ ⌊x⌋₊ = ⌊y⌋₊ := (Nat.floor_le_floor h).lt_or_eq
  · omega
  · unfold roundEven
    rw [← heq]
    split
    · split
      · rfl
      · split <;> omega
    · next hhalf =>
      have hyhalf : ¬y < ⌊x⌋₊ + 1 / 2 := by linarith
      rw [if_neg hyhalf]
      split
      · split <;> omega
      · next hne =>
        have hyne : y ≠ ⌊x⌋₊ + 1 / 2 := fun heq => hne (le_antisymm (heq ▸ h) (not_lt.1 hhalf))
        rw [if_neg hyne]

/-- A number that is at least some whole one is not rounded below it. -/
theorem le_roundEven {n : ℕ} {x : ℚ} (h : (n : ℚ) ≤ x) : n ≤ roundEven x := by
  have := roundEven_mono h
  rwa [roundEven_natCast] at this

/-- A number that is at most some whole one is not rounded above it. -/
theorem roundEven_le {n : ℕ} {x : ℚ} (h : x ≤ n) : roundEven x ≤ n := by
  have := roundEven_mono h
  rwa [roundEven_natCast] at this

/-- Whether a whole number is at most half of one away from a number, and less than that if it is odd. -/
def IsNearest (x : ℚ) (n : ℕ) : Prop :=
  if n % 2 = 0 then (n : ℚ) - 1 / 2 ≤ x ∧ x ≤ n + 1 / 2 else (n : ℚ) - 1 / 2 < x ∧ x < n + 1 / 2

/-- A nearest whole number is at most half of one away. -/
theorem IsNearest.bounds {x : ℚ} {n : ℕ} (h : IsNearest x n) : (n : ℚ) - 1 / 2 ≤ x ∧ x ≤ n + 1 / 2 := by
  unfold IsNearest at h
  split at h
  · exact h
  · exact ⟨h.1.le, h.2.le⟩

/-- The whole number that a number is rounded to is nearest to it. -/
theorem isNearest_roundEven {x : ℚ} (hx : 0 ≤ x) : IsNearest x (roundEven x) := by
  have hlow := Nat.floor_le hx
  have hhigh := Nat.lt_floor_add_one x
  unfold IsNearest roundEven
  generalize ⌊x⌋₊ = whole at hlow hhigh
  split
  · next hdown =>
    split <;> constructor <;> linarith
  · next hup =>
    split
    · next hhalf =>
      rcases Nat.mod_two_eq_zero_or_one whole with heven | hodd
      · rw [heven, Nat.add_zero, if_pos heven]
        constructor <;> linarith
      · rw [hodd, if_pos (by omega)]
        push_cast
        constructor <;> linarith
    · next hnothalf =>
      have hmore : (whole : ℚ) + 1 / 2 < x := lt_of_le_of_ne (not_lt.mp hup) (Ne.symm hnothalf)
      push_cast
      split <;> constructor <;> linarith

/-- Of two different whole numbers that are nearest to a number none is the smaller one: they would be on both sides of
its half, and one of them odd. -/
theorem IsNearest.le {x : ℚ} {m n : ℕ} (hm : IsNearest x m) (hn : IsNearest x n) : m ≤ n := by
  by_contra hless
  have hnext : (n : ℚ) + 1 ≤ m := by exact_mod_cast not_le.mp hless
  have hlow := hm.bounds.1
  have hhigh := hn.bounds.2
  have hm' : m = n + 1 := by
    have hmost : (m : ℚ) ≤ n + 1 := by linarith
    exact le_antisymm (by exact_mod_cast hmost) (not_le.mp hless)
  subst hm'
  push_cast at hlow hnext
  unfold IsNearest at hm hn
  rcases Nat.mod_two_eq_zero_or_one n with heven | hodd
  · rw [if_neg (by omega)] at hm
    push_cast at hm
    linarith [hm.1]
  · rw [if_neg (by omega)] at hn
    linarith [hn.2]

/-- A number that is not below zero is rounded to the only whole number that is nearest to it. -/
theorem roundEven_eq_iff {x : ℚ} (hx : 0 ≤ x) {n : ℕ} : roundEven x = n ↔ IsNearest x n := by
  constructor
  · rintro rfl
    exact isNearest_roundEven hx
  · intro h
    exact le_antisymm ((isNearest_roundEven hx).le h) (h.le (isNearest_roundEven hx))

/-- The nearest whole number is at most half of one away. -/
theorem abs_roundEven_sub_le {x : ℚ} (hx : 0 ≤ x) : |(roundEven x : ℚ) - x| ≤ 1 / 2 := by
  obtain ⟨hlow, hhigh⟩ := (isNearest_roundEven hx).bounds
  rw [abs_le]
  constructor <;> linarith

/-- The exponent of the units in which a number is measured: fifty-three bits hold it, and none fewer unless the
exponent is the least one. -/
structure IsExponent (x : ℚ) (exponent : ℤ) : Prop where
  /-- The exponent is not below the least one. -/
  low : -1074 ≤ exponent
  /-- Fifty-three bits are enough. -/
  enough : x < 2 ^ (exponent + 53)
  /-- Fifty-two bits are too few, if the exponent is not the least one. -/
  needed : exponent = -1074 ∨ 2 ^ (exponent + 52) ≤ x

/-- The exponent of the units in which a number is measured. -/
def exponentOf (x : ℚ) : ℤ := if x < 2 ^ (-1022 : ℤ) then -1074 else Int.log 2 x - 52

/-- A number has the exponent that is found for it. -/
theorem isExponent_exponentOf (x : ℚ) : IsExponent x (exponentOf x) := by
  unfold exponentOf
  split
  · next h =>
    refine ⟨le_rfl, h.trans_le ?_, .inl rfl⟩
    exact zpow_le_zpow_right₀ (by norm_num) (by norm_num)
  · next h =>
    have hx : (2 : ℚ) ^ (-1022 : ℤ) ≤ x := not_lt.1 h
    have hpos : 0 < x := (by positivity : (0 : ℚ) < 2 ^ (-1022 : ℤ)).trans_le hx
    have hlog : -1022 ≤ Int.log 2 x := by
      have := (Int.zpow_le_iff_le_log (b := 2) (by norm_num) hpos).1 (by exact_mod_cast hx)
      exact this
    refine ⟨by omega, ?_, .inr ?_⟩
    · have := Int.lt_zpow_succ_log_self (b := 2) (by norm_num) x
      have heq : Int.log 2 x - 52 + 53 = Int.log 2 x + 1 := by omega
      rw [heq]
      exact_mod_cast this
    · have := Int.zpow_log_le_self (b := 2) (by norm_num) hpos
      have heq : Int.log 2 x - 52 + 52 = Int.log 2 x := by omega
      rw [heq]
      exact_mod_cast this

/-- A greater number is measured in units that are no smaller. -/
theorem IsExponent.le {x y : ℚ} {e f : ℤ} (he : IsExponent x e) (hf : IsExponent y f) (h : x ≤ y) : e ≤ f := by
  by_contra hlt
  have hne : e ≠ -1074 := by
    have := hf.low
    omega
  have hneeded : (2 : ℚ) ^ (e + 52) ≤ x := he.needed.resolve_left hne
  have hpow : (2 : ℚ) ^ (f + 53) ≤ 2 ^ (e + 52) := zpow_le_zpow_right₀ (by norm_num) (by omega)
  linarith [hf.enough]

/-- The exponent of a number is the only one. -/
theorem IsExponent.eq_exponentOf {x : ℚ} {e : ℤ} (h : IsExponent x e) : exponentOf x = e :=
  le_antisymm ((isExponent_exponentOf x).le h le_rfl) (h.le (isExponent_exponentOf x) le_rfl)

/-- The number of units that a number measures, rounded, has fifty-three bits, or is the next greater one. -/
theorem IsExponent.roundEven_le {x : ℚ} {e : ℤ} (h : IsExponent x e) :
    roundEven (x / 2 ^ e) ≤ 2 * 0x10000000000000 := by
  refine Binary64.roundEven_le ?_
  have hpos : (0 : ℚ) < 2 ^ e := by positivity
  have henough := h.enough
  rw [zpow_add₀ (by norm_num)] at henough
  rw [div_le_iff₀ hpos]
  norm_num at henough ⊢
  linarith

/-- Unless the exponent is the least one, it has the highest of the fifty-three bits. -/
theorem IsExponent.le_roundEven {x : ℚ} {e : ℤ} (h : IsExponent x e) (hne : e ≠ -1074) :
    0x10000000000000 ≤ roundEven (x / 2 ^ e) := by
  refine Binary64.le_roundEven ?_
  have hpos : (0 : ℚ) < 2 ^ e := by positivity
  have hneeded := h.needed.resolve_left hne
  rw [zpow_add₀ (by norm_num)] at hneeded
  rw [le_div_iff₀ hpos]
  norm_num at hneeded ⊢
  linarith

/-- The magnitude that some units of an exponent come to, if there were no infinity. -/
def magnitudeAt (exponent : ℤ) (units : ℕ) : ℕ := (exponent + 1074).toNat * 0x10000000000000 + units

/-- The magnitude of an infinity, which is beyond all numbers. -/
def infiniteMagnitude : ℕ := 0x7FF0000000000000

/-- The magnitude nearest to a number that is not below zero. -/
def nearestMagnitude (x : ℚ) : ℕ :=
  min infiniteMagnitude (magnitudeAt (exponentOf x) (roundEven (x / 2 ^ exponentOf x)))

/-- The magnitude of units that fifty-three bits hold is below that of an infinity, up to the greatest exponent. -/
theorem magnitudeAt_lt {exponent : ℤ} {units : ℕ} (hunits : units < 2 * 0x10000000000000) (hhigh : exponent ≤ 971) :
    magnitudeAt exponent units < infiniteMagnitude := by
  unfold magnitudeAt infiniteMagnitude
  omega

/-- Measured by its exponent, a number has the magnitude nearest to it. -/
theorem IsExponent.nearestMagnitude_eq {x : ℚ} {e : ℤ} (h : IsExponent x e) :
    nearestMagnitude x = min infiniteMagnitude (magnitudeAt e (roundEven (x / 2 ^ e))) := by
  rw [nearestMagnitude, h.eq_exponentOf]

/-- Units that are a power of two more than fit are the units of the next exponent. -/
theorem magnitudeAt_carry {e : ℤ} (he : -1074 ≤ e) :
    magnitudeAt e (2 * 0x10000000000000) = magnitudeAt (e + 1) 0x10000000000000 := by
  unfold magnitudeAt
  omega

/-- The number that a magnitude stands for. -/
def magnitudeValue (magnitude : ℕ) : ℚ :=
  if magnitude < 0x10000000000000 then magnitude * 2 ^ (-1074 : ℤ)
  else (magnitude % 0x10000000000000 + 0x10000000000000 : ℕ) * 2 ^ ((magnitude / 0x10000000000000 : ℕ) - 1075 : ℤ)

/-- The magnitude that some units of an exponent come to stands for these units. -/
theorem magnitudeValue_magnitudeAt {e : ℤ} {units : ℕ} (hlow : -1074 ≤ e) (hmost : units ≤ 2 * 0x10000000000000)
    (hhidden : e = -1074 ∨ 0x10000000000000 ≤ units) : magnitudeValue (magnitudeAt e units) = units * 2 ^ e := by
  obtain ⟨steps, hsteps⟩ := Int.eq_ofNat_of_zero_le (by omega : 0 ≤ e + 1074)
  obtain rfl : e = steps - 1074 := by omega
  have hmagnitude : magnitudeAt (steps - 1074) units = steps * 0x10000000000000 + units := by
    unfold magnitudeAt
    omega
  rw [hmagnitude, magnitudeValue]
  rcases lt_trichotomy units (2 * 0x10000000000000) with hless | heq | hmore
  · by_cases hshort : units < 0x10000000000000
    · obtain rfl : steps = 0 := by omega
      rw [if_pos (by omega)]
      norm_num
    · have hquotient : (steps * 0x10000000000000 + units) / 0x10000000000000 = steps + 1 := by omega
      have hrest : (steps * 0x10000000000000 + units) % 0x10000000000000 + 0x10000000000000 = units := by omega
      rw [if_neg (by omega), hquotient, hrest]
      congr 2
      push_cast
      ring
  · have hquotient : (steps * 0x10000000000000 + units) / 0x10000000000000 = steps + 2 := by omega
    have hrest : (steps * 0x10000000000000 + units) % 0x10000000000000 = 0 := by omega
    have hexponent : ((steps + 2 : ℕ) : ℤ) - 1075 = 1 + (steps - 1074) := by omega
    rw [if_neg (by omega), hquotient, hrest, hexponent, zpow_add₀ (by norm_num), heq]
    push_cast
    ring
  · omega

/-- A greater number has no smaller nearest magnitude. -/
theorem nearestMagnitude_mono {x y : ℚ} (h : x ≤ y) : nearestMagnitude x ≤ nearestMagnitude y := by
  have hx := isExponent_exponentOf x
  have hy := isExponent_exponentOf y
  unfold nearestMagnitude
  refine min_le_min_left _ ?_
  obtain hlt | heq := (hx.le hy h).lt_or_eq
  · -- the binade of the greater number starts where that of the other one ends at the latest
    have hlow := hx.low
    have hunits := hx.roundEven_le
    have hnormal := hy.le_roundEven (by omega)
    unfold magnitudeAt
    omega
  · rw [heq]
    refine Nat.add_le_add_left (roundEven_mono ?_) _
    exact div_le_div_of_nonneg_right h (by positivity)

/-- A whole number of units of its own exponent has the magnitude that they come to. -/
theorem nearestMagnitude_units {mantissa : ℕ} {e : ℤ} (hlow : -1074 ≤ e) (hhigh : mantissa < 2 * 0x10000000000000)
    (hhidden : e = -1074 ∨ 0x10000000000000 ≤ mantissa) :
    nearestMagnitude (mantissa * 2 ^ e) = min infiniteMagnitude (magnitudeAt e mantissa) := by
  have hpos : (0 : ℚ) < 2 ^ e := by positivity
  have hexp : IsExponent (mantissa * 2 ^ e) e := by
    refine ⟨hlow, ?_, hhidden.imp_right fun h => ?_⟩
    · rw [zpow_add₀ (by norm_num), mul_comm]
      refine mul_lt_mul_of_pos_left ?_ hpos
      norm_num
      exact_mod_cast hhigh
    · rw [zpow_add₀ (by norm_num), mul_comm (mantissa : ℚ)]
      refine mul_le_mul_of_nonneg_left ?_ hpos.le
      norm_num
      exact_mod_cast h
  rw [hexp.nearestMagnitude_eq, mul_div_cancel_right₀ _ hpos.ne', roundEven_natCast]

end FlightPlanner.Binary64
