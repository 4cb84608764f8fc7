import FlightPlanner.Proofs.Binary64.Fields

/-!
# Doubles and the order of their patterns

A pattern that holds a number is the pattern of that number, and all other patterns hold the one double that is
not a number. The comparison of two numbers is that of their signed magnitudes; the rank of a pattern refines
it by putting negative zero before zero, and nothing else.
-/

namespace FlightPlanner.Binary64

open Float.Model Float.Model.UnpackedFloat

/-- A magnitude with its sign, so that the two zeros agree. -/
def signed (negative : Bool) (magnitude : Nat) : Int := if negative then -magnitude else magnitude

/-- The signed magnitude of a pattern. -/
def Pattern.signedMagnitude (p : Pattern) : Int := signed p.negative p.magnitude

/-- A pattern unpacks to what its magnitude denotes. -/
theorem Pattern.denotes (p : Pattern) :
    Denotes (signOf p.negative) p.magnitude (UnpackedFloat.unpack Format.binary64 p.bits.toBitVec) :=
  denotes_unpack p.bits.toBitVec

/-- A pattern that is no number unpacks to none. -/
theorem Pattern.unpack_eq_notANumber_iff (p : Pattern) :
    UnpackedFloat.unpack Format.binary64 p.bits.toBitVec = .notANumber ↔ p.isNaN = true := by
  have h := p.denotes
  unfold Pattern.isNaN
  generalize p.magnitude = magnitude at h ⊢
  generalize UnpackedFloat.unpack Format.binary64 p.bits.toBitVec = unpacked at h ⊢
  cases h <;> simp_all
  omega

/-- The bits of a pattern are its sign bit and its magnitude. -/
theorem Pattern.toNat_bits (p : Pattern) : p.bits.toNat = (if p.negative then half else 0) + p.magnitude := by
  have hbits := p.bits.toNat_lt
  have hnegative : p.negative = true ↔ half ≤ p.bits.toNat := by simp [Pattern.negative]
  unfold Pattern.magnitude
  by_cases h : half ≤ p.bits.toNat
  · rw [if_pos (hnegative.mpr h)]
    simp only [half] at h ⊢
    omega
  · rw [if_neg (mt hnegative.mp h)]
    simp only [half] at h ⊢
    omega

/-- Reading a pattern of a number and packing it again changes nothing. -/
theorem Pattern.toBits_toFloat {p : Pattern} (h : p.isNaN = false) : p.toFloat.toBits = p.bits := by
  have hnumber : @isNaNBits Format.binary64 p.bits.toBitVec = false := by
    rw [Bool.eq_false_iff]
    intro hbits
    have hfields := of_decide_eq_true hbits
    have hunpack : UnpackedFloat.unpack Format.binary64 p.bits.toBitVec = .notANumber := by
      rw [UnpackedFloat.unpack, if_pos hfields.1, if_neg hfields.2]
    rw [p.unpack_eq_notANumber_iff.mp hunpack] at h
    contradiction
  apply UInt64.toBitVec_inj.mp
  change UnpackedFloat.pack _ (UnpackedFloat.unpack Format.binary64 p.bits.toBitVec) = _
  rw [pack_unpack, hnumber]
  rfl

/-- The pattern of what a pattern of a number holds is that pattern. -/
theorem Pattern.ofFloat_toFloat {p : Pattern} (h : p.isNaN = false) : Pattern.ofFloat p.toFloat = p := by
  rw [Pattern.ofFloat, Pattern.toBits_toFloat h]

/-- The pattern of a double holds that double. -/
theorem Pattern.toFloat_ofFloat (x : Float) : (Pattern.ofFloat x).toFloat = x :=
  Float.ofBits_toBits x

/-- A double is a number exactly when its pattern is. -/
theorem isNaN_ofFloat (x : Float) : (Pattern.ofFloat x).isNaN = x.isNaN := by
  rw [Bool.eq_iff_iff, ← Pattern.unpack_eq_notANumber_iff, ← UnpackedFloat.isNaN_iff]
  rfl

/-- All patterns that are no numbers hold the one double that is not a number. -/
theorem Pattern.toFloat_of_isNaN {p : Pattern} (h : p.isNaN = true) : p.toFloat = nan := by
  have hunpack := p.unpack_eq_notANumber_iff.mpr h
  exact congrArg (fun u => Float.ofModel (.pack u)) hunpack

/-- What a pattern holds is a number exactly when the pattern is. -/
theorem Pattern.isNaN_toFloat (p : Pattern) : p.toFloat.isNaN = p.isNaN := by
  cases h : p.isNaN with
  | false => rw [← isNaN_ofFloat, Pattern.ofFloat_toFloat h, h]
  | true =>
    rw [Pattern.toFloat_of_isNaN h]
    decide

/-- Above the least exponent the mantissa is never shorter, so exponents and then mantissas order numbers as
magnitudes do. -/
theorem compare_exponent_then_mantissa {s t : Sign} {m n : Nat} {mantissa mantissa' : Nat}
    {exponent exponent' : Int} {pos : 0 < mantissa} {pos' : 0 < mantissa'}
    (h : Denotes s m (.finite s mantissa exponent pos)) (h' : Denotes t n (.finite t mantissa' exponent' pos')) :
    (compare exponent exponent').then (compare mantissa mantissa') = compare m n := by
  cases h with
  | finite _ low high hidden bounded sum =>
    cases h' with
    | finite _ low' high' hidden' bounded' sum' =>
      rcases lt_trichotomy exponent exponent' with hlt | heq | hgt
      · rw [compare_lt_iff_lt.mpr hlt, compare_lt_iff_lt.mpr (show m < n by omega)]
        rfl
      · subst heq
        rw [compare_eq_iff_eq.mpr rfl, Ordering.eq_then]
        rcases lt_trichotomy mantissa mantissa' with hlt | heq | hgt
        · rw [compare_lt_iff_lt.mpr hlt, compare_lt_iff_lt.mpr (show m < n by omega)]
        · rw [compare_eq_iff_eq.mpr heq, compare_eq_iff_eq.mpr (show m = n by omega)]
        · rw [compare_gt_iff_gt.mpr hgt, compare_gt_iff_gt.mpr (show n < m by omega)]
      · rw [compare_gt_iff_gt.mpr hgt, compare_gt_iff_gt.mpr (show n < m by omega)]
        rfl

/-- Under one sign, signed magnitudes compare as the magnitudes do, and the other way round below zero. -/
theorem compare_signed (negative : Bool) (m n : Nat) :
    compare (signed negative m) (signed negative n) =
      if negative then (compare m n).swap else compare m n := by
  cases negative with
  | false =>
    change compare (m : Int) (n : Int) = compare m n
    rcases lt_trichotomy m n with hlt | rfl | hgt
    · rw [compare_lt_iff_lt.mpr hlt, compare_lt_iff_lt.mpr (Int.ofNat_lt.mpr hlt)]
    · rw [compare_eq_iff_eq.mpr rfl, compare_eq_iff_eq.mpr rfl]
    · rw [compare_gt_iff_gt.mpr hgt, compare_gt_iff_gt.mpr (Int.ofNat_lt.mpr hgt)]
  | true =>
    change compare (-(m : Int)) (-(n : Int)) = (compare m n).swap
    rcases lt_trichotomy m n with hlt | rfl | hgt
    · rw [compare_lt_iff_lt.mpr hlt, compare_gt_iff_gt.mpr (by omega)]
      rfl
    · rw [compare_eq_iff_eq.mpr rfl, compare_eq_iff_eq.mpr rfl]
      rfl
    · rw [compare_gt_iff_gt.mpr hgt, compare_lt_iff_lt.mpr (by omega)]
      rfl

/-- Numbers compare as their signed magnitudes. -/
theorem compare_unpacked {negative negative' : Bool} {m n : Nat} {u v : UnpackedFloat}
    (h : Denotes (signOf negative) m u) (h' : Denotes (signOf negative') n v)
    (hm : m ≤ 0x7FF0000000000000) (hn : n ≤ 0x7FF0000000000000) :
    u.compare v = some (compare (signed negative m) (signed negative' n)) := by
  have hlt : ∀ a b : Int, a < b → some (compare a b) = some .lt := fun a b hab => by rw [compare_lt_iff_lt.mpr hab]
  have hgt : ∀ a b : Int, b < a → some (compare a b) = some .gt := fun a b hab => by rw [compare_gt_iff_gt.mpr hab]
  cases h with
  | notANumber beyond => omega
  | zero =>
    cases h' with
    | notANumber beyond => omega
    | zero => cases negative <;> cases negative' <;> rfl
    | finite pos low high hidden bounded sum =>
      cases negative' with
      | false => rw [hlt _ _ (by cases negative <;> simp [signed] <;> omega)]; rfl
      | true => rw [hgt _ _ (by cases negative <;> simp [signed] <;> omega)]; rfl
    | infinity =>
      cases negative' with
      | false => rw [hlt _ _ (by cases negative <;> simp [signed])]; rfl
      | true => rw [hgt _ _ (by cases negative <;> simp [signed])]; rfl
  | infinity =>
    cases h' with
    | notANumber beyond => omega
    | zero =>
      cases negative with
      | false => rw [hgt _ _ (by cases negative' <;> simp [signed])]; rfl
      | true => rw [hlt _ _ (by cases negative' <;> simp [signed])]; rfl
    | finite pos low high hidden bounded sum =>
      cases negative with
      | false => rw [hgt _ _ (by cases negative' <;> simp [signed] <;> omega)]; rfl
      | true => rw [hlt _ _ (by cases negative' <;> simp [signed] <;> omega)]; rfl
    | infinity => cases negative <;> cases negative' <;> rfl
  | finite pos low high hidden bounded sum =>
    cases h' with
    | notANumber beyond => omega
    | zero =>
      cases negative with
      | false => rw [hgt _ _ (by cases negative' <;> simp [signed] <;> omega)]; rfl
      | true => rw [hlt _ _ (by cases negative' <;> simp [signed] <;> omega)]; rfl
    | infinity =>
      cases negative' with
      | false => rw [hlt _ _ (by cases negative <;> simp [signed] <;> omega)]; cases negative <;> rfl
      | true => rw [hgt _ _ (by cases negative <;> simp [signed] <;> omega)]; cases negative <;> rfl
    | finite pos' low' high' hidden' bounded' sum' =>
      cases negative with
      | false =>
        cases negative' with
        | false =>
          rw [compare_signed, ← compare_exponent_then_mantissa (s := .positive) (t := .positive)
            (.finite pos low high hidden bounded sum) (.finite pos' low' high' hidden' bounded' sum')]
          rfl
        | true => rw [hgt _ _ (by simp [signed]; omega)]; rfl
      | true =>
        cases negative' with
        | false => rw [hlt _ _ (by simp [signed]; omega)]; rfl
        | true =>
          rw [compare_signed, ← compare_exponent_then_mantissa (s := .positive) (t := .positive)
            (.finite pos low high hidden bounded sum) (.finite pos' low' high' hidden' bounded' sum')]
          rfl

/-- The unpacked form of the double that the pattern of a number holds. -/
theorem Pattern.compare_toFloat {p q : Pattern} (hp : p.isNaN = false) (hq : q.isNaN = false) :
    p.toFloat.toModel.unpack.compare q.toFloat.toModel.unpack =
      some (compare p.signedMagnitude q.signedMagnitude) := by
  have hword : ∀ r : Pattern, r.isNaN = false →
      r.toFloat.toModel.unpack = UnpackedFloat.unpack Format.binary64 r.bits.toBitVec := by
    intro r hr
    rw [← Pattern.toBits_toFloat hr]
    rfl
  rw [hword p hp, hword q hq]
  apply compare_unpacked p.denotes q.denotes
  · simpa [Pattern.isNaN] using hp
  · simpa [Pattern.isNaN] using hq

/-- One number is at most another one exactly when its signed magnitude is. -/
theorem Pattern.toFloat_le_iff {p q : Pattern} (hp : p.isNaN = false) (hq : q.isNaN = false) :
    p.toFloat ≤ q.toFloat ↔ p.signedMagnitude ≤ q.signedMagnitude := by
  change decide (p.toFloat.toModel ≤ q.toFloat.toModel) = true ↔ _
  rw [decide_eq_true_iff]
  change (p.toFloat.toModel.unpack.compare q.toFloat.toModel.unpack).any (·.isLE) = true ↔ _
  rw [Pattern.compare_toFloat hp hq, Option.any_some, Int.isLE_compare]

/-- One number is below another one exactly when its signed magnitude is. -/
theorem Pattern.toFloat_lt_iff {p q : Pattern} (hp : p.isNaN = false) (hq : q.isNaN = false) :
    p.toFloat < q.toFloat ↔ p.signedMagnitude < q.signedMagnitude := by
  change decide (p.toFloat.toModel < q.toFloat.toModel) = true ↔ _
  rw [decide_eq_true_iff]
  change (p.toFloat.toModel.unpack.compare q.toFloat.toModel.unpack == some .lt) = true ↔ _
  rw [Pattern.compare_toFloat hp hq, beq_iff_eq, Option.some_inj, compare_lt_iff_lt]

/-- Rising ranks never fall as numbers. -/
theorem Pattern.signedMagnitude_le_of_rank_le {p q : Pattern} (h : p.rank ≤ q.rank) :
    p.signedMagnitude ≤ q.signedMagnitude := by
  unfold Pattern.rank at h
  unfold Pattern.signedMagnitude signed
  split at h <;> split at h <;> simp_all <;> omega

/-- Among numbers, rising ranks never put zero before negative zero. -/
theorem Pattern.not_zero_of_rank_le {p q : Pattern} (hp : p.isNaN = false) (hq : q.isNaN = false)
    (h : p.rank ≤ q.rank) : ¬ (p.toFloat = 0 ∧ q.toFloat = -0) := by
  rintro ⟨hzero, hnegative⟩
  have hp' : p = .ofFloat 0 := by rw [← hzero, Pattern.ofFloat_toFloat hp]
  have hq' : q = .ofFloat (-0) := by rw [← hnegative, Pattern.ofFloat_toFloat hq]
  have hranks : ¬ (Pattern.ofFloat 0).rank ≤ (Pattern.ofFloat (-0)).rank := by decide
  rw [hp', hq'] at h
  exact hranks h

/-- Two patterns of numbers that hold the same double are the same. -/
theorem Pattern.toFloat_inj {p q : Pattern} (hp : p.isNaN = false) (h : p.toFloat = q.toFloat) : p = q := by
  have hq : q.isNaN = false := by rw [← Pattern.isNaN_toFloat, ← h, Pattern.isNaN_toFloat, hp]
  rw [← Pattern.ofFloat_toFloat hp, h, Pattern.ofFloat_toFloat hq]

/-- The rank tells all patterns apart. -/
theorem Pattern.rank_injective : Function.Injective Pattern.rank := by
  intro p q h
  have hp := p.toNat_bits
  have hq := q.toNat_bits
  have hbits : p.bits = q.bits := by
    apply UInt64.toNat_inj.mp
    unfold Pattern.rank at h
    split at h <;> split at h <;> simp_all <;> omega
  cases p
  cases q
  exact congrArg Pattern.mk hbits

/-- Comparing patterns is consistent: it is a comparison by two keys, one after the other, and each of them is. -/
instance Pattern.transCmp_compareNumbersFirst : Std.TransCmp Pattern.compareNumbersFirst :=
  inferInstanceAs (Std.TransCmp (compareLex (compareOn Pattern.isNaN) (compareOn Pattern.rank)))

/-- The comparison the other way round is the reverse. -/
theorem Pattern.compareNumbersFirst_swap (p q : Pattern) :
    p.compareNumbersFirst q = (q.compareNumbersFirst p).swap := Std.OrientedCmp.eq_swap

/-- Patterns of one kind are compared by rank. -/
theorem Pattern.compareNumbersFirst_of_alike {p q : Pattern} (h : p.isNaN = q.isNaN) :
    p.compareNumbersFirst q = compare p.rank q.rank := by
  rw [Pattern.compareNumbersFirst, h, compare_eq_iff_eq.mpr rfl, Ordering.eq_then]

/-- A number comes before what is not a number. -/
theorem Pattern.compareNumbersFirst_of_isNaN {p q : Pattern} (hp : p.isNaN = false) (hq : q.isNaN = true) :
    p.compareNumbersFirst q = .lt := by
  rw [Pattern.compareNumbersFirst, hp, hq]
  rfl

/-- Among numbers, ranks rise where the numbers do, and from negative zero to zero. -/
theorem Pattern.rank_lt_iff {p q : Pattern} (hp : p.isNaN = false) (hq : q.isNaN = false) :
    p.rank < q.rank ↔ p.toFloat < q.toFloat ∨ p.toFloat = -0 ∧ q.toFloat = 0 := by
  constructor
  · intro h
    obtain hless | hsame := (Pattern.signedMagnitude_le_of_rank_le h.le).lt_or_eq
    · exact .inl ((Pattern.toFloat_lt_iff hp hq).mpr hless)
    · -- one magnitude at two places: this is so for the two zeros only
      have hzeros : p.rank = (Pattern.ofFloat (-0)).rank ∧ q.rank = (Pattern.ofFloat 0).rank := by
        have hplaces : (Pattern.ofFloat (-0)).rank = -1 ∧ (Pattern.ofFloat 0).rank = 0 := by decide
        rw [hplaces.1, hplaces.2]
        unfold Pattern.signedMagnitude signed at hsame
        unfold Pattern.rank at h ⊢
        cases hsign : p.negative <;> cases hsign' : q.negative <;>
          simp only [hsign, hsign', Bool.false_eq_true, if_false, if_true] at h hsame ⊢ <;> omega
      rw [Pattern.rank_injective hzeros.1, Pattern.rank_injective hzeros.2, Pattern.toFloat_ofFloat,
        Pattern.toFloat_ofFloat]
      exact .inr ⟨rfl, rfl⟩
  · rintro (hless | ⟨hminus, hzero⟩)
    · by_contra hnot
      have hmagnitudes := Pattern.signedMagnitude_le_of_rank_le (not_lt.mp hnot)
      exact absurd ((Pattern.toFloat_lt_iff hp hq).mp hless) (not_lt.mpr hmagnitudes)
    · rw [← Pattern.ofFloat_toFloat hp, ← Pattern.ofFloat_toFloat hq, hminus, hzero]
      decide

/-- Two numbers are compared as numbers, with negative zero before zero, and are tied only where they are one double. -/
theorem Pattern.compareNumbersFirst_numbers {p q : Pattern} (hp : p.isNaN = false) (hq : q.isNaN = false) :
    (p.compareNumbersFirst q = .lt ↔ p.toFloat < q.toFloat ∨ p.toFloat = -0 ∧ q.toFloat = 0) ∧
      (p.compareNumbersFirst q = .eq ↔ p.toFloat = q.toFloat) := by
  rw [Pattern.compareNumbersFirst_of_alike (hp.trans hq.symm), compare_lt_iff_lt, compare_eq_iff_eq]
  refine ⟨Pattern.rank_lt_iff hp hq, ?_⟩
  constructor
  · intro h
    rw [Pattern.rank_injective h]
  · intro h
    rw [Pattern.toFloat_inj hp h]

/-- A pattern may stand before another one when it alone is a number, or when both are or neither is and its rank
is not the greater one. -/
theorem Pattern.isLE_compareNumbersFirst_iff {p q : Pattern} :
    (p.compareNumbersFirst q).isLE = true ↔
      p.isNaN = false ∧ q.isNaN = true ∨ p.isNaN = q.isNaN ∧ p.rank ≤ q.rank := by
  cases hp : p.isNaN <;> cases hq : q.isNaN
  · rw [Pattern.compareNumbersFirst_of_alike (hp.trans hq.symm), Int.isLE_compare]
    simp
  · rw [Pattern.compareNumbersFirst_of_isNaN hp hq]
    simp
  · rw [Pattern.compareNumbersFirst_swap, Pattern.compareNumbersFirst_of_isNaN hq hp]
    simp
  · rw [Pattern.compareNumbersFirst_of_alike (hp.trans hq.symm), Int.isLE_compare]
    simp

end FlightPlanner.Binary64
