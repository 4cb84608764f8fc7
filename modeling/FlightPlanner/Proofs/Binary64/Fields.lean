import FlightPlanner.Binary64.Basic
import FlightPlanner.Binary64.Pattern
import Mathlib

/-!
# The fields of a bit pattern

The sixty-three bits below the sign bit of a double, read as one natural number, grow with the number that the
double stands for: an exponent field stands above a mantissa field, and the hidden bit of the mantissa fits
between the two. `Denotes` says this of the unpacked form, without a word on bits.
-/

namespace FlightPlanner.Binary64

open Float.Model Float.Model.UnpackedFloat

/-- The magnitude that goes with a sign and an unpacked form. -/
inductive Denotes (sign : Sign) : Nat → UnpackedFloat → Prop where
  /-- Zero is all zeros. -/
  | zero : Denotes sign 0 (.zero sign)
  /-- A number other than zero: only at the least exponent may the mantissa lack its hidden bit. -/
  | finite {magnitude mantissa : Nat} {exponent : Int} (pos : 0 < mantissa)
      (low : -1074 ≤ exponent) (high : mantissa < 2 * 0x10000000000000)
      (hidden : exponent = -1074 ∨ 0x10000000000000 ≤ mantissa) (bounded : magnitude < 0x7FF0000000000000)
      (sum : (magnitude : Int) = (exponent + 1074) * 0x10000000000000 + mantissa) :
      Denotes sign magnitude (.finite sign mantissa exponent pos)
  /-- An infinity has all exponent bits set and no mantissa. -/
  | infinity : Denotes sign 0x7FF0000000000000 (.infinity sign)
  /-- What is beyond infinity is not a number. -/
  | notANumber {magnitude : Nat} (beyond : 0x7FF0000000000000 < magnitude) : Denotes sign magnitude .notANumber

/-- The mantissa field of a word. -/
theorem toNat_unpackMantissa (word : BitVec Format.binary64.numBits) :
    (unpackMantissa word).toNat = word.toNat % 0x10000000000000 := by
  simp [unpackMantissa]

/-- The exponent field of a word. -/
theorem toNat_unpackExponent (word : BitVec Format.binary64.numBits) :
    (unpackExponent word).toNat = word.toNat / 0x10000000000000 % 2048 := by
  simp [unpackExponent, Nat.shiftRight_eq_div_pow]

/-- The sign of a word is that of its highest bit. -/
theorem ofBitVec_unpackSign (word : BitVec Format.binary64.numBits) :
    Sign.ofBitVec (unpackSign word) = signOf (Pattern.half ≤ word.toNat) := by
  have hword : word.toNat < 2 ^ 64 := word.isLt
  have hsign : (unpackSign word).toNat = word.toNat / Pattern.half := by
    simp [unpackSign, Nat.shiftRight_eq_div_pow, Pattern.half]
    omega
  have hzero : unpackSign word = 0#1 ↔ ¬ Pattern.half ≤ word.toNat := by
    rw [← BitVec.toNat_inj, hsign]
    simp [Pattern.half]
  by_cases h : Pattern.half ≤ word.toNat <;> simp [Sign.ofBitVec, signOf, hzero, h]

/-- The hidden bit stands in front of the mantissa field. -/
theorem toNat_one_append (field : BitVec 52) : (1#1 ++ field).toNat = 0x10000000000000 + field.toNat := by
  rw [BitVec.toNat_append, ← Nat.shiftLeft_add_eq_or_of_lt field.isLt]
  simp [Nat.shiftLeft_eq]

/-- Every word unpacks to what its magnitude denotes under its sign. -/
theorem denotes_unpack (word : BitVec Format.binary64.numBits) :
    Denotes (signOf (Pattern.half ≤ word.toNat)) (word.toNat % Pattern.half)
      (UnpackedFloat.unpack Format.binary64 word) := by
  have hmant := toNat_unpackMantissa word
  have hexp := toNat_unpackExponent word
  have hsplit : word.toNat % Pattern.half =
      (unpackExponent word).toNat * 0x10000000000000 + (unpackMantissa word).toNat := by
    rw [hmant, hexp]
    simp only [Pattern.half]
    omega
  have hbias : ((Format.binary64.exponentBias : Nat) : Int) = 1023 := rfl
  have hexpmax : unpackExponent word = -1#11 ↔ (unpackExponent word).toNat = 2047 := by
    rw [← BitVec.toNat_inj]
    rfl
  have hexpzero : unpackExponent word = 0#11 ↔ (unpackExponent word).toNat = 0 := by
    rw [← BitVec.toNat_inj]
    rfl
  have hmantzero : unpackMantissa word = 0#52 ↔ (unpackMantissa word).toNat = 0 := by
    rw [← BitVec.toNat_inj]
    rfl
  have hmantlt : (unpackMantissa word).toNat < 0x10000000000000 := (unpackMantissa word).isLt
  have hexplt : (unpackExponent word).toNat < 2048 := (unpackExponent word).isLt
  rw [UnpackedFloat.unpack, ofBitVec_unpackSign, hsplit]
  split
  · next hmax =>
    rw [hexpmax] at hmax
    split
    · next hzero =>
      rw [hmax, hmantzero.mp hzero]
      exact .infinity
    · next hzero =>
      rw [hmantzero] at hzero
      exact .notANumber (by omega)
  · next hmax =>
    rw [hexpmax] at hmax
    split
    · next hexp0 =>
      rw [hexpzero] at hexp0
      split
      · next hzero =>
        rw [hexp0, hmantzero.mp hzero]
        exact .zero
      · next hzero =>
        rw [hmantzero] at hzero
        rw [hexp0]
        simp only [hbias]
        apply Denotes.finite <;> omega
    · next hexp0 =>
      rw [hexpzero] at hexp0
      simp only [hbias, toNat_one_append]
      apply Denotes.finite <;> omega

end FlightPlanner.Binary64
