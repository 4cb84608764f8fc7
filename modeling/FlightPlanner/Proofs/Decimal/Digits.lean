import FlightPlanner.Decimal.Layout
import FlightPlanner.Decimal.Reading
import Mathlib.Algebra.Group.Nat.Defs

/-!
# Numbers in digits

The digits that are written for a natural number denote it, with as many zeros in front as one likes, and a zero
stands in front of them only for zero itself. A run of digits is spanned as far as it goes, so that what follows it
must not start with another digit.
-/

namespace FlightPlanner.Decimal

/-- A run of digits denotes what core makes of it. -/
theorem ofDigits_eq (digits : List Char) : ofDigits digits = Nat.ofDigitChars 10 digits 0 :=
  Nat.ofDigitChars_eq_foldl.symm

/-- The digits of a number denote it. -/
@[simp] theorem ofDigits_toDigits (n : Nat) : ofDigits (Nat.toDigits 10 n) = n := by
  rw [ofDigits_eq, Nat.ofDigitChars_ten_toDigits]

/-- Digits in front of others count as many powers of ten as there are others. -/
theorem ofDigits_append (left right : List Char) :
    ofDigits (left ++ right) = ofDigits left * 10 ^ right.length + ofDigits right := by
  rw [ofDigits_eq, ofDigits_eq, ofDigits_eq, Nat.ofDigitChars_append, Nat.ofDigitChars_eq_ofDigitChars_zero,
    Nat.mul_comm]

/-- Zeros denote zero. -/
@[simp] theorem ofDigits_zeros (count : Nat) : ofDigits (List.replicate count '0') = 0 := by
  rw [ofDigits_eq, Nat.ofDigitChars_replicate_zero, Nat.mul_zero]

/-- The written form of a natural number is its digits. -/
@[simp] theorem toList_toString (n : Nat) : (toString n).toList = Nat.toDigits 10 n := by
  rw [Nat.toString_eq_ofList_toDigits, String.toList_ofList]

/-- The digits of a number are digits. -/
theorem isDigit_toDigits {n : Nat} {c : Char} (h : c ∈ Nat.toDigits 10 n) : c.isDigit = true :=
  Nat.isDigit_of_mem_toDigits (by decide) (by decide) h

/-- The digits of a number above zero do not start with a zero. -/
theorem head?_toDigits_ne {n : Nat} (h : 0 < n) : (Nat.toDigits 10 n).head? ≠ some '0' := by
  induction n using Nat.strongRecOn with
  | _ n ih =>
    rw [Nat.toDigits_eq_if (by decide)]
    split
    · next hlt =>
      have hdigits : ∀ d < 10, 0 < d → [Nat.digitChar d].head? ≠ some '0' := by decide
      exact hdigits n hlt h
    · next hge =>
      have htens := ih (n / 10) (by omega) (by omega)
      have hne : Nat.toDigits 10 (n / 10) ≠ [] := Nat.toDigits_ne_nil
      cases hdigits : Nat.toDigits 10 (n / 10) with
      | nil => exact absurd hdigits hne
      | cons d digits => rwa [hdigits] at htens

/-- With zeros in front the digits of a number fill a width that is enough for it, and still denote it. -/
theorem filled_spec {width n : Nat} (hwidth : 0 < width) (hn : n < 10 ^ width) :
    let filled := (zeros (width - (toString n).length) ++ toString n).toList
    filled.length = width ∧ (∀ c ∈ filled, c.isDigit = true) ∧ ofDigits filled = n := by
  intro filled
  have hlength : (toString n).length = (Nat.toDigits 10 n).length := by
    rw [← String.length_toList, toList_toString]
  have hshort : (Nat.toDigits 10 n).length ≤ width := (Nat.length_toDigits_le_iff (by decide) hwidth).2 hn
  have hfilled : filled = List.replicate (width - (Nat.toDigits 10 n).length) '0' ++ Nat.toDigits 10 n := by
    simp only [filled, zeros, String.toList_append, String.toList_ofList, hlength, toList_toString]
  rw [hfilled]
  refine ⟨by simp; omega, ?_, ?_⟩
  · intro c hc
    obtain hc | hc := List.mem_append.1 hc
    · rw [List.eq_of_mem_replicate hc]
      rfl
    · exact isDigit_toDigits hc
  · rw [ofDigits_append, ofDigits_zeros, Nat.zero_mul, Nat.zero_add, ofDigits_toDigits]

/-- Digits are spanned up to the first character that is none. -/
theorem spanDigits_append {digits rest : List Char} (hdigits : ∀ c ∈ digits, c.isDigit = true)
    (hrest : ∀ c ∈ rest.head?, c.isDigit = false) : spanDigits (digits ++ rest) = (digits, rest) := by
  have hnone : rest.takeWhile Char.isDigit = [] ∧ rest.dropWhile Char.isDigit = rest := by
    cases rest with
    | nil => exact ⟨rfl, rfl⟩
    | cons c rest =>
      have hc : c.isDigit = false := hrest c rfl
      simp [hc]
  rw [spanDigits, List.takeWhile_append_of_pos hdigits, List.dropWhile_append_of_pos hdigits, hnone.1, hnone.2,
    List.append_nil]

/-- A digit is no other character. -/
theorem ne_of_isDigit {c d : Char} (hc : c.isDigit = true) (hd : d.isDigit = false) : c ≠ d := by
  rintro rfl
  exact Bool.noConfusion (hc.symm.trans hd)

/-- A digit is no sign. -/
theorem ne_sign_of_isDigit {c : Char} (h : c.isDigit = true) : c ≠ '-' ∧ c ≠ '+' :=
  ⟨ne_of_isDigit h (by decide), ne_of_isDigit h (by decide)⟩

/-- No sign is split off a text that does not start with one. -/
theorem spanSign_of_head {text : List Char} (h : ∀ c ∈ text.head?, c ≠ '-' ∧ c ≠ '+') :
    spanSign text = (false, text) := by
  unfold spanSign
  split
  · exact absurd rfl (h '-' rfl).1
  · exact absurd rfl (h '+' rfl).2
  · rfl

/-- Digits are the same in small letters. -/
theorem toLower_of_isDigit {c : Char} (h : c.isDigit = true) : c.toLower = c := by
  have hcapital : ¬(c.val ≥ 'A'.val ∧ c.val ≤ 'Z'.val) := by
    simp only [Char.isDigit, Bool.and_eq_true, decide_eq_true_eq, UInt32.le_iff_toNat_le] at h
    have hhigh : c.val.toNat ≤ 57 := h.2
    intro hletter
    have hlow : 65 ≤ c.val.toNat := UInt32.le_iff_toNat_le.1 hletter.1
    omega
  exact dif_neg hcapital

/-- Digits are read as the double nearest to the number that they denote. -/
theorem readReal?_of_digits {text : String} {digits : List Char} (h : spanSign text.toList = (false, digits))
    (hne : digits ≠ []) (hdigits : ∀ c ∈ digits, c.isDigit = true) :
    readReal? text = some (ofDecimal (ofDigits digits) 0) := by
  have hlower : digits.map Char.toLower = digits :=
    (List.map_congr_left fun c hc => toLower_of_isDigit (hdigits c hc)).trans (List.map_id digits)
  have hword : ∀ {c : Char} {word : List Char}, c.isDigit = false → digits ≠ c :: word := by
    rintro c word hc rfl
    exact ne_of_isDigit (hdigits c (.head _)) hc rfl
  have hspan : spanDigits digits = (digits, []) := by
    have hall := spanDigits_append hdigits (by simp : ∀ c ∈ ([] : List Char).head?, c.isDigit = false)
    rwa [List.append_nil] at hall
  have hnumeral : readNumeral? false digits = some ⟨false, digits, [], 0⟩ := by
    simp [readNumeral?, hspan, hne, readPower?]
  have hinf : digits ≠ "inf".toList := hword (c := 'i') (by decide)
  have hinfinity : digits ≠ "infinity".toList := hword (c := 'i') (by decide)
  have hnan : digits ≠ "nan".toList := hword (c := 'n') (by decide)
  have hvalue : Numeral.toFloat ⟨false, digits, [], 0⟩ = ofDecimal (ofDigits digits) 0 := by
    simp [Numeral.toFloat, signed]
  simp only [readReal?, h, hlower, hinf, hinfinity, hnan, hnumeral, decide_false, Bool.or_self, Bool.false_eq_true,
    if_false, Option.map_some, hvalue]

end FlightPlanner.Decimal
