import FlightPlanner.Config.Reading
import FlightPlanner.Config.Variables
import FlightPlanner.Proofs.Config.Paths
import FlightPlanner.Proofs.Decimal.Digits
import FlightPlanner.Toml.Document

/-!
# Whole numbers in the texts of files and of variables

A run of digits in a document stands for the number that they denote, if it fits into sixty-four bits with a sign,
and so it does in a variable. Where it does not fit, a document is refused, and a variable stands for the double
nearest to the number: one that is too great for a weight as well.
-/

namespace FlightPlanner

/-- A natural number below half of what sixty-four bits hold fits into them with a sign. -/
theorem Decimal.within64?_natCast {n : ℕ} (h : n < 0x8000000000000000) : within64? (n : ℤ) = some (n : ℤ) := by
  have hlow : (-0x8000000000000000 : ℤ) ≤ n := by omega
  have hhigh : (n : ℤ) < 0x8000000000000000 := by omega
  simp [within64?, hlow, hhigh]

/-- A greater one does not. -/
theorem Decimal.within64?_natCast_eq_none {n : ℕ} (h : 0x8000000000000000 ≤ n) : within64? (n : ℤ) = none := by
  have hhigh : ¬(n : ℤ) < 0x8000000000000000 := by omega
  simp [within64?, hhigh]

/-- Digits without a needless zero in front of them. -/
structure Toml.IsNumeral (digits : List Char) : Prop where
  /-- There are some. -/
  ne_nil : digits ≠ []
  /-- All of them are digits. -/
  isDigit : ∀ c ∈ digits, c.isDigit = true
  /-- Only zero itself starts with a zero. -/
  eq_zero : digits.head? = some '0' → digits = ['0']

instance (digits : List Char) : Decidable (Toml.IsNumeral digits) :=
  decidable_of_iff (digits ≠ [] ∧ digits.all Char.isDigit = true ∧ (digits.head? = some '0' → digits = ['0']))
    ⟨fun ⟨hne, hall, hzero⟩ => ⟨hne, List.all_eq_true.1 hall, hzero⟩,
      fun h => ⟨h.ne_nil, List.all_eq_true.2 h.isDigit, h.eq_zero⟩⟩

/-- Whether a character may follow a value in a document. -/
def Toml.isCloser (c : Char) : Bool :=
  c = ' ' || c = '\t' || c = '\n' || c = '\r' || c = '#' || c = ',' || c = ']' || c = '\x7d'

/-- Whether a value may end in front of a text. -/
def Toml.EndsValue (rest : List Char) : Prop := ∀ c ∈ rest.head?, isCloser c = true

namespace Toml

variable {digits rest : List Char}

/-- No digit follows a value. -/
theorem isDigit_of_isCloser {c : Char} (h : isCloser c = true) : c.isDigit = false := by
  simp only [isCloser, Bool.or_eq_true, decide_eq_true_eq, or_assoc] at h
  rcases h with rfl | rfl | rfl | rfl | rfl | rfl | rfl | rfl <;> decide

/-- A character that is neither a digit nor closes a value does not follow digits in front of such a text. -/
theorem ne_of_head {c d : Char} {text : List Char} (hdigits : ∀ c ∈ digits, c.isDigit = true) (hend : EndsValue rest)
    (hdigit : d.isDigit = false) (hcloser : isCloser d = false) (h : digits ++ rest = c :: text) : c ≠ d := by
  cases digits with
  | nil =>
    rintro rfl
    rw [List.nil_append] at h
    have hclose : isCloser c = true := hend c (by rw [h]; rfl)
    exact Bool.noConfusion (hclose.symm.trans hcloser)
  | cons first digits =>
    obtain ⟨rfl, -⟩ := List.cons.inj h
    exact Decimal.ne_of_isDigit (hdigits first (.head _)) hdigit

/-- No such character is found behind digits. -/
theorem spanChar?_eq_none {mark : Char} (hdigits : ∀ c ∈ digits, c.isDigit = true) (hend : EndsValue rest)
    (hdigit : mark.isDigit = false) (hcloser : isCloser mark = false) : spanChar? mark (digits ++ rest) = none := by
  cases htext : digits ++ rest with
  | nil => rfl
  | cons c text =>
    have hne := ne_of_head hdigits hend hdigit hcloser htext
    rw [spanChar?, if_neg hne]

/-- A number in so many digits ends inside a run of digits. -/
theorem spanFixed?_eq_some {width n : ℕ} {text : List Char} (hend : EndsValue rest)
    (h : spanFixed? width (digits ++ rest) = some (n, text)) : text = digits.drop width ++ rest := by
  simp only [spanFixed?, Option.ite_none_right_eq_some, Option.some.injEq, Prod.mk.injEq, Bool.and_eq_true,
    decide_eq_true_eq, List.all_eq_true] at h
  obtain ⟨⟨hlength, hall⟩, -, rfl⟩ := h
  have hwidth : width ≤ digits.length := by
    by_contra hlong
    rw [not_le] at hlong
    cases rest with
    | nil =>
      rw [List.append_nil, List.length_take] at hlength
      omega
    | cons c rest =>
      have hmem : c ∈ (digits ++ c :: rest).take width := by
        rw [List.take_append, List.mem_append]
        obtain ⟨more, hmore⟩ : ∃ more, width - digits.length = more + 1 := ⟨width - digits.length - 1, by omega⟩
        rw [hmore]
        exact .inr (.head _)
      have hdigit := hall c hmem
      rw [isDigit_of_isCloser (hend c rfl)] at hdigit
      contradiction
  rw [List.drop_append_of_le_length hwidth]

/-- A run of digits is no moment. -/
theorem spanMoment?_eq_none (hdigits : ∀ c ∈ digits, c.isDigit = true) (hend : EndsValue rest) :
    spanMoment? (digits ++ rest) = none := by
  have hbehind : ∀ mark {width n text}, spanFixed? width (digits ++ rest) = some (n, text) →
      mark.isDigit = false → isCloser mark = false → spanChar? mark text = none := by
    intro mark width n text htext
    rw [spanFixed?_eq_some hend htext]
    exact spanChar?_eq_none (fun c hc => hdigits c (List.mem_of_mem_drop hc)) hend
  have hday : spanDay? (digits ++ rest) = none := by
    unfold spanDay?
    cases hyear : spanFixed? 4 (digits ++ rest) with
    | none => rfl
    | some year =>
      obtain ⟨year, text⟩ := year
      have hnone := hbehind '-' hyear (by decide) (by decide)
      simp [hnone]
  have hclock : spanClock? (digits ++ rest) = none := by
    unfold spanClock? spanPair?
    cases hhour : spanFixed? 2 (digits ++ rest) with
    | none => rfl
    | some hour =>
      obtain ⟨hour, text⟩ := hour
      have hnone := hbehind ':' hhour (by decide) (by decide)
      by_cases hmost : hour ≤ 23 <;> simp [hmost, hnone]
  rw [spanMoment?, hday]
  exact hclock

/-- Digits are spanned up to where a value may end. -/
theorem spanGrouped_eq (hdigits : ∀ c ∈ digits, c.isDigit = true) (hend : EndsValue rest) :
    spanGrouped Char.isDigit (digits ++ rest) = (digits, rest) := by
  induction digits with
  | nil =>
    rw [List.nil_append]
    unfold spanGrouped
    split
    · rfl
    · exact absurd (hend '_' rfl) (by decide)
    · next c text hne =>
      rw [isDigit_of_isCloser (hend c rfl), if_neg Bool.false_ne_true]
  | cons d digits ih =>
    have hdigit := hdigits d (.head _)
    rw [List.cons_append]
    unfold spanGrouped
    split
    · contradiction
    · next heq => exact absurd (List.cons.inj heq).1 (Decimal.ne_of_isDigit hdigit (by decide))
    · next c text hne heq =>
      obtain ⟨rfl, rfl⟩ := List.cons.inj heq
      rw [if_pos hdigit, ih fun c hc => hdigits c (.tail _ hc)]

/-- A numeral in front of where a value may end is one whole number. -/
theorem spanWhole?_eq (h : IsNumeral digits) (hend : EndsValue rest) :
    spanWhole? (digits ++ rest) = some (digits, rest) := by
  unfold spanWhole?
  split
  · next text heq =>
    obtain ⟨d, tail, rfl⟩ := List.exists_cons_of_ne_nil h.ne_nil
    obtain ⟨rfl, htail⟩ := List.cons.inj heq
    obtain ⟨-, rfl⟩ := List.cons.inj (h.eq_zero rfl)
    rw [← htail]
    rfl
  · next hne =>
    obtain ⟨d, tail, rfl⟩ := List.exists_cons_of_ne_nil h.ne_nil
    have hspan := spanGrouped_eq h.isDigit hend
    rw [List.cons_append] at hspan ⊢
    rw [spanDigits?, if_pos (h.isDigit d (.head _)), hspan]

/-- No sign stands in front of digits. -/
theorem spanSign_eq (h : IsNumeral digits) : Decimal.spanSign (digits ++ rest) = (false, digits ++ rest) := by
  obtain ⟨d, tail, rfl⟩ := List.exists_cons_of_ne_nil h.ne_nil
  refine Decimal.spanSign_of_head ?_
  rintro c ⟨rfl⟩
  exact Decimal.ne_sign_of_isDigit (h.isDigit d (.head _))

/-- A numeral in front of where a value may end is no double. -/
theorem spanReal?_eq_none (h : IsNumeral digits) (hend : EndsValue rest) : spanReal? (digits ++ rest) = none := by
  have hmark : isRealMark rest = false := by
    cases rest with
    | nil => rfl
    | cons c text =>
      have hnone : ∀ c ∈ ([] : List Char), c.isDigit = true := nofun
      have hne : ∀ d : Char, d.isDigit = false → isCloser d = false → c ≠ d :=
        fun d hdigit hcloser => ne_of_head hnone hend hdigit hcloser rfl
      simp [isRealMark, hne '.' (by decide) (by decide), hne 'e' (by decide) (by decide),
        hne 'E' (by decide) (by decide)]
  have hdecimal : spanDecimal? (digits ++ rest) = none := by
    rw [spanDecimal?, spanSign_eq h]
    simp [spanWhole?_eq h hend, hmark]
  have hword : spanWordReal? (digits ++ rest) = none := by
    obtain ⟨d, tail, rfl⟩ := List.exists_cons_of_ne_nil h.ne_nil
    have hdigit := h.isDigit d (.head _)
    rw [spanWordReal?, spanSign_eq h, List.cons_append]
    split
    · next heq => exact absurd (List.cons.inj (Prod.mk.inj heq).2).1 (Decimal.ne_of_isDigit hdigit (by decide))
    · next heq => exact absurd (List.cons.inj (Prod.mk.inj heq).2).1 (Decimal.ne_of_isDigit hdigit (by decide))
    · rfl
  rw [spanReal?, hdecimal, hword]
  rfl

/-- A numeral is the whole number that it denotes, if this fits into sixty-four bits with a sign, and nothing else. -/
theorem spanInteger?_eq (h : IsNumeral digits) (hend : EndsValue rest) :
    spanInteger? (digits ++ rest) = (Decimal.within64? (Decimal.ofDigits digits : ℤ)).map (·, rest) := by
  have hbase : ∀ {c : Char} {text : List Char}, c.isDigit = false → isCloser c = false →
      digits ++ rest ≠ '0' :: c :: text := by
    intro c text hdigit hcloser heq
    obtain ⟨d, tail, rfl⟩ := List.exists_cons_of_ne_nil h.ne_nil
    obtain ⟨rfl, htail⟩ := List.cons.inj heq
    exact ne_of_head (fun c hc => h.isDigit c (.tail _ hc)) hend hdigit hcloser htail rfl
  unfold spanInteger?
  split
  · next heq => exact absurd heq (hbase (by decide) (by decide))
  · next heq => exact absurd heq (hbase (by decide) (by decide))
  · next heq => exact absurd heq (hbase (by decide) (by decide))
  · -- rewritten step by step, as the bound of `within64?` is too great a literal to be compared by unfolding
    rw [spanSign_eq h]
    dsimp only
    rw [spanWhole?_eq h hend, Option.bind_eq_bind, Option.bind_some]
    dsimp only
    rw [if_neg Bool.false_ne_true]
    cases Decimal.within64? (Decimal.ofDigits digits : ℤ) <;> rfl

/-- The value that a numeral makes in a document is the whole number that it denotes, if this fits into sixty-four
bits with a sign; else the document is at fault. -/
theorem spanValue?_numeral (h : IsNumeral digits) (hend : EndsValue rest) (steps room : ℕ) :
    spanValue? (steps + 1) room (digits ++ rest) =
      (Decimal.within64? (Decimal.ofDigits digits : ℤ)).map fun n => (.integer n, rest) := by
  have hsimple : spanSimple? (digits ++ rest) =
      (Decimal.within64? (Decimal.ofDigits digits : ℤ)).map fun n => (.integer n, rest) := by
    unfold spanSimple?
    split
    · next heq => exact absurd rfl (ne_of_head h.isDigit hend (by decide) (by decide) heq)
    · next heq => exact absurd rfl (ne_of_head h.isDigit hend (by decide) (by decide) heq)
    · rw [spanMoment?_eq_none h.isDigit hend, spanReal?_eq_none h hend, spanInteger?_eq h hend]
      cases Decimal.within64? (Decimal.ofDigits digits : ℤ) <;> rfl
  obtain ⟨d, tail, rfl⟩ := List.exists_cons_of_ne_nil h.ne_nil
  have hdigit := h.isDigit d (.head _)
  rw [List.cons_append] at hsimple ⊢
  unfold spanValue?
  split
  · next heq => exact absurd (List.cons.inj heq).1 (Decimal.ne_of_isDigit hdigit (by decide))
  · next heq => exact absurd (List.cons.inj heq).1 (Decimal.ne_of_isDigit hdigit (by decide))
  · next heq => exact absurd (List.cons.inj heq).1 (Decimal.ne_of_isDigit hdigit (by decide))
  · next heq => exact absurd (List.cons.inj heq).1 (Decimal.ne_of_isDigit hdigit (by decide))
  · exact hsimple

end Toml

namespace Config.Variables

open Decimal

/-- A text with a digit is no word without one, in letters of either case. -/
theorem foldKey_ne_of_isDigit {text word : String} {d : Char} (hmem : d ∈ text.toList) (hdigit : d.isDigit = true)
    (hword : ∀ c ∈ word.toList, c.isDigit = false) : foldKey text ≠ word := by
  rintro rfl
  have hne : d ≠ '\u212A' := by
    rintro rfl
    contradiction
  have hfolded : foldChar d = d := by rw [foldChar, if_neg hne, toLower_of_isDigit hdigit]
  have hletter := hword d (by
    rw [foldKey, String.toList_ofList, List.mem_map]
    exact ⟨d, hmem, hfolded⟩)
  rw [hdigit] at hletter
  contradiction

/-- A text that spells a whole number consists of an optional sign and its digits. -/
theorem spanSign_of_readInt? {text : List Char} {n : ℤ} (h : readInt? text = some n) :
    ∃ negative digits, spanSign text = (negative, digits) ∧ digits ≠ [] ∧ (∀ c ∈ digits, c.isDigit = true) ∧
      n = if negative then -(ofDigits digits : ℤ) else ofDigits digits := by
  refine ⟨(spanSign text).1, (spanSign text).2, rfl, ?_⟩
  simp only [readInt?, Option.ite_none_left_eq_some, Option.some.injEq, Bool.or_eq_true, not_or, Bool.not_eq_true,
    List.isEmpty_eq_false_iff, Bool.not_eq_false', List.all_eq_true] at h
  exact ⟨h.1.1, h.1.2, h.2.symm⟩

/-- The rest behind a sign is part of the text. -/
theorem mem_of_mem_spanSign {text digits : List Char} {negative : Bool} (h : spanSign text = (negative, digits)) {c : Char}
    (hmem : c ∈ digits) : c ∈ text := by
  unfold spanSign at h
  split at h
  · obtain ⟨-, rfl⟩ := Prod.mk.inj h
    exact .tail _ hmem
  · obtain ⟨-, rfl⟩ := Prod.mk.inj h
    exact .tail _ hmem
  · obtain ⟨-, rfl⟩ := Prod.mk.inj h
    exact hmem

/-- A variable that spells a natural number stands for this number if it fits into sixty-four bits with a sign, and
for the nearest double else. -/
theorem scalarOfText_of_readInt? {text : String} {n : ℕ} (h : readInt? text.toList = some (n : ℤ)) :
    n < 0x8000000000000000 ∧ scalarOfText text = .integer n ∨
      0x8000000000000000 ≤ n ∧ scalarOfText text = .real (ofDecimal n 0) := by
  obtain ⟨negative, digits, hspan, hne, hdigits, hvalue⟩ := spanSign_of_readInt? h
  obtain ⟨d, tail, hhead⟩ := List.exists_cons_of_ne_nil hne
  have hmem : d ∈ text.toList := mem_of_mem_spanSign hspan (hhead ▸ .head _)
  have hdigit : d.isDigit = true := hdigits d (hhead ▸ .head _)
  have htrue : foldKey text ≠ "true" := foldKey_ne_of_isDigit hmem hdigit (by simp)
  have hfalse : foldKey text ≠ "false" := foldKey_ne_of_isDigit hmem hdigit (by simp)
  obtain hsmall | hlarge := lt_or_ge n 0x8000000000000000
  · refine .inl ⟨hsmall, ?_⟩
    rw [scalarOfText, if_neg htrue, if_neg hfalse, h, Option.bind_some, within64?_natCast hsmall]
  · have hnone : within64? (n : ℤ) = none := within64?_natCast_eq_none hlarge
    have hpositive : negative = false := by
      cases negative with
      | false => rfl
      | true =>
        rw [if_pos rfl] at hvalue
        omega
    subst hpositive
    have hdenoted : n = ofDigits digits := by
      rw [if_neg Bool.false_ne_true] at hvalue
      exact_mod_cast hvalue
    refine .inr ⟨hlarge, ?_⟩
    rw [scalarOfText, if_neg htrue, if_neg hfalse, h, Option.bind_some, hnone, readReal?_of_digits hspan hne hdigits,
      ← hdenoted]

end Config.Variables

end FlightPlanner
