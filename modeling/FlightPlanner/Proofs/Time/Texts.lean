import FlightPlanner.Proofs.Decimal.Digits
import FlightPlanner.Time.Timestamp

/-!
# Written moments are read back

In the internet form every number of a moment has its own width, zeros in front making up for missing digits, and the
part of a second has as many places as it needs. Reading takes a number of just that width and then the mark that
follows it, so that each part comes back as it was written, the sixtieth second included.
-/

namespace FlightPlanner.Time

open Decimal

/-- No month has more than thirty-one days. -/
theorem daysIn_le (year : Int) (month : Nat) : daysIn year month ≤ 31 := by
  unfold daysIn
  repeat' split
  all_goals omega

/-- The numbers of a day are those of one. -/
theorem Date.ofNumbers?_eq (d : Date) : Date.ofNumbers? d.year d.month d.day = some d := by
  simp [Date.ofNumbers?, d.month_mem, d.day_mem]

namespace Timestamp

variable {width n : Nat}

/-- A number in a width that is enough for it has that many characters, all of them digits, and they denote it. -/
theorem padded_spec (hwidth : 0 < width) (hn : n < 10 ^ width) :
    ∃ digits, (padded width n).toList = digits ∧ digits.length = width ∧
      (∀ c ∈ digits, c.isDigit = true) ∧ ofDigits digits = n :=
  ⟨_, rfl, filled_spec hwidth hn⟩

/-- A number in its width is read back, whatever follows it. -/
theorem spanNumber?_padded (hwidth : 0 < width) (hn : n < 10 ^ width) (rest : List Char) :
    spanNumber? width ((padded width n).toList ++ rest) = some (n, rest) := by
  obtain ⟨digits, htext, rfl, hdigits, rfl⟩ := padded_spec hwidth hn
  rw [htext]
  have hspan : digits.takeWhile Char.isDigit = digits := by
    have hall := spanDigits_append hdigits (by simp : ∀ c ∈ ([] : List Char).head?, c.isDigit = false)
    simpa [spanDigits] using congrArg Prod.fst hall
  have hne : digits.isEmpty = false := by
    cases digits with
    | nil => contradiction
    | cons c digits => rfl
  have htrim : Text.trimStart (digits ++ rest) = digits ++ rest := by
    cases digits with
    | nil => contradiction
    | cons c digits => exact Text.trimStart_cons (Text.isBlank_of_isDigit (hdigits c List.mem_cons_self)) _
  simp [spanNumber?, htrim, hspan, hne]

/-- A mark that is no blank is read where it stands. -/
theorem spanMark?_cons {mark : Char} (h : Text.isBlank mark = false) (rest : List Char) :
    spanMark? mark (mark :: rest) = some rest := by
  simp [spanMark?, Text.trimStart_cons h]

/-- A year in four digits is read back, whatever follows it. -/
theorem spanYear?_yearText {year : Int} (hlow : 0 ≤ year) (hhigh : year ≤ 9999) (rest : List Char) :
    spanYear? ((yearText year).toList ++ rest) = some (year, rest) := by
  obtain ⟨n, rfl⟩ := Int.eq_ofNat_of_zero_le hlow
  have hn : n < 10 ^ 4 := by omega
  have htext : yearText n = padded 4 n := by simp [yearText, hlow, hhigh]
  have hspan := spanNumber?_padded (by decide) hn rest
  obtain ⟨digits, hdigitsText, hlength, hdigits, -⟩ := padded_spec (by decide) hn
  rw [htext]
  rw [hdigitsText] at hspan ⊢
  obtain ⟨c, digits, rfl⟩ := List.exists_cons_of_length_eq_add_one hlength
  have hc : c.isDigit = true := hdigits c List.mem_cons_self
  rw [List.cons_append] at hspan ⊢
  unfold spanYear?
  rw [Text.trimStart_cons (Text.isBlank_of_isDigit hc)]
  split
  · next heq =>
    rw [(List.cons.inj heq).1] at hc
    exact absurd hc (by decide)
  · next heq =>
    rw [(List.cons.inj heq).1] at hc
    exact absurd hc (by decide)
  · rw [hspan]
    rfl

/-- A part of a second in so many places is read back, up to the letter behind it. -/
theorem spanFraction?_padded (hwidth : 0 < width) (hle : width ≤ 9) (hn : n < 10 ^ width) :
    spanFraction? ('.' :: ((padded width n).toList ++ ['Z'])) =
      some (n * 10 ^ (9 - width), ['Z']) := by
  obtain ⟨digits, htext, rfl, hdigits, rfl⟩ := padded_spec hwidth hn
  have hspan := spanDigits_append hdigits (by simp : ∀ c ∈ ['Z'].head?, c.isDigit = false)
  have hne : digits ≠ [] := List.ne_nil_of_length_pos hwidth
  have htake : digits.take 9 = digits := List.take_of_length_le hle
  simp [spanFraction?, htext, hspan, hne, htake]

/-- The part of a second is read back, up to the letter behind it. -/
theorem spanFraction?_fractionText {nanosecond : Nat} (h : nanosecond < 1000000000) :
    spanFraction? ((fractionText nanosecond).toList ++ ['Z']) = some (nanosecond, ['Z']) := by
  unfold fractionText
  split
  · next hzero =>
    subst hzero
    rfl
  · split
    · next hmilli =>
      have hspan := spanFraction?_padded (by decide : 0 < 3) (by decide)
        (by omega : nanosecond / 1000000 < 10 ^ 3)
      have hback : nanosecond / 1000000 * 10 ^ (9 - 3) = nanosecond := by omega
      rw [hback] at hspan
      simpa using hspan
    · split
      · next hmicro =>
        have hspan := spanFraction?_padded (by decide : 0 < 6) (by decide) (by omega : nanosecond / 1000 < 10 ^ 6)
        have hback : nanosecond / 1000 * 10 ^ (9 - 6) = nanosecond := by omega
        rw [hback] at hspan
        simpa using hspan
      · have hspan := spanFraction?_padded (by decide : 0 < 9) (by decide) (by omega : nanosecond < 10 ^ 9)
        simpa using hspan

/-- The numbers of a moment are those of one. -/
theorem ofNumbers?_eq (t : Timestamp) :
    ofNumbers? t.date t.hour t.minute t.second t.nanosecond = some t := by
  simp [ofNumbers?, t.hour_lt, t.minute_lt, t.second_le, t.nanosecond_lt]

/-- The date and time of a moment are those of a place whose clocks show universal time. -/
theorem ofLocal?_eq (t : Timestamp) :
    ofLocal? t.date t.hour t.minute t.second t.nanosecond 0 = some t := by
  have hhour := t.hour_lt
  have hminute := t.minute_lt
  have hclock : (24 ≤ t.hour || 60 ≤ t.minute || 1440 ≤ (0 : Int).natAbs) = false := by
    simp
    omega
  have hminutes : (60 * t.hour + t.minute : Int) - 0 = ((60 * t.hour + t.minute : Nat) : Int) := by omega
  have hnonneg : ¬ ((60 * t.hour + t.minute : Nat) : Int) < 0 := by omega
  have hday : ¬ (1440 : Int) ≤ ((60 * t.hour + t.minute : Nat) : Int) := by omega
  have hrest : (((60 * t.hour + t.minute : Nat) : Int) % 1440).toNat = 60 * t.hour + t.minute := by omega
  have hhours : (60 * t.hour + t.minute) / 60 = t.hour := by omega
  have hrestMinutes : (60 * t.hour + t.minute) % 60 = t.minute := by omega
  rw [ofLocal?, hclock, hminutes]
  simp only [Bool.false_eq_true, if_false, if_neg hnonneg, if_neg hday, hrest, hhours, hrestMinutes]
  exact ofNumbers?_eq t

/-- The written form of a moment in a year of four digits denotes it. -/
theorem ofText_text (t : Timestamp) (hlow : 0 ≤ t.date.year) (hhigh : t.date.year ≤ 9999) :
    ofText t.text = .ok t := by
  have hholds : holdsYear t.date.year = true := by
    simp [holdsYear]
    omega
  have hmonth : t.date.month < 10 ^ 2 := by have := t.date.month_mem; omega
  have hday : t.date.day < 10 ^ 2 := by
    have := t.date.day_mem
    have := daysIn_le t.date.year t.date.month
    omega
  have hhour : t.hour < 10 ^ 2 := by have := t.hour_lt; omega
  have hminute : t.minute < 10 ^ 2 := by have := t.minute_lt; omega
  have hsecond : t.second < 10 ^ 2 := by have := t.second_le; omega
  have hread : read? t.text = some t := by
    have htext : t.text.toList = (yearText t.date.year).toList ++ '-' :: ((padded 2 t.date.month).toList ++
        '-' :: ((padded 2 t.date.day).toList ++ 'T' :: ((padded 2 t.hour).toList ++
          ':' :: ((padded 2 t.minute).toList ++ ':' :: ((padded 2 t.second).toList ++
            ((fractionText t.nanosecond).toList ++ ['Z'])))))) := by
      simp [text]
    rw [read?, htext]
    refine Option.bind_eq_some_iff.2 ⟨_, spanYear?_yearText hlow hhigh _, ?_⟩
    refine Option.bind_eq_some_iff.2 ⟨_, spanMark?_cons rfl _, ?_⟩
    refine Option.bind_eq_some_iff.2 ⟨_, spanNumber?_padded (by decide) hmonth _, ?_⟩
    refine Option.bind_eq_some_iff.2 ⟨_, spanMark?_cons rfl _, ?_⟩
    refine Option.bind_eq_some_iff.2 ⟨_, spanNumber?_padded (by decide) hday _, ?_⟩
    refine Option.bind_eq_some_iff.2 ⟨_, rfl, ?_⟩
    refine Option.bind_eq_some_iff.2 ⟨_, spanNumber?_padded (by decide) hhour _, ?_⟩
    refine Option.bind_eq_some_iff.2 ⟨_, spanMark?_cons rfl _, ?_⟩
    refine Option.bind_eq_some_iff.2 ⟨_, spanNumber?_padded (by decide) hminute _, ?_⟩
    refine Option.bind_eq_some_iff.2 ⟨_, spanMark?_cons rfl _, ?_⟩
    refine Option.bind_eq_some_iff.2 ⟨_, spanNumber?_padded (by decide) hsecond _, ?_⟩
    refine Option.bind_eq_some_iff.2 ⟨_, spanFraction?_fractionText t.nanosecond_lt, ?_⟩
    refine Option.bind_eq_some_iff.2 ⟨(0, []), rfl, ?_⟩
    have hend : ((Text.trimStart []).isEmpty && holdsYear t.date.year) = true := hholds
    refine (if_pos hend).trans ?_
    exact Option.bind_eq_some_iff.2 ⟨t.date, Date.ofNumbers?_eq t.date, ofLocal?_eq t⟩
  rw [ofText, hread]
  simp [hholds]

end Timestamp

end FlightPlanner.Time
