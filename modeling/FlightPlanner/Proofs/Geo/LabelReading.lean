import FlightPlanner.Proofs.Decimal.Digits
import Mathlib.Tactic

/-!
# Labels are read

The half of a label that is about one axis is read as degrees, minutes in thousandths and the letter of the hemisphere.
What is written in this form is read back. A position can be written in two ways only where sixty minutes are written
for a degree.
-/

namespace FlightPlanner.Geo

open Decimal

/-- What the half of a label says of one axis. -/
structure AxisReading where
  /-- The whole degrees. -/
  degrees : ℕ
  /-- The minutes beyond them, in thousandths. -/
  thousandths : ℕ
  /-- The letter of the hemisphere. -/
  hemisphere : Char
deriving DecidableEq

namespace AxisReading

/-- The minutes beyond the degrees. -/
def minutes (reading : AxisReading) : ℚ := reading.thousandths / 1000

/-- The degrees with their minutes, without a sign. -/
def value (reading : AxisReading) : ℚ := reading.degrees + reading.minutes / 60

/-- The written form: the digits of the degrees, a degree sign, minutes with three places, an apostrophe and the
letter. -/
def text (reading : AxisReading) : String :=
  toString reading.degrees ++ "°" ++ writeUnits 3 reading.thousandths ++ "'" ++ reading.hemisphere.toString

/-- The half of a label that fills a text is read: digits, a degree sign, digits with just three places behind a point,
an apostrophe and a letter. -/
def read? (text : List Char) : Option AxisReading :=
  let (degrees, rest) := spanDigits text
  match rest with
  | '°' :: rest =>
    let (whole, rest) := spanDigits rest
    match rest with
    | '.' :: rest =>
      let (places, rest) := spanDigits rest
      match rest with
      | ['\'', hemisphere] =>
        if degrees.isEmpty || whole.isEmpty || places.length ≠ 3 || !hemisphere.isAlpha then none
        else some ⟨ofDigits degrees, ofDigits (whole ++ places), hemisphere⟩
      | _ => none
    | _ => none
  | _ => none

/-- The characters of the written form. -/
theorem toList_text (reading : AxisReading) :
    ∃ places, places.length = 3 ∧ (∀ c ∈ places, c.isDigit = true) ∧
      ofDigits (Nat.toDigits 10 (reading.thousandths / 1000) ++ places) = reading.thousandths ∧
      reading.text.toList = Nat.toDigits 10 reading.degrees ++
        '°' :: (Nat.toDigits 10 (reading.thousandths / 1000) ++ '.' :: (places ++ ['\'', reading.hemisphere])) := by
  have hrest : reading.thousandths % 1000 < 10 ^ 3 := Nat.mod_lt _ (by decide)
  obtain ⟨hlength, hdigits, hdenotes⟩ := filled_spec (by decide) hrest
  refine ⟨_, hlength, hdigits, ?_, ?_⟩
  · rw [ofDigits_append, ofDigits_toDigits, hlength, hdenotes]
    exact Nat.div_add_mod' _ _
  · simp [text, writeUnits]

/-- What is written is read back. -/
theorem read?_text {reading : AxisReading} (h : reading.hemisphere.isAlpha = true) :
    read? reading.text.toList = some reading := by
  obtain ⟨places, hlength, hplaces, hdenotes, htext⟩ := reading.toList_text
  have hdigits : ∀ {n : ℕ}, ∀ c ∈ Nat.toDigits 10 n, c.isDigit = true := fun _ => isDigit_toDigits
  have hdegrees : ∀ {n : ℕ} {rest : List Char}, spanDigits (Nat.toDigits 10 n ++ '°' :: rest) =
      (Nat.toDigits 10 n, '°' :: rest) := spanDigits_append hdigits (by simp)
  have hwhole : ∀ {n : ℕ} {rest : List Char}, spanDigits (Nat.toDigits 10 n ++ '.' :: rest) =
      (Nat.toDigits 10 n, '.' :: rest) := spanDigits_append hdigits (by simp)
  have hbehind : spanDigits (places ++ ['\'', reading.hemisphere]) = (places, ['\'', reading.hemisphere]) :=
    spanDigits_append hplaces (by simp)
  simp only [htext, read?, hdegrees, hwhole, hbehind]
  simp [Nat.toDigits_ne_nil, hlength, h, hdenotes]

/-- No blank is written, if the letter is none. -/
theorem ne_blank_of_mem {reading : AxisReading} (h : reading.hemisphere.isAlpha = true) :
    ∀ c ∈ reading.text.toList, c ≠ ' ' := by
  obtain ⟨places, -, hplaces, -, htext⟩ := reading.toList_text
  have hdigit : ∀ {c : Char}, c.isDigit = true → c ≠ ' ' := by
    rintro c hc rfl
    contradiction
  have hletter : reading.hemisphere ≠ ' ' := by
    intro hblank
    rw [hblank] at h
    contradiction
  intro c hc
  simp only [htext, List.mem_append, List.mem_cons, List.not_mem_nil, or_false] at hc
  rcases hc with hc | rfl | hc | rfl | hc | rfl | rfl
  · exact hdigit (isDigit_toDigits hc)
  · decide
  · exact hdigit (isDigit_toDigits hc)
  · decide
  · exact hdigit (hplaces c hc)
  · decide
  · exact hletter

/-- Below sixty minutes, readings that come to the same in the same hemisphere are the same. -/
theorem eq_of_value_eq {r s : AxisReading} (hr : r.minutes < 60) (hs : s.minutes < 60) (hvalue : r.value = s.value)
    (hemisphere : r.hemisphere = s.hemisphere) : r = s := by
  have hbound : ∀ {t : AxisReading}, t.minutes < 60 → t.thousandths < 60000 := by
    intro t ht
    rw [minutes, div_lt_iff₀ (by norm_num)] at ht
    norm_num at ht
    exact_mod_cast ht
  have hunits : r.degrees * 60000 + r.thousandths = s.degrees * 60000 + s.thousandths := by
    unfold value minutes at hvalue
    have hscaled : (r.degrees * 60000 + r.thousandths : ℚ) = s.degrees * 60000 + s.thousandths := by linarith
    exact_mod_cast hscaled
  have hrlt := hbound hr
  have hslt := hbound hs
  obtain ⟨degrees, thousandths, letter⟩ := r
  obtain ⟨degrees', thousandths', letter'⟩ := s
  simp only at *
  obtain rfl : degrees = degrees' := by omega
  obtain rfl : thousandths = thousandths' := by omega
  rw [hemisphere]

end AxisReading

/-- What a label says of a position. -/
structure LabelReading where
  /-- What it says of the latitude. -/
  latitude : AxisReading
  /-- What it says of the longitude. -/
  longitude : AxisReading
deriving DecidableEq

namespace LabelReading

/-- The written form: one half for each axis, with a blank between them. -/
def text (reading : LabelReading) : String := reading.latitude.text ++ " " ++ reading.longitude.text

/-- A label is read on either side of its first blank. -/
def read? (label : String) : Option LabelReading :=
  match label.toList.dropWhile (· != ' ') with
  | ' ' :: rest =>
    match AxisReading.read? (label.toList.takeWhile (· != ' ')), AxisReading.read? rest with
    | some latitude, some longitude => some ⟨latitude, longitude⟩
    | _, _ => none
  | _ => none

/-- What is written is read back. -/
theorem read?_text {reading : LabelReading} (hlatitude : reading.latitude.hemisphere.isAlpha = true)
    (hlongitude : reading.longitude.hemisphere.isAlpha = true) : read? reading.text = some reading := by
  have htext : reading.text.toList = reading.latitude.text.toList ++ ' ' :: reading.longitude.text.toList := by
    simp [text]
  have hnone : ∀ c ∈ reading.latitude.text.toList, (c != ' ') = true := by
    intro c hc
    exact bne_iff_ne.mpr (AxisReading.ne_blank_of_mem hlatitude c hc)
  have htake : (reading.latitude.text.toList ++ ' ' :: reading.longitude.text.toList).takeWhile (· != ' ') =
      reading.latitude.text.toList := by
    rw [List.takeWhile_append_of_pos hnone]
    simp
  have hdrop : (reading.latitude.text.toList ++ ' ' :: reading.longitude.text.toList).dropWhile (· != ' ') =
      ' ' :: reading.longitude.text.toList := by
    rw [List.dropWhile_append_of_pos hnone]
    simp
  simp only [read?, htext, htake, hdrop, AxisReading.read?_text hlatitude, AxisReading.read?_text hlongitude]

end LabelReading

end FlightPlanner.Geo
