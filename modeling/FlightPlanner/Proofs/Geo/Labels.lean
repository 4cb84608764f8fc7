import FlightPlanner.Geo.Label
import FlightPlanner.Proofs.Binary64.WholeParts
import FlightPlanner.Proofs.Decimal.WrittenForms
import FlightPlanner.Proofs.Geo.FiniteDistances
import FlightPlanner.Proofs.Geo.LabelReading

/-!
# What the label of a position says

The degrees of a label are the whole degrees of the magnitude, and what is left of it is exact; then the minutes are
rounded twice, once to a double and once to thousandths. So a label is off by hardly more than half a thousandth of a
minute, and a greater magnitude never has a label that says less. The degrees are settled before the minutes are
rounded, so that just below a whole degree the minutes may come to sixty.
-/

namespace FlightPlanner.Geo

open Binary64 Decimal

variable {x y : Float} {upper lower : Char}

/-- A finite number of degrees that is at most half a turn to either side. -/
structure WithinHalfTurn (x : Float) : Prop where
  /-- The number is finite. -/
  finite : x.isFinite = true
  /-- It is at most half a turn. -/
  bounded : |valueOf x| ≤ 180

/-- The coordinates of a position on the globe are at most half a turn. -/
theorem Coordinate.OnGlobe.withinHalfTurn {a : Coordinate} (h : a.OnGlobe) :
    WithinHalfTurn a.latitude ∧ WithinHalfTurn a.longitude := by
  have hbetween : ∀ {x : Float}, -180 ≤ x → x ≤ 180 → WithinHalfTurn x := by
    intro x hlow hhigh
    have hfinite := isFinite_of_between (by decide) (by decide) hlow hhigh
    rw [le_iff_valueOf (by decide) hfinite, valueOf_halfTurn.2] at hlow
    rw [le_iff_valueOf hfinite (by decide), valueOf_halfTurn.1] at hhigh
    exact ⟨hfinite, abs_le.mpr ⟨hlow, hhigh⟩⟩
  exact ⟨hbetween (le_trans_number (by decide) h.latitude.1) (le_trans_number h.latitude.2 (by decide)),
    hbetween h.longitude.1 h.longitude.2⟩

/-- The part of a degree beyond the whole degrees of a magnitude. -/
def partOfDegree (x : Float) : ℚ := |valueOf x| - ⌊|valueOf x|⌋₊

/-- It is not below zero, and below one. -/
theorem partOfDegree_bounds (x : Float) : 0 ≤ partOfDegree x ∧ partOfDegree x < 1 := by
  have hfloor := Nat.floor_le (abs_nonneg (valueOf x))
  have hnext := Nat.lt_floor_add_one |valueOf x|
  unfold partOfDegree
  constructor <;> linarith

/-- The minutes beyond the degrees, as they are computed. -/
def minutesOf (x : Float) : Float := (x.abs - wholePart x.abs) * 60

/-- The value of sixty. -/
theorem valueOf_sixty : valueOf 60 = 60 := by
  have hform : (60 : Float).toModel.unpack = .finite .positive 0x1E000000000000 (-47) (by decide) := by rfl
  rw [valueOf, hform, exactOf_positive]
  norm_num

/-- The minutes are the double without a minus sign that is nearest to the exact minutes. -/
theorem minutesOf_spec (h : x.isFinite = true) :
    Unsigned (minutesOf x) ∧ StandsAt (minutesOf x) (nearestPlace (partOfDegree x * 60)) := by
  obtain ⟨habs, hmagnitude⟩ := unsigned_abs h
  obtain ⟨hrest, hvalue⟩ := habs.fraction
  have hpart : valueOf (x.abs - wholePart x.abs) = partOfDegree x := by rw [hvalue, hmagnitude, partOfDegree]
  have hsixty : Unsigned 60 := .of_pos (by decide) (by rw [valueOf_sixty]; norm_num)
  have hstands := standsAt_mul hrest.isFinite hsixty.isFinite
  rw [hpart, valueOf_sixty] at hstands
  refine ⟨hrest.mul hsixty ?_ (lt_overflow ?_), hstands⟩
  · rw [valueOf_sixty]
    norm_num
  · rw [hpart, valueOf_sixty]
    linarith [(partOfDegree_bounds x).2]

/-- They are off the exact minutes by half of their last place at most. -/
theorem abs_minutesOf_sub_le (h : x.isFinite = true) : |valueOf (minutesOf x) - partOfDegree x * 60| ≤ 1 / 2 ^ 48 := by
  obtain ⟨hunsigned, hstands⟩ := minutesOf_spec h
  obtain ⟨hnonneg, hless⟩ := partOfDegree_bounds x
  have hround := abs_valueOf_sub_le_of_lt (-47) hstands hunsigned.isFinite (by linarith) (by norm_num)
    (by norm_num; linarith)
  norm_num at hround ⊢
  exact hround

/-- A greater part of a degree has no fewer minutes. -/
theorem minutesOf_mono (hx : x.isFinite = true) (hy : y.isFinite = true) (h : partOfDegree x ≤ partOfDegree y) :
    valueOf (minutesOf x) ≤ valueOf (minutesOf y) := by
  obtain ⟨hxunsigned, hxstands⟩ := minutesOf_spec hx
  obtain ⟨hyunsigned, hystands⟩ := minutesOf_spec hy
  rw [← le_iff_valueOf hxunsigned.isFinite hyunsigned.isFinite]
  exact le_of_standsAt hxstands hystands (by linarith)

/-- The minutes are between zero and sixty, and sixty may be reached. -/
theorem minutesOf_bounds (h : x.isFinite = true) : 0 ≤ valueOf (minutesOf x) ∧ valueOf (minutesOf x) ≤ 60 := by
  obtain ⟨hunsigned, hstands⟩ := minutesOf_spec h
  refine ⟨hunsigned.valueOf_nonneg, ?_⟩
  have hsixty := standsAt_valueOf (x := 60) (by decide)
  rw [valueOf_sixty] at hsixty
  rw [← valueOf_sixty, ← le_iff_valueOf hunsigned.isFinite (by decide)]
  exact le_of_standsAt hstands hsixty (by linarith [(partOfDegree_bounds x).2])

namespace AxisReading

/-- What the half of a label for some degrees says. -/
def ofValue (upper lower : Char) (x : Float) : AxisReading where
  degrees := ⌊|valueOf x|⌋₊
  thousandths := roundEven (valueOf (minutesOf x) * 1000)
  hemisphere := if 0 ≤ valueOf x then upper else lower

/-- It is what is written. -/
theorem text_ofValue (h : WithinHalfTurn x) :
    (AxisLabel.ofValue upper lower x).text = (ofValue upper lower x).text := by
  obtain ⟨habs, hmagnitude⟩ := unsigned_abs h.finite
  obtain ⟨hwhole, hfloor⟩ := habs.whole
  rw [hmagnitude] at hfloor
  have hfew : ⌊|valueOf x|⌋₊ ≤ 9 * 10 ^ 15 := by
    have hmost : ⌊|valueOf x|⌋₊ ≤ 180 := Nat.floor_le_of_le (by exact_mod_cast h.bounded)
    exact hmost.trans (by norm_num)
  have hdegrees := write_plain hwhole hfloor hfew
  have hminutes := fixed_eq 3 (minutesOf_spec h.finite).1
  have hthousand : (10 : ℚ) ^ 3 = 1000 := by norm_num
  have hsign : (0 ≤ x) = (0 ≤ valueOf x) := by
    rw [le_iff_valueOf (by decide) h.finite, valueOf_zero]
  rw [hthousand] at hminutes
  change Layout.plain.write (wholePart x.abs) ++ "°" ++ fixed 3 (minutesOf x) ++ "'" ++
    (if 0 ≤ x then upper else lower).toString = _
  simp only [hdegrees, hminutes, hsign, text, ofValue]

/-- Its value and the minutes of it. -/
theorem value_ofValue (upper lower : Char) (x : Float) :
    (ofValue upper lower x).value = ⌊|valueOf x|⌋₊ + roundEven (valueOf (minutesOf x) * 1000) / 1000 / 60 := rfl

/-- Minutes are never rounded to more than sixty. -/
theorem thousandths_ofValue_le (upper lower : Char) (h : x.isFinite = true) : (ofValue upper lower x).thousandths ≤ 60000 := by
  refine roundEven_le ?_
  push_cast
  linarith [(minutesOf_bounds h).2]

/-- They are rounded to sixty when they are at most half a thousandth below. -/
theorem minutes_ofValue_eq_iff (h : x.isFinite = true) :
    (ofValue upper lower x).minutes = 60 ↔ 599995 / 10000 ≤ valueOf (minutesOf x) := by
  obtain ⟨hnonneg, hmost⟩ := minutesOf_bounds h
  have hsixty : (ofValue upper lower x).minutes = 60 ↔ roundEven (valueOf (minutesOf x) * 1000) = 60000 := by
    have hthousandths : (ofValue upper lower x).minutes = roundEven (valueOf (minutesOf x) * 1000) / 1000 := rfl
    rw [hthousandths, div_eq_iff (by norm_num)]
    norm_num
    norm_cast
  rw [hsixty, roundEven_eq_iff (by positivity), IsNearest, if_pos (by decide)]
  push_cast
  constructor
  · rintro ⟨hlow, -⟩
    linarith
  · intro hlow
    constructor <;> linarith

/-- What it comes to is off the magnitude by hardly more than half a thousandth of a minute. -/
theorem close_ofValue (h : x.isFinite = true) :
    |60 * (ofValue upper lower x).value - 60 * (|valueOf x|)| ≤ 5 / 10000 + 1 / 2 ^ 48 := by
  have hnonneg := (minutesOf_bounds h).1
  have hcomputed := abs_le.mp (abs_minutesOf_sub_le h)
  have hrounded := abs_le.mp (abs_roundEven_sub_le (x := valueOf (minutesOf x) * 1000) (by positivity))
  rw [partOfDegree] at hcomputed
  rw [value_ofValue, abs_le]
  constructor <;> linarith

/-- A greater magnitude does not come to less. -/
theorem value_ofValue_mono (hx : x.isFinite = true) (hy : y.isFinite = true) (h : |valueOf x| ≤ |valueOf y|) :
    (ofValue upper lower x).value ≤ (ofValue upper lower y).value := by
  rw [value_ofValue, value_ofValue]
  obtain hless | hsame := (Nat.floor_le_floor h).lt_or_eq
  · -- the minutes of the smaller one come to one degree at most
    have hnext : (⌊|valueOf x|⌋₊ : ℚ) + 1 ≤ ⌊|valueOf y|⌋₊ := by exact_mod_cast hless
    have hmost : (roundEven (valueOf (minutesOf x) * 1000) : ℚ) ≤ 60000 := by
      exact_mod_cast thousandths_ofValue_le upper lower hx
    have hleast : (0 : ℚ) ≤ roundEven (valueOf (minutesOf y) * 1000) := Nat.cast_nonneg _
    linarith
  · have hpart : partOfDegree x ≤ partOfDegree y := by
      rw [partOfDegree, partOfDegree, hsame]
      linarith
    have hminutes := minutesOf_mono hx hy hpart
    have hthousandths : (roundEven (valueOf (minutesOf x) * 1000) : ℚ) ≤ roundEven (valueOf (minutesOf y) * 1000) := by
      exact_mod_cast roundEven_mono (by linarith)
    rw [hsame]
    linarith

/-- What is read off a label tells some degrees: within half a thousandth of a minute, and on the right side. -/
structure Tells (upper lower : Char) (x : Float) (reading : AxisReading) : Prop where
  /-- It is off their magnitude by hardly more than half a thousandth of a minute. -/
  close : |60 * reading.value - 60 * (|valueOf x|)| ≤ 5 / 10000 + 1 / 2 ^ 48
  /-- The letter is that of the side on which they are; both zeros are on the upper one. -/
  hemisphere : reading.hemisphere = if 0 ≤ valueOf x then upper else lower

/-- What is read off a label splits some degrees: whole ones first, and then what is left in minutes. -/
structure Splits (upper lower : Char) (x : Float) (reading : AxisReading) : Prop where
  /-- The degrees are the whole ones of the magnitude. -/
  degrees : reading.degrees = ⌊|valueOf x|⌋₊
  /-- The minutes are sixty at most. -/
  minutes_le : reading.minutes ≤ 60
  /-- They are sixty when what is computed for them is at most half a thousandth below. -/
  minutes_eq : reading.minutes = 60 ↔ 599995 / 10000 ≤ valueOf (AxisLabel.ofValue upper lower x).minutes
  /-- The letter is that of the side on which the degrees are. -/
  hemisphere : reading.hemisphere = if 0 ≤ valueOf x then upper else lower

/-- What is written for some degrees tells them. -/
theorem tells_ofValue (upper lower : Char) (h : x.isFinite = true) :
    (ofValue upper lower x).Tells upper lower x := ⟨close_ofValue h, rfl⟩

/-- What is written for some degrees splits them. -/
theorem splits_ofValue (upper lower : Char) (h : x.isFinite = true) :
    (ofValue upper lower x).Splits upper lower x := by
  refine ⟨rfl, ?_, minutes_ofValue_eq_iff h, rfl⟩
  have hmost : ((ofValue upper lower x).thousandths : ℚ) ≤ 60000 := by exact_mod_cast thousandths_ofValue_le upper lower h
  rw [minutes]
  linarith

end AxisReading

/-- What the label of a position says. -/
def LabelReading.ofPosition (position : Coordinate) : LabelReading :=
  ⟨.ofValue 'N' 'S' position.latitude, .ofValue 'E' 'W' position.longitude⟩

/-- It is what is written. -/
theorem Coordinate.label_eq {position : Coordinate} (h : position.OnGlobe) :
    position.label = (LabelReading.ofPosition position).text := by
  obtain ⟨hlatitude, hlongitude⟩ := h.withinHalfTurn
  rw [label, latitudeLabel, longitudeLabel, AxisReading.text_ofValue hlatitude, AxisReading.text_ofValue hlongitude]
  rfl

/-- It is what is read. -/
theorem Coordinate.read?_label {position : Coordinate} (h : position.OnGlobe) :
    LabelReading.read? position.label = some (.ofPosition position) := by
  have hletter : ∀ {upper lower : Char} {x : Float}, upper.isAlpha = true → lower.isAlpha = true →
      (AxisReading.ofValue upper lower x).hemisphere.isAlpha = true := by
    intro upper lower x hupper hlower
    unfold AxisReading.ofValue
    dsimp only
    split
    · exact hupper
    · exact hlower
  rw [label_eq h]
  exact LabelReading.read?_text (hletter (by decide) (by decide)) (hletter (by decide) (by decide))

/-- Of degrees that are not below zero the greater ones have the greater magnitude. -/
theorem abs_valueOf_le_of_le (hx : x.isFinite = true) (hy : y.isFinite = true) (hpos : 0 ≤ x) (h : x ≤ y) :
    |valueOf x| ≤ |valueOf y| := by
  rw [le_iff_valueOf (by decide) hx, valueOf_zero] at hpos
  rw [le_iff_valueOf hx hy] at h
  rwa [abs_of_nonneg hpos, abs_of_nonneg (hpos.trans h)]

/-- The label of a position on the globe can be read, and what is read tells the position, its degrees and its
hemispheres. Of two positions the one with the greater coordinate, the other one not being below zero, never has a label
that says less. -/
theorem Coordinate.label_faithful {position other : Coordinate} (h : position.OnGlobe) (hother : other.OnGlobe) :
    ∃ reading reading' : LabelReading,
      LabelReading.read? position.label = some reading ∧ LabelReading.read? other.label = some reading' ∧
      reading.latitude.Tells 'N' 'S' position.latitude ∧ reading.longitude.Tells 'E' 'W' position.longitude ∧
      (0 ≤ position.latitude → position.latitude ≤ other.latitude →
        reading.latitude.value ≤ reading'.latitude.value) ∧
      (0 ≤ position.longitude → position.longitude ≤ other.longitude →
        reading.longitude.value ≤ reading'.longitude.value) := by
  obtain ⟨hlatitude, hlongitude⟩ := h.isFinite
  obtain ⟨hlatitude', hlongitude'⟩ := hother.isFinite
  refine ⟨.ofPosition position, .ofPosition other, read?_label h, read?_label hother,
    AxisReading.tells_ofValue 'N' 'S' hlatitude, AxisReading.tells_ofValue 'E' 'W' hlongitude, ?_, ?_⟩
  · intro hpos hle
    exact AxisReading.value_ofValue_mono hlatitude hlatitude' (abs_valueOf_le_of_le hlatitude hlatitude' hpos hle)
  · intro hpos hle
    exact AxisReading.value_ofValue_mono hlongitude hlongitude' (abs_valueOf_le_of_le hlongitude hlongitude' hpos hle)

/-- The label of an airport in New York says less than that of a position whose minutes are rounded to sixty. -/
theorem Coordinate.label_faithful_kennedy :
    let kennedy : Coordinate := ⟨40.6413, -73.7781⟩
    let other : Coordinate := ⟨40.9999999999, 0⟩
    kennedy.label = "40°38.478'N 73°46.686'W" ∧ other.label = "40°60.000'N 0°0.000'E" ∧
      ∃ reading reading', LabelReading.read? kennedy.label = some reading ∧
        LabelReading.read? other.label = some reading' ∧ reading.latitude.Tells 'N' 'S' 40.6413 ∧
        reading.longitude.Tells 'E' 'W' (-73.7781) ∧ reading.latitude.value ≤ reading'.latitude.value := by
  intro kennedy other
  have hkennedy : kennedy.OnGlobe := ⟨by decide +kernel, by decide +kernel⟩
  have hother : other.OnGlobe := ⟨by decide +kernel, by decide +kernel⟩
  obtain ⟨reading, reading', hread, hread', hlatitude, hlongitude, horder, -⟩ := label_faithful hkennedy hother
  exact ⟨by decide +kernel, by decide +kernel, reading, reading', hread, hread', hlatitude, hlongitude,
    horder (by decide +kernel) (by decide +kernel)⟩

namespace LabelReading

/-- No minutes are sixty. -/
structure Proper (reading : LabelReading) : Prop where
  /-- Those of the latitude are fewer. -/
  latitude : reading.latitude.minutes < 60
  /-- Those of the longitude are fewer. -/
  longitude : reading.longitude.minutes < 60

/-- Two labels say the same of a position. -/
structure SamePosition (reading reading' : LabelReading) : Prop where
  /-- The latitudes come to the same. -/
  latitude : reading.latitude.value = reading'.latitude.value
  /-- They are on the same side of the equator. -/
  latitudeSide : reading.latitude.hemisphere = reading'.latitude.hemisphere
  /-- The longitudes come to the same. -/
  longitude : reading.longitude.value = reading'.longitude.value
  /-- They are on the same side of the prime meridian. -/
  longitudeSide : reading.longitude.hemisphere = reading'.longitude.hemisphere

/-- Labels without sixty minutes that say the same are the same. -/
theorem Proper.eq_of_samePosition {reading reading' : LabelReading} (h : reading.Proper) (h' : reading'.Proper)
    (hsame : reading.SamePosition reading') : reading = reading' := by
  have hlatitudes := AxisReading.eq_of_value_eq h.latitude h'.latitude hsame.latitude hsame.latitudeSide
  have hlongitudes := AxisReading.eq_of_value_eq h.longitude h'.longitude hsame.longitude hsame.longitudeSide
  obtain ⟨latitude, longitude⟩ := reading
  obtain ⟨latitude', longitude'⟩ := reading'
  simp only at hlatitudes hlongitudes
  rw [hlatitudes, hlongitudes]

end LabelReading

/-- The label of a position on the globe has one form, and splits the coordinates into whole degrees and minutes up to
sixty. Where neither of two labels has sixty minutes, they are the same as soon as they say the same. -/
theorem Coordinate.label_form {position other : Coordinate} (h : position.OnGlobe) (hother : other.OnGlobe) :
    ∃ reading reading' : LabelReading,
      LabelReading.read? position.label = some reading ∧ LabelReading.read? other.label = some reading' ∧
      position.label = reading.text ∧ reading.latitude.Splits 'N' 'S' position.latitude ∧
      reading.longitude.Splits 'E' 'W' position.longitude ∧
      (reading.Proper → reading'.Proper → reading.SamePosition reading' → position.label = other.label) := by
  obtain ⟨hlatitude, hlongitude⟩ := h.isFinite
  refine ⟨.ofPosition position, .ofPosition other, read?_label h, read?_label hother, label_eq h,
    AxisReading.splits_ofValue 'N' 'S' hlatitude, AxisReading.splits_ofValue 'E' 'W' hlongitude, ?_⟩
  intro hproper hproper' hsame
  rw [label_eq h, label_eq hother, hproper.eq_of_samePosition hproper' hsame]

/-- Two positions near the middle of the first degree have labels without sixty minutes that say the same. -/
theorem Coordinate.label_form_half_degree :
    let position : Coordinate := ⟨0.5, 0⟩
    let other : Coordinate := ⟨0.50000000001, 0⟩
    position.label = "0°30.000'N 0°0.000'E" ∧ position.label = other.label := by
  intro position other
  have hposition : position.OnGlobe := ⟨by decide +kernel, by decide +kernel⟩
  have hother : other.OnGlobe := ⟨by decide +kernel, by decide +kernel⟩
  obtain ⟨reading, reading', hread, hread', -, -, -, hform⟩ := label_form hposition hother
  have hhalf : LabelReading.read? position.label = some ⟨⟨0, 30000, 'N'⟩, ⟨0, 0, 'E'⟩⟩ := by decide +kernel
  have hhalf' : LabelReading.read? other.label = some ⟨⟨0, 30000, 'N'⟩, ⟨0, 0, 'E'⟩⟩ := by decide +kernel
  obtain rfl := Option.some.inj (hhalf.symm.trans hread)
  obtain rfl := Option.some.inj (hhalf'.symm.trans hread')
  have hproper : LabelReading.Proper ⟨⟨0, 30000, 'N'⟩, ⟨0, 0, 'E'⟩⟩ := by
    constructor <;> norm_num [AxisReading.minutes]
  exact ⟨by decide +kernel, hform hproper hproper ⟨rfl, rfl, rfl, rfl⟩⟩

/-- Just below one degree the label says sixty minutes, and the label of one degree says the same with other
characters. -/
theorem Coordinate.label_sixty_minutes :
    let position : Coordinate := ⟨0.999999999, 0⟩
    let other : Coordinate := ⟨1, 0⟩
    let reading : LabelReading := ⟨⟨0, 60000, 'N'⟩, ⟨0, 0, 'E'⟩⟩
    let reading' : LabelReading := ⟨⟨1, 0, 'N'⟩, ⟨0, 0, 'E'⟩⟩
    position.OnGlobe ∧ other.OnGlobe ∧ position.label = "0°60.000'N 0°0.000'E" ∧ position.label = reading.text ∧
      other.label = "1°0.000'N 0°0.000'E" ∧ other.label = reading'.text ∧ reading.latitude.minutes = 60 ∧
      reading.SamePosition reading' := by
  intro position other reading reading'
  refine ⟨⟨by decide +kernel, by decide +kernel⟩, ⟨by decide +kernel, by decide +kernel⟩, by decide +kernel,
    by decide +kernel, by decide +kernel, by decide +kernel, ?_, ?_, rfl, rfl, rfl⟩
  · norm_num [reading, AxisReading.minutes]
  · norm_num [reading, reading', AxisReading.value, AxisReading.minutes]

end FlightPlanner.Geo
