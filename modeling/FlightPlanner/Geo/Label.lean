import FlightPlanner.Decimal.Layout
import FlightPlanner.Geo.Coordinate

/-!
# Labels of positions

A position as travellers read it: whole degrees, minutes with three places, and the letter of the
hemisphere, first for the latitude and then for the longitude.
-/

namespace FlightPlanner.Geo

/-- One coordinate split for reading. -/
structure AxisLabel where
  /-- The whole degrees of its magnitude. -/
  degrees : Float
  /-- The minutes beyond them. -/
  minutes : Float
  /-- The letter of the hemisphere. -/
  hemisphere : Char

/-- A coordinate split into degrees and minutes, with one letter for values from zero up and one for all
others. -/
def AxisLabel.ofValue (upper lower : Char) (value : Float) : AxisLabel :=
  let magnitude := value.abs
  let degrees := Binary64.wholePart magnitude
  ⟨degrees, (magnitude - degrees) * 60, if 0 ≤ value then upper else lower⟩

/-- The written form: the degrees in full, the minutes with three places. -/
def AxisLabel.text (label : AxisLabel) : String :=
  Decimal.Layout.plain.write label.degrees ++ "°" ++ Decimal.fixed 3 label.minutes ++ "'" ++
    label.hemisphere.toString

/-- The label of a latitude; the equator counts as north. -/
def latitudeLabel (latitude : Float) : String := (AxisLabel.ofValue 'N' 'S' latitude).text

/-- The label of a longitude; the prime meridian counts as east. -/
def longitudeLabel (longitude : Float) : String := (AxisLabel.ofValue 'E' 'W' longitude).text

/-- The label of a position. -/
def Coordinate.label (position : Coordinate) : String :=
  latitudeLabel position.latitude ++ " " ++ longitudeLabel position.longitude

end FlightPlanner.Geo
