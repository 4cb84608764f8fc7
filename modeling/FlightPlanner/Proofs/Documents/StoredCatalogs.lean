import FlightPlanner.Proofs.Documents.Finiteness
import FlightPlanner.Proofs.Json.Rereading

/-!
# Catalogs are loaded from their documents

Every catalog of airports at finite positions can be written and loaded. Everything but the positions comes back as it
was. The numbers of a position come back within a few roundings of what they were: their written forms are read with
more than one rounding, so that they need not be the same doubles. Where they have few decimal digits they are.
-/

namespace FlightPlanner

open Json

variable {a : Geo.Coordinate} {airport : Airport} {airports : List Airport}

/-- Whether both numbers of a position have few digits. -/
structure Geo.Coordinate.IsShort (a : Geo.Coordinate) : Prop where
  /-- The latitude does. -/
  latitude : Json.IsShort a.latitude
  /-- The longitude does. -/
  longitude : Json.IsShort a.longitude

/-- What a position comes back as. -/
theorem back_position : Echo.position.back a = ⟨reread a.latitude, reread a.longitude⟩ := rfl

/-- A position whose numbers have few digits comes back as it was. -/
theorem back_position_of_isShort (h : a.IsShort) : Echo.position.back a = a := by
  rw [back_position, (reread_of_isShort h.latitude).2, (reread_of_isShort h.longitude).2]

/-- An airport that may be loaded where another one was stored. -/
structure Airport.StoredAs (airport stored : Airport) : Prop where
  /-- The codes are the same. -/
  code : stored.code = airport.code
  /-- The names are the same. -/
  name : stored.name = airport.name
  /-- The classes are the same. -/
  airportClass : stored.airportClass = airport.airportClass
  /-- The latitudes are near each other. -/
  latitude : ReadBackAs airport.location.latitude stored.location.latitude
  /-- The longitudes are near each other. -/
  longitude : ReadBackAs airport.location.longitude stored.location.longitude

/-- What an airport comes back as differs in its position only. -/
theorem back_airport : Echo.airport.back airport = { airport with location := Echo.position.back airport.location } :=
  rfl

/-- What an airport at a finite position comes back as may be loaded where it was stored. -/
theorem Airport.storedAs_back (h : airport.location.IsFinite) : airport.StoredAs (Echo.airport.back airport) :=
  ⟨rfl, rfl, rfl, readBackAs_reread h.latitude, readBackAs_reread h.longitude⟩

/-- A catalog of airports at finite positions is loaded as its airports come back. -/
theorem loadCatalog_encode_eq (h : ∀ airport ∈ airports, airport.location.IsFinite) :
    loadCatalog ((Format.list Airport.record.format).encode airports) = .ok (airports.map Echo.airport.back) := by
  refine Model.catalog.reads_back airports nofun (isFinite_list.2 ?_)
  intro item hitem
  obtain ⟨airport, hmem, rfl⟩ := List.mem_map.1 hitem
  exact isFinite_airport.2 (h airport hmem)

/-- Every catalog of airports at finite positions is loaded from its document: the same airports in the same order,
each at a position within a few roundings of its own. If all positions have few digits, it is the same catalog. -/
theorem loadCatalog_encode (h : ∀ airport ∈ airports, airport.location.IsFinite) :
    ∃ stored, loadCatalog ((Format.list Airport.record.format).encode airports) = .ok stored ∧
      List.Forall₂ Airport.StoredAs airports stored ∧
      ((∀ airport ∈ airports, airport.location.IsShort) → stored = airports) := by
  refine ⟨airports.map Echo.airport.back, loadCatalog_encode_eq h, ?_, fun hshort => ?_⟩
  · rw [List.forall₂_map_right_iff]
    exact List.forall₂_same.2 fun airport hmem => Airport.storedAs_back (h airport hmem)
  · have hsame : ∀ airport ∈ airports, Echo.airport.back airport = id airport := by
      intro airport hmem
      rw [back_airport, back_position_of_isShort (hshort airport hmem), id]
    rw [List.map_congr_left hsame, List.map_id]

/-- Two airports at positions with four decimal places. -/
def twoAirports : List Airport :=
  [⟨"KJFK", "John F. Kennedy", ⟨40.6413, -73.7781⟩, .major⟩, ⟨"EDDB", "Berlin", ⟨52.3667, 13.5033⟩, .regional⟩]

/-- The two airports are at finite positions with few digits and are loaded as they were. -/
theorem loadCatalog_encode_twoAirports :
    (∀ airport ∈ twoAirports, airport.location.IsFinite ∧ airport.location.IsShort) ∧
      loadCatalog ((Format.list Airport.record.format).encode twoAirports) = .ok twoAirports := by
  have hshort : ∀ airport ∈ twoAirports, airport.location.IsShort := by
    refine List.forall_mem_cons.2 ⟨⟨?_, ?_⟩, List.forall_mem_singleton.2 ⟨?_, ?_⟩⟩
    · exact ⟨false, 406413, 4, by decide, by decide, by decide, by decide +kernel⟩
    · exact ⟨true, 737781, 4, by decide, by decide, by decide, by decide +kernel⟩
    · exact ⟨false, 523667, 4, by decide, by decide, by decide, by decide +kernel⟩
    · exact ⟨false, 135033, 4, by decide, by decide, by decide, by decide +kernel⟩
  have hfinite : ∀ airport ∈ twoAirports, airport.location.IsFinite := fun airport hmem =>
    ⟨(reread_of_isShort (hshort airport hmem).latitude).1, (reread_of_isShort (hshort airport hmem).longitude).1⟩
  obtain ⟨stored, hload, -, hsame⟩ := loadCatalog_encode hfinite
  refine ⟨fun airport hmem => ⟨hfinite airport hmem, hshort airport hmem⟩, ?_⟩
  rw [hload, hsame hshort]

/-- An airport at a latitude with seventeen decimal digits is loaded at another latitude. -/
theorem loadCatalog_encode_moved :
    let airport : Airport := ⟨"KJFK", "Kennedy", ⟨40.641300000000044, -73.7781⟩, .major⟩
    airport.location.IsFinite ∧
      ∃ stored, loadCatalog ((Format.list Airport.record.format).encode [airport]) = .ok [stored] ∧
        stored.location.latitude = 40.64130000000005 ∧ stored.location.latitude ≠ airport.location.latitude := by
  intro airport
  have hfinite : airport.location.IsFinite := ⟨by decide +kernel, by decide +kernel⟩
  refine ⟨hfinite, Echo.airport.back airport, loadCatalog_encode_eq (List.forall_mem_singleton.2 hfinite), ?_⟩
  have hlatitude : reread airport.location.latitude = 40.64130000000005 := by decide +kernel
  have hmoved : (40.64130000000005 : Float) ≠ airport.location.latitude := by decide +kernel
  rw [back_airport, back_position]
  exact ⟨hlatitude, fun h => hmoved (hlatitude.symm.trans h)⟩

end FlightPlanner
