import FlightPlanner.Proofs.Documents.Models
import FlightPlanner.Proofs.Json.Modes

/-!
# Which objects are records

An object is accepted as a record exactly when each name the record knows occurs at most once, each field that may not
be missing occurs, and every value under a known name is accepted by its field. What is read depends on the known
members alone, in whatever order they come. A record that contains another one sets the members of that one aside, known
or not, and so all texts in them must be readable; and the class of a ranked airport, which is looked at only then, may
also be the key of an object with an empty object for a value.
-/

namespace FlightPlanner

open Json

variable {α : Type}

/-- Whether a text is an object with these members. -/
structure IsObject (text : String) (members : List (String × Node)) : Prop where
  /-- The text is the object, up to spaces behind it. -/
  node : ∃ rest, Node.ofText text.toList = (.object (keyed members) .closed, some rest) ∧ dropSpaces rest = []
  /-- It is not nested too deeply, and its numbers are in range. -/
  sound : (Node.object (keyed members) .closed).Sound greatestDepth

/-- Whether a text is a list with these items, up to spaces behind it. -/
def IsList (text : String) (items : List Node) : Prop :=
  ∃ rest, Node.ofText text.toList = (.list items .closed, some rest) ∧ dropSpaces rest = []

/-- The names of all fields, those of an inner record included. -/
def RecordModel.names : RecordModel α → List String
  | .plain m => m.record.members.names
  | .extended m => m.record.members.names ++ m.record.inner.members.names

/-- The names of the fields that may not be missing. -/
def RecordModel.required : RecordModel α → List String
  | .plain m => m.record.members.required
  | .extended m => m.record.members.required ++ m.record.inner.members.required

/-- Whether a value is accepted by the field with a name, if there is one, as it is by itself. -/
def RecordModel.FieldsAccept : RecordModel α → String → Node → Prop
  | .plain m, name, node => m.record.members.Accepts (.direct greatestDepth) name node
  | .extended m, name, node => m.record.members.Accepts (.direct greatestDepth) name node ∧
      m.record.inner.members.Accepts (.direct greatestDepth) name node

/-- Whether a member is the class of a ranked airport, written as an object whose only key is the class and whose value
is an empty object. -/
def ExtendedModel.TakesBare : ExtendedModel α → String → Node → Prop
  | .rankedAirport, name, node => name = "class" ∧ ∃ c : AirportClass, IsBare c.name node
  | .scoredFlight, _, _ => False

/-- Whether a record sets a member aside and accepts it only for that. -/
def RecordModel.TakesBare : RecordModel α → String → Node → Prop
  | .plain _, _, _ => False
  | .extended m, name, node => m.TakesBare name node

/-- Whether a member is accepted. -/
def RecordModel.Accepts (m : RecordModel α) (name : String) (node : Node) : Prop :=
  m.FieldsAccept name node ∨ m.TakesBare name node

/-- Whether a member is tolerated, taken by a field or not: where another record is contained, every text in what the
own fields leave must be readable. -/
def RecordModel.Tolerates : RecordModel α → String → Node → Prop
  | .plain _, _, _ => True
  | .extended m, name, node => name ∈ m.record.members.names ∨ node.examine greatestDepth = .ok ()

/-- Airport classes are read steadily as the text goes on. -/
theorem Steady.airportClass : AirportClass.format.Steady Mode.IsDirect := Format.steady_named

section
variable {kind : Mode → Prop}

/-- Doubles are read in the same way in all modes. -/
theorem Steady.real : Format.real.Steady kind := Format.steady_of_read_eq fun _ _ _ => rfl

/-- Bytes are read in the same way in all modes. -/
theorem Steady.byte : Format.byte.Steady kind := Format.steady_of_read_eq fun _ _ _ => rfl

/-- Counts are read in the same way in all modes. -/
theorem Steady.count : Format.count.Steady kind := Format.steady_of_read_eq fun _ _ _ => rfl

/-- Sizes are read in the same way in all modes. -/
theorem Steady.size : Format.size.Steady kind := Format.steady_of_read_eq fun _ _ _ => rfl

/-- Whole numbers with a sign are read in the same way in all modes. -/
theorem Steady.signed : Format.signed.Steady kind := Format.steady_of_read_eq fun _ _ _ => rfl

/-- Truth values are read in the same way in all modes. -/
theorem Steady.boolean : Format.boolean.Steady kind := Format.steady_of_read_eq fun _ _ _ => rfl

/-- Texts are read in the same way in all modes. -/
theorem Steady.text : Format.text.Steady kind := Format.steady_of_read_eq fun _ _ _ => rfl

/-- Moments are read in the same way in all modes. -/
theorem Steady.moment : Time.Timestamp.format.Steady kind := Format.steady_of_read_eq fun _ _ _ => rfl

/-- Positions are read in the same way in all modes. -/
theorem Steady.position (hkind : Mode.Lasting kind) : Geo.Coordinate.record.format.Steady kind := by
  have hmembers : Geo.Coordinate.record.members.Steady kind := ⟨Steady.real, Steady.real, trivial⟩
  exact hmembers.record hkind (by decide)

/-- The fields of flights are read in the same way in all modes. -/
theorem Steady.flightMembers : Flight.record.members.Steady kind :=
  ⟨Steady.text.optional, Steady.text.optional, Steady.text.optional, Steady.text.optional, Steady.real, Steady.text,
    Steady.count, Steady.count, Steady.real, trivial⟩

/-- Weights are read in the same way in all modes. -/
theorem Steady.weightsMembers : Weights.record.members.Steady kind :=
  ⟨Steady.byte, Steady.byte, Steady.byte, Steady.byte, Steady.byte, trivial⟩

/-- Filters are read in the same way in all modes. -/
theorem Steady.filtersMembers : Filters.record.members.Steady kind :=
  ⟨Steady.real.optional, Steady.count.optional, Steady.real.optional, Steady.boolean, trivial⟩

end

/-- The own fields of records that contain another one are read steadily as the text goes on. -/
theorem ExtendedModel.steady : ∀ {α : Type} (m : ExtendedModel α), m.record.members.Steady Mode.IsDirect
  | _, .rankedAirport => ⟨Steady.real, Steady.real, trivial⟩
  | _, .scoredFlight => ⟨Steady.count, trivial⟩

/-- The fields of records are read steadily as the text goes on. -/
theorem PlainModel.steady : ∀ {α : Type} (m : PlainModel α), m.record.members.Steady Mode.IsDirect
  | _, .position => ⟨Steady.real, Steady.real, trivial⟩
  | _, .flight => Steady.flightMembers
  | _, .weights => Steady.weightsMembers
  | _, .airport => ⟨Steady.text, Steady.text, Steady.position Mode.lasting_isDirect, Steady.airportClass, trivial⟩
  | _, .filters => Steady.filtersMembers
  | _, .report => ⟨Steady.position Mode.lasting_isDirect, Steady.real, Steady.real, Steady.real, Steady.real,
      Steady.text, Steady.moment, trivial⟩
  | _, .fix => ⟨Steady.position Mode.lasting_isDirect, Steady.real.optional, Steady.moment, trivial⟩
  | _, .flightSearch => by
    have hflight := Steady.flightMembers.record Mode.lasting_isDirect (by decide)
    have hweights := Steady.weightsMembers.record Mode.lasting_isDirect (by decide)
    have hfilters := Steady.filtersMembers.record Mode.lasting_isDirect (by decide)
    exact ⟨hflight.list Mode.lasting_isDirect, hweights.optional, hfilters, trivial⟩
  | _, .airportSearch => ⟨Steady.position Mode.lasting_isDirect, Steady.signed.optional,
      Steady.airportClass.list Mode.lasting_isDirect, trivial⟩
  | _, .flightResults => by
    have hscored : ScoredFlight.extended.format.Steady Mode.IsDirect :=
      ExtendedModel.scoredFlight.steady.extended (by decide)
    exact ⟨hscored.list Mode.lasting_isDirect, Steady.size, Steady.size, trivial⟩
  | _, .airportResults => by
    have hranked : RankedAirport.extended.format.Steady Mode.IsDirect :=
      ExtendedModel.rankedAirport.steady.extended (by decide)
    exact ⟨Steady.position Mode.lasting_isDirect, Steady.text, hranked.list Mode.lasting_isDirect, trivial⟩

/-- No two fields of a record have the same name. -/
theorem PlainModel.nodup_names (m : PlainModel α) : m.record.members.names.Nodup := by
  cases m <;> decide

/-- No two fields of a record and of the one it contains have the same name. -/
theorem ExtendedModel.nodup_names (m : ExtendedModel α) :
    (m.record.members.names ++ m.record.inner.members.names).Nodup := by
  cases m <;> decide

/-- One level inside of a document. -/
def inside : Mode := .direct (greatestDepth - 1)

namespace IsObject

variable {text : String} {members : List (String × Node)} (h : IsObject text members)
include h

/-- What is read from an object is what is read from its node. -/
theorem decode_eq (format : Format α) :
    format.decode text = format.read (.direct greatestDepth) (.object (keyed members) .closed) := by
  obtain ⟨rest, htext, hrest⟩ := h.node
  exact Format.decode_eq htext hrest

/-- The members of the object are whole one level inside of it. -/
theorem sound_member : ∀ member ∈ members, member.2.Sound inside.limit := by
  obtain ⟨inner, hinner, -, hmembers⟩ := h.sound.of_object
  obtain rfl : inner = inside.limit := Nat.succ.inj hinner.symm
  exact fun member hmember => hmembers _ (List.mem_map_of_mem hmember)

/-- What a record is made of when it is read from the object. -/
theorem decode_plain (m : PlainModel α) {a : α} : m.record.format.decode text = .ok a ↔
    ∃ parts, m.record.members.Takes inside members parts ∧ m.record.make parts = a := by
  rw [h.decode_eq]
  exact Record.read_object_eq_ok_iff m.nodup_names
    (fun member hmember => (h.sound_member member hmember).skip) rfl

/-- What a record that contains another one is made of when it is read from the object. -/
theorem decode_extended (m : ExtendedModel α) {a : α} : m.record.format.decode text = .ok a ↔
    (∀ member ∈ members, (RecordModel.extended m).Tolerates member.1 member.2) ∧
      ∃ parts core, m.record.members.Takes inside members parts ∧
        m.record.inner.members.Takes .setAside members core ∧ m.record.make (m.record.inner.make core) parts = a := by
  have htolerates : (∀ member ∈ members, (RecordModel.extended m).Tolerates member.1 member.2) ↔
      ∀ member ∈ members, member.1 ∉ m.record.members.names → member.2.examine inside.limit = .ok () := by
    refine forall₂_congr fun member hmember => ?_
    rw [RecordModel.Tolerates, or_iff_not_imp_left]
    exact imp_congr_right fun _ =>
      ⟨(h.sound_member member hmember).examine, fun hinside => examine_mono hinside (by decide)⟩
  rw [h.decode_eq, htolerates]
  exact Extended.read_object_eq_ok_iff m.nodup_names rfl

end IsObject

/-- A name is that of a class when the class has it. -/
theorem chooseName_class {name : String} {c : AirportClass}
    (h : chooseName (AirportClass.all.map fun c => (c.name, c)) name = .ok c) : c.name = name := by
  unfold chooseName at h
  split at h
  · next found heq =>
    obtain rfl := Except.ok.inj h
    obtain ⟨hname, hfound⟩ := And.intro (List.find?_some heq) (List.mem_of_find?_eq_some heq)
    obtain ⟨d, -, hd⟩ := List.mem_map.1 hfound
    obtain ⟨rfl, rfl⟩ := Prod.mk.inj hd
    simpa using hname
  · contradiction

/-- A class that was set aside is accepted when the class itself is accepted or stands as the only key of an object,
with an empty object for a value. -/
theorem exists_readClass_iff {node : Node} (h : node.Sound greatestDepth) :
    (∃ c, AirportClass.format.read .setAside node = .ok c) ↔
      (∃ c, AirportClass.format.read (.direct greatestDepth) node = .ok c) ∨
        ∃ c : AirportClass, IsBare c.name node := by
  constructor
  · rintro ⟨c, hread⟩
    obtain hdirect | ⟨name, hbare, hname⟩ := (readNameSetAside_eq_ok_iff h).1 hread
    · exact .inl ⟨c, hdirect⟩
    · rw [← chooseName_class hname] at hbare
      exact .inr ⟨c, hbare⟩
  · rintro (⟨c, hdirect⟩ | ⟨c, hbare⟩)
    · exact ⟨c, (readNameSetAside_eq_ok_iff h).2 (.inl hdirect)⟩
    · exact ⟨c, (readNameSetAside_eq_ok_iff h).2 (.inr ⟨c.name, hbare, by cases c <;> rfl⟩)⟩

/-- There are more levels outside of a document than inside of it. -/
theorem limit_inside_le : inside.limit ≤ greatestDepth := by decide

/-- The fields of a record accept the same values inside of a document and by themselves. -/
theorem PlainModel.accepts_inside {m : PlainModel α} {name : String} {node : Node} (h : node.Sound inside.limit) :
    m.record.members.Accepts inside name node ↔ (RecordModel.plain m).Accepts name node :=
  (m.steady.accepts h (Mode.isDirect_direct _) (Mode.isDirect_direct _) le_rfl limit_inside_le).trans
    (or_false _).symm.to_iff

/-- A member is accepted by the own fields inside of a document and by those of the inner record after it was set aside
when they accept it by itself, and apart from this only as a class with an empty object for a value. -/
theorem ExtendedModel.accepts_inside {m : ExtendedModel α} {name : String} {node : Node} (h : node.Sound inside.limit) :
    m.record.members.Accepts inside name node ∧ m.record.inner.members.Accepts .setAside name node ↔
      (RecordModel.extended m).Accepts name node := by
  have hown : m.record.members.Accepts inside name node ↔ m.record.members.Accepts (.direct greatestDepth) name node :=
    m.steady.accepts h (Mode.isDirect_direct _) (Mode.isDirect_direct _) le_rfl limit_inside_le
  rw [hown]
  cases m with
  | scoredFlight =>
    have hsteady : Flight.record.members.Steady fun _ => True := Steady.flightMembers
    have haccepts : Flight.record.members.Accepts .setAside name node ↔
        Flight.record.members.Accepts (.direct greatestDepth) name node :=
      hsteady.accepts h trivial trivial limit_inside_le limit_inside_le
    rw [RecordModel.Accepts, RecordModel.FieldsAccept, RecordModel.TakesBare, TakesBare, or_false]
    exact and_congr_right' haccepts
  | rankedAirport =>
    have hposition : Geo.Coordinate.record.format.Steady fun _ => True := Steady.position Mode.lasting_true
    have hlocation : (∃ a, Geo.Coordinate.record.format.read .setAside node = .ok a) ↔
        ∃ a, Geo.Coordinate.record.format.read (.direct greatestDepth) node = .ok a :=
      hposition.exists_read_iff h trivial trivial limit_inside_le limit_inside_le
    have htext : Format.text.read .setAside node = Format.text.read (.direct greatestDepth) node := rfl
    have hclass := exists_readClass_iff (h.mono limit_inside_le)
    by_cases hname : name = "class"
    · subst hname
      simp [record, RankedAirport.extended, Airport.record, Members.Accepts, Field.required, RecordModel.Accepts,
        RecordModel.FieldsAccept, RecordModel.TakesBare, TakesBare, hclass]
    · simp [record, RankedAirport.extended, Airport.record, Members.Accepts, Field.required, RecordModel.Accepts,
        RecordModel.FieldsAccept, RecordModel.TakesBare, TakesBare, hlocation, htext, hname, Ne.symm hname]

namespace IsObject

variable {text : String} {members : List (String × Node)} (h : IsObject text members)
include h

/-- Which objects are accepted as records. -/
theorem exists_decode_iff (m : RecordModel α) : (∃ a, m.format.decode text = .ok a) ↔
    (∀ name ∈ m.names, (members.map (·.1)).count name ≤ 1) ∧ (∀ name ∈ m.required, name ∈ members.map (·.1)) ∧
      ∀ member ∈ members, m.Accepts member.1 member.2 ∧ m.Tolerates member.1 member.2 := by
  cases m with
  | plain m =>
    have hparts : (∃ a, m.record.format.decode text = .ok a) ↔
        ∃ parts, m.record.members.Takes inside members parts := by
      simp [h.decode_plain]
    have haccepts : (∀ member ∈ members, m.record.members.Accepts inside member.1 member.2) ↔
        ∀ member ∈ members, (RecordModel.plain m).Accepts member.1 member.2 ∧
          (RecordModel.plain m).Tolerates member.1 member.2 :=
      forall₂_congr fun member hmember =>
        (PlainModel.accepts_inside (h.sound_member member hmember)).trans (and_true _).symm.to_iff
    rw [RecordModel.format, hparts, Members.exists_takes_iff, haccepts]
    rfl
  | extended m =>
    have hparts : (∃ a, m.record.format.decode text = .ok a) ↔
        (∀ member ∈ members, (RecordModel.extended m).Tolerates member.1 member.2) ∧
          (∃ parts, m.record.members.Takes inside members parts) ∧
          ∃ core, m.record.inner.members.Takes .setAside members core := by
      simp [h.decode_extended]
    have haccepts : (∀ member ∈ members, m.record.members.Accepts inside member.1 member.2 ∧
          m.record.inner.members.Accepts .setAside member.1 member.2) ↔
        ∀ member ∈ members, (RecordModel.extended m).Accepts member.1 member.2 :=
      forall₂_congr fun member hmember => ExtendedModel.accepts_inside (h.sound_member member hmember)
    rw [RecordModel.format, hparts, Members.exists_takes_iff, Members.exists_takes_iff, forall₂_and, ← haccepts]
    simp only [RecordModel.names, RecordModel.required, List.mem_append, or_imp, forall_and]
    tauto

/-- What is read from an object depends only on the members a record knows. -/
theorem decode_of_perm {m : RecordModel α} {other : String} {others : List (String × Node)}
    (hother : IsObject other others)
    (hperm : (members.filter (·.1 ∈ m.names)).Perm (others.filter (·.1 ∈ m.names)))
    (htolerates : ∀ member ∈ others, m.Tolerates member.1 member.2) {a : α} (hdecode : m.format.decode text = .ok a) :
    m.format.decode other = .ok a := by
  cases m with
  | plain m =>
    obtain ⟨parts, htakes, hmake⟩ := (h.decode_plain m).1 hdecode
    exact (hother.decode_plain m).2
      ⟨parts, (Members.takes_of_filter_perm (fun _ hname => hname) hperm).1 htakes, hmake⟩
  | extended m =>
    obtain ⟨-, parts, core, htakes, hcore, hmake⟩ := (h.decode_extended m).1 hdecode
    have htakesOther := (Members.takes_of_filter_perm (fun _ hname => List.mem_append_left _ hname) hperm).1 htakes
    have hcoreOther := (Members.takes_of_filter_perm (fun _ hname => List.mem_append_right _ hname) hperm).1 hcore
    exact (hother.decode_extended m).2 ⟨htolerates, parts, core, htakesOther, hcoreOther, hmake⟩

/-- What is read from an object with the members a record knows is what is read from the list of their values. -/
theorem decode_eq_of_list {m : PlainModel α} {list : String} {items : List Node} (hlist : IsList list items)
    (hlength : items.length = m.record.members.names.length)
    (hperm : (members.filter (·.1 ∈ m.record.members.names)).Perm (m.record.members.names.zip items)) {a : α} :
    m.record.format.decode text = .ok a ↔ m.record.format.decode list = .ok a := by
  obtain ⟨rest, htext, hrest⟩ := hlist
  have hknown : (m.record.members.names.zip items).filter (·.1 ∈ m.record.members.names) =
      m.record.members.names.zip items :=
    List.filter_eq_self.2 fun member hmember => decide_eq_true (List.of_mem_zip hmember).1
  have hread : m.record.read (.direct greatestDepth) (.list items .closed) = .ok a ↔
      ∃ parts, m.record.members.TakesItems inside items parts ∧ m.record.make parts = a :=
    Record.read_list_eq_ok_iff hlength rfl
  rw [h.decode_plain, Format.decode_eq htext hrest]
  refine Iff.trans (exists_congr fun parts => and_congr_left' ?_) hread.symm
  rw [← Members.takes_zip_iff m.nodup_names hlength]
  exact Members.takes_of_filter_perm (fun _ hname => hname) (by rwa [hknown])

end IsObject

/-- The literal of a digit. -/
def digit (c : Char) : Node := .number ⟨false, [c], none, none⟩

/-- Which objects are accepted as records, and what is read from them. An object is accepted exactly when each known
name occurs at most once, each field that may not be missing occurs, and every member is accepted and tolerated; what is
read depends on the known members alone, up to their order; and if no other record is contained, then the same is read
from the list of the values in the order of the fields. -/
theorem RecordModel.decode_object (m : RecordModel α) {text : String} {members : List (String × Node)}
    (h : IsObject text members) :
    ((∃ a, m.format.decode text = .ok a) ↔
      (∀ name ∈ m.names, (members.map (·.1)).count name ≤ 1) ∧ (∀ name ∈ m.required, name ∈ members.map (·.1)) ∧
        ∀ member ∈ members, m.Accepts member.1 member.2 ∧ m.Tolerates member.1 member.2) ∧
    (∀ other others, IsObject other others →
      (members.filter (·.1 ∈ m.names)).Perm (others.filter (·.1 ∈ m.names)) →
      (∀ member ∈ others, m.Tolerates member.1 member.2) →
      ∀ a, m.format.decode text = .ok a → m.format.decode other = .ok a) ∧
    ∀ (p : PlainModel α) (list : String) (items : List Node), m = .plain p → IsList list items →
      items.length = m.names.length → (members.filter (·.1 ∈ m.names)).Perm (m.names.zip items) →
      ∀ a, m.format.decode text = .ok a ↔ m.format.decode list = .ok a := by
  refine ⟨h.exists_decode_iff m, fun other others hother hperm htolerates a hdecode => ?_, ?_⟩
  · exact h.decode_of_perm hother hperm htolerates hdecode
  · rintro p list items rfl hlist hlength hperm a
    exact h.decode_eq_of_list hlist hlength hperm

/-- A position with its longitude first and a note in between. -/
def reorderedText : String := "\x7b\"longitude\": 2, \"note\": null, \"latitude\": 1\x7d"

/-- The members of the position. -/
def reorderedMembers : List (String × Node) := [("longitude", digit '2'), ("note", .null), ("latitude", digit '1')]

/-- The position is accepted, and the same is read from the list of its values. -/
theorem decode_reorderedText :
    (∃ a, (RecordModel.plain .position).format.decode reorderedText = .ok a) ∧
      ∀ a, (RecordModel.plain .position).format.decode reorderedText = .ok a ↔
        (RecordModel.plain .position).format.decode "[1, 2]" = .ok a := by
  have hobject : IsObject reorderedText reorderedMembers := ⟨⟨[], by cbv, rfl⟩, sound_of_examine (by decide +kernel)⟩
  have hlist : IsList "[1, 2]" [digit '1', digit '2'] := ⟨[], by cbv, rfl⟩
  obtain ⟨haccepted, -, hsame⟩ := RecordModel.decode_object (.plain .position) hobject
  refine ⟨haccepted.2 ⟨by decide, by decide, fun member hmember => ⟨.inl ?_, trivial⟩⟩,
    hsame .position "[1, 2]" _ rfl hlist rfl (.swap _ _ _)⟩
  simp only [reorderedMembers, List.mem_cons, List.not_mem_nil, or_false] at hmember
  obtain rfl | rfl | rfl := hmember <;>
    simp [RecordModel.FieldsAccept, PlainModel.record, Geo.Coordinate.record, Members.Accepts, Field.required] <;>
    exact exists_eq_ok (by decide +kernel)

/-- A ranked airport whose class is the key of an object with an empty object for a value. -/
def bareClassText : String :=
  "\x7b\"code\":\"KJFK\",\"name\":\"N\",\"location\":\x7b\"latitude\":1,\"longitude\":2\x7d," ++
    "\"class\":\x7b\"major\":\x7b\x7d\x7d,\"distanceKm\":1,\"bearingDeg\":2\x7d"

/-- The members of the ranked airport. -/
def bareClassMembers : List (String × Node) :=
  [("code", .text (.ok "KJFK")), ("name", .text (.ok "N")),
    ("location", .object (keyed [("latitude", digit '1'), ("longitude", digit '2')]) .closed),
    ("class", .object (keyed [("major", .object [] .closed)]) .closed), ("distanceKm", digit '1'),
    ("bearingDeg", digit '2')]

/-- A scored flight with a note in which half a character stands. -/
def halfCharacterText : String :=
  "\x7b\"price\":1,\"duration\":\"1h\",\"safetyRating\":5,\"score\":3,\"note\":\"\\ud800\"\x7d"

/-- The members of the scored flight. -/
def halfCharacterMembers : List (String × Node) :=
  [("price", digit '1'), ("duration", .text (.ok "1h")), ("safetyRating", digit '5'), ("score", digit '3'),
    ("note", .text (.error .malformed))]

/-- What the fields of a scored flight make of the members of the flight with the note, one by one. -/
theorem fieldsAccept_halfCharacterMembers :
    ∀ member ∈ halfCharacterMembers, (RecordModel.extended .scoredFlight).FieldsAccept member.1 member.2 := by
  intro member hmember
  simp only [halfCharacterMembers, List.mem_cons, List.not_mem_nil, or_false] at hmember
  obtain rfl | rfl | rfl | rfl | rfl := hmember <;>
    simp [RecordModel.FieldsAccept, ExtendedModel.record, ScoredFlight.extended, Flight.record, Members.Accepts,
      Field.required, Field.optional, Field.defaulted] <;>
    exact exists_eq_ok (by decide +kernel)

/-- The scored flight is a whole document. -/
theorem isObject_halfCharacterText : IsObject halfCharacterText halfCharacterMembers where
  node := ⟨[], by cbv, rfl⟩
  sound := by
    have hdigit : ∀ c, (⟨false, [c], none, none⟩ : Literal).value.toOption.isSome = true →
        (digit c).Sound 126 := by
      intro c hc
      obtain ⟨value, hvalue⟩ := exists_eq_ok hc
      exact .number hvalue
    refine .object (fun member hmember => ?_) fun member hmember => ?_
    · obtain ⟨named, -, rfl⟩ := List.mem_map.1 hmember
      exact ⟨.ok named.1, rfl⟩
    · simp only [keyed, halfCharacterMembers, List.map_cons, List.map_nil, List.mem_cons, List.not_mem_nil,
        or_false] at hmember
      obtain rfl | rfl | rfl | rfl | rfl := hmember
      · exact hdigit _ (by decide +kernel)
      · exact .text _
      · exact hdigit _ (by decide +kernel)
      · exact hdigit _ (by decide +kernel)
      · exact .text _

/-- Without the exceptions for what is set aside it would not be said which objects are accepted: a ranked airport is
accepted although its class would not be, and a scored flight is not although its fields take all they need. -/
theorem accepts_setAside_otherwise :
    (IsObject bareClassText bareClassMembers ∧
      (∃ a, (RecordModel.extended .rankedAirport).format.decode bareClassText = .ok a) ∧
      ¬ ∀ member ∈ bareClassMembers, (RecordModel.extended .rankedAirport).FieldsAccept member.1 member.2) ∧
    IsObject halfCharacterText halfCharacterMembers ∧
      (∀ name ∈ (RecordModel.extended .scoredFlight).names, (halfCharacterMembers.map (·.1)).count name ≤ 1) ∧
      (∀ name ∈ (RecordModel.extended .scoredFlight).required, name ∈ halfCharacterMembers.map (·.1)) ∧
      (∀ member ∈ halfCharacterMembers, (RecordModel.extended .scoredFlight).FieldsAccept member.1 member.2) ∧
      ¬ ∃ a, (RecordModel.extended .scoredFlight).format.decode halfCharacterText = .ok a := by
  refine ⟨⟨⟨⟨[], by cbv, rfl⟩, sound_of_examine (by decide +kernel)⟩, exists_eq_ok (by decide +kernel), ?_⟩,
    isObject_halfCharacterText, by decide +kernel, by decide +kernel, fieldsAccept_halfCharacterMembers, ?_⟩
  · intro haccept
    have hfields := haccept ("class", .object (keyed [("major", .object [] .closed)]) .closed)
      (by simp [bareClassMembers])
    obtain ⟨c, hread⟩ := hfields.2.2.2.2.1 rfl
    cases c <;> exact absurd hread (by decide +kernel)
  · rintro ⟨a, hdecode⟩
    have hrefused : ((RecordModel.extended .scoredFlight).format.decode halfCharacterText).toOption = none := by
      decide +kernel
    rw [hdecode] at hrefused
    exact Option.some_ne_none a hrefused

end FlightPlanner
