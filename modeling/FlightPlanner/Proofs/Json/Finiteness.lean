import FlightPlanner.Proofs.Json.Echoes

/-!
# Doubles from documents are finite

Whatever text a value is read from, all doubles in it are finite: a number out of range is refused as such, and there is
no other way to write an infinity or what is not a number. So all of them can be written as numbers again.
-/

namespace FlightPlanner.Json

variable {α β : Type} {mode : Mode} {node : Node}

/-- Whether a format reads only finite doubles, whatever it reads. -/
structure Format.ReadsFinite (format : Format α) : Prop where
  /-- All doubles in what is read are finite. -/
  isFinite : ∀ {mode : Mode} {node : Node} {a : α}, format.read mode node = .ok a → (format.write a).IsFinite

/-- So are all doubles in what is decoded. -/
theorem Format.ReadsFinite.isFinite_of_decode {format : Format α} (h : format.ReadsFinite) {text : String} {a : α}
    (hdecode : format.decode text = .ok a) : (format.write a).IsFinite := by
  obtain ⟨value, hread, hrest⟩ := bind_eq_ok_iff.1 hdecode
  have hvalue : value = a := by
    split at hrest
    · split at hrest
      · exact Except.ok.inj hrest
      · contradiction
    · contradiction
  rw [← hvalue]
  exact h.isFinite hread

/-- Doubles that are read are finite. -/
theorem readsFinite_real : Format.real.ReadsFinite := by
  refine ⟨fun {mode node x} hread y hy => ?_⟩
  obtain rfl := List.mem_singleton.1 hy
  cases node with
  | number literal =>
    cases hvalue : literal.value with
    | error fault => simp [Format.real, hvalue] at hread
    | ok value =>
      cases value with
      | whole n =>
        obtain rfl : realOfInt n = y := by simpa [Format.real, hvalue] using hread
        obtain ⟨hlow, hhigh⟩ := Literal.bounds_of_value hvalue
        exact isFinite_realOfInt hlow hhigh
      | real z =>
        obtain rfl : z = y := by simpa [Format.real, hvalue] using hread
        exact Literal.isFinite_of_value hvalue
  | _ =>
    simp only [Format.real] at hread
    exact absurd hread refuse_ne_ok

/-- A format that writes no doubles reads only finite ones. -/
theorem readsFinite_of_reals_eq_nil {format : Format α} (h : ∀ a, (format.write a).reals = []) :
    format.ReadsFinite :=
  ⟨fun _ => isFinite_of_reals_eq_nil (h _)⟩

/-- Values that may be absent have only finite doubles when they have so where they are present. -/
theorem Format.ReadsFinite.optional {format : Format α} (h : format.ReadsFinite) : format.optional.ReadsFinite := by
  refine ⟨fun {mode node a} hread => ?_⟩
  cases a with
  | none => exact fun x hx => absurd hx List.not_mem_nil
  | some a =>
    cases node with
    | null => exact absurd (Except.ok.inj hread).symm (Option.some_ne_none a)
    | _ =>
      obtain ⟨b, hb, hsome⟩ := map_eq_ok_iff.1 hread
      obtain rfl := Option.some.inj hsome
      exact h.isFinite hb

/-- Lists have only finite doubles when their items have. -/
theorem Format.ReadsFinite.list {format : Format α} (h : format.ReadsFinite) : (Format.list format).ReadsFinite := by
  refine ⟨fun {mode node all} hread => ?_⟩
  cases node with
  | list items ending =>
    obtain ⟨inner, -, hread⟩ := bind_eq_ok_iff.1 hread
    obtain ⟨values, hvalues, hread⟩ := bind_eq_ok_iff.1 hread
    obtain ⟨_, _, hread⟩ := bind_eq_ok_iff.1 hread
    obtain rfl := Except.ok.inj hread
    have hfinite : ∀ (items : List Node) (values : List α), readItems format inner items = .ok values →
        ∀ a ∈ values, (format.write a).IsFinite := by
      intro items
      induction items with
      | nil =>
        intro values hvalues a ha
        obtain rfl := Except.ok.inj hvalues
        exact absurd ha List.not_mem_nil
      | cons item items ih =>
        intro values hvalues a ha
        obtain ⟨first, hfirst, hitems⟩ := bind_eq_ok_iff.1 hvalues
        obtain ⟨rest, hrest, hresult⟩ := bind_eq_ok_iff.1 hitems
        obtain rfl := Except.ok.inj hresult
        obtain rfl | ha := List.mem_cons.1 ha
        · exact h.isFinite hfirst
        · exact ih rest hrest a ha
    refine isFinite_list.2 fun item hitem => ?_
    obtain ⟨a, ha, rfl⟩ := List.mem_map.1 hitem
    exact hfinite items values hvalues a ha
  | _ =>
    simp only [Format.list] at hread
    exact absurd hread refuse_ne_ok

/-- Whether a field reads only finite doubles and has no others for a fallback. -/
structure Field.ReadsFinite (field : Field α) : Prop where
  /-- It reads only finite doubles. -/
  format : field.format.ReadsFinite
  /-- Its fallback has no others. -/
  fallback : ∀ a ∈ field.fallback, (field.format.write a).IsFinite

/-- A field that may not be missing has only finite doubles when its values have. -/
theorem Format.ReadsFinite.required {format : Format α} (h : format.ReadsFinite) (name : String) :
    (Field.required name format).ReadsFinite :=
  ⟨h, nofun⟩

/-- A field that may be absent has only finite doubles when its values have. -/
theorem Format.ReadsFinite.optionalField {format : Format α} (h : format.ReadsFinite) (name : String) :
    (Field.optional name format).ReadsFinite := by
  refine ⟨h.optional, fun a hfallback => ?_⟩
  obtain rfl := Option.mem_some_iff.1 hfallback
  exact fun x hx => absurd hx List.not_mem_nil

/-- A field with a value where it is missing has only finite doubles when its values and this one have. -/
theorem Format.ReadsFinite.defaulted {format : Format α} (h : format.ReadsFinite) (name : String) {value : α}
    (hvalue : (format.write value).IsFinite) : (Field.defaulted name format value).ReadsFinite := by
  refine ⟨h, fun a hfallback => ?_⟩
  obtain rfl := Option.mem_some_iff.1 hfallback
  exact hvalue

/-- Whether all fields read only finite doubles and have no others for fallbacks. -/
def Members.ReadFinite : {α : Type} → Members α → Prop
  | _, .none => True
  | _, .field first rest => first.ReadsFinite ∧ rest.ReadFinite

/-- What such fields yield has only finite doubles. -/
theorem Members.ReadFinite.write {m : Members α} (h : m.ReadFinite) {values : α} (hyields : m.Yields mode values) :
    ∀ member ∈ m.write values, member.2.IsFinite := by
  induction m with
  | none => exact fun _ hmember => absurd hmember List.not_mem_nil
  | field first rest ih =>
    obtain ⟨a, values⟩ := values
    intro member hmember
    obtain rfl | hmember := List.mem_cons.1 hmember
    · obtain hfallback | ⟨node, hread⟩ := hyields.1
      · exact h.1.fallback a hfallback
      · exact h.1.format.isFinite hread
    · exact ih h.2 hyields.2 member hmember

/-- Records have only finite doubles when their fields have. -/
theorem Members.ReadFinite.record {r : Record α} (h : r.members.ReadFinite) (hnames : r.members.names.Nodup)
    (hparts : ∀ parts, r.parts (r.make parts) = parts) : r.format.ReadsFinite := by
  refine ⟨fun {mode node a} hread => isFinite_object.2 ?_⟩
  obtain ⟨inner, parts, hyields, rfl⟩ := Record.yields_of_read hnames hread
  rw [hparts]
  exact h.write hyields

/-- Records with an inner one have only finite doubles when the own fields and those of the inner record have. -/
theorem Members.ReadFinite.extended {e : Extended α} (h : e.members.ReadFinite) (hcore : e.inner.members.ReadFinite)
    (hnames : (e.members.names ++ e.inner.members.names).Nodup)
    (hparts : ∀ core parts, e.parts (e.make core parts) = (core, parts))
    (hinner : ∀ parts, e.inner.parts (e.inner.make parts) = parts) : e.format.ReadsFinite := by
  refine ⟨fun {mode node a} hread => isFinite_object.2 ?_⟩
  obtain ⟨inner, named, parts, core, -, -, -, htakes, htakesCore, rfl⟩ := Extended.takes_of_read hnames hread
  rw [hparts]
  intro member hmember
  obtain hmember | hmember := List.mem_append.1 hmember
  · rw [hinner] at hmember
    exact hcore.write (Members.yields_of_takes htakesCore) member hmember
  · exact h.write (Members.yields_of_takes htakes) member hmember

end FlightPlanner.Json
