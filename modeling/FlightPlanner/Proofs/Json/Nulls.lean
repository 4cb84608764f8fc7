import FlightPlanner.Proofs.Json.Echoes

/-!
# Where null is written

Null stands for an absent value, and in the place of a double that is not finite. If all doubles are finite, then it is
written only under the names of fields that may be absent, and so for whatever a format is put together from.
-/

namespace FlightPlanner.Json

variable {α β : Type} {names : List String}

/-- Null occurs in a node only as the value under one of some names. -/
inductive Node.NullsUnder (names : List String) : Node → Prop where
  /-- Truth values. -/
  | boolean (value : Bool) : NullsUnder names (.boolean value)
  /-- Numbers. -/
  | number (literal : Literal) : NullsUnder names (.number literal)
  /-- Texts. -/
  | text (content : Except Fault String) : NullsUnder names (.text content)
  /-- Lists, if it is so in their items and none is null. -/
  | list {items : List Node} {ending : Ending} (h : ∀ item ∈ items, item.NullsUnder names) :
    NullsUnder names (.list items ending)
  /-- Objects, if what is null stands under one of the names and it is so in their other values. -/
  | object {members : List (String × Node)} {ending : Ending}
      (absent : ∀ member ∈ members, member.2 = .null → member.1 ∈ names)
      (present : ∀ member ∈ members, member.2 ≠ .null → member.2.NullsUnder names) :
    NullsUnder names (.object (keyed members) ending)

/-- What has null only under names is not null itself. -/
theorem Node.NullsUnder.ne_null {node : Node} (h : node.NullsUnder names) : node ≠ .null := by
  rintro rfl
  cases h

/-- Null occurs in an object only under the names when each value is null under one of them or has it only so. -/
theorem nullsUnder_object {members : List (String × Node)} {ending : Ending}
    (h : ∀ member ∈ members, member.2 = .null ∧ member.1 ∈ names ∨ member.2.NullsUnder names) :
    (Node.object (keyed members) ending).NullsUnder names := by
  refine .object (fun member hmember hnull => ?_) fun member hmember hpresent => ?_
  · obtain ⟨-, hname⟩ | hvalue := h member hmember
    · exact hname
    · exact absurd hnull hvalue.ne_null
  · obtain ⟨hnull, -⟩ | hvalue := h member hmember
    · exact absurd hnull hpresent
    · exact hvalue

/-- Whether a format writes null only under some names, as long as all doubles are finite. -/
def Format.NullsUnder (names : List String) (format : Format α) : Prop :=
  ∀ a, (format.write a).IsFinite → (format.write a).node.NullsUnder names

/-- Whether a field writes null only under some names, which may include its own. -/
def Field.NullsUnder (names : List String) (field : Field α) : Prop :=
  ∀ a, (field.format.write a).IsFinite →
    (field.format.write a).node = .null ∧ field.name ∈ names ∨ (field.format.write a).node.NullsUnder names

/-- Whether all fields write null only under some names. -/
def Members.NullsUnder (names : List String) : {α : Type} → Members α → Prop
  | _, .none => True
  | _, .field first rest => first.NullsUnder names ∧ rest.NullsUnder names

/-- Finite doubles are not written as null. -/
theorem nullsUnder_real : Format.real.NullsUnder names := by
  intro x hfinite
  have hx : x.isFinite = true := hfinite x List.mem_cons_self
  have hnode : (Format.real.write x).node = .number (realLiteral x) := by simp [Format.real, Value.node, hx]
  rw [hnode]
  exact .number _

/-- The items of a list are written without null when the format writes none. -/
theorem Format.NullsUnder.list {format : Format α} (h : format.NullsUnder names) :
    (Format.list format).NullsUnder names := by
  intro values hfinite
  refine .list fun item hitem => ?_
  rw [nodeItems_eq] at hitem
  obtain ⟨value, hvalue, rfl⟩ := List.mem_map.1 hitem
  obtain ⟨a, ha, rfl⟩ := List.mem_map.1 hvalue
  exact h a (isFinite_list.1 hfinite _ hvalue)

/-- A field that may not be absent writes null as its format does. -/
theorem Format.NullsUnder.required {format : Format α} (h : format.NullsUnder names) (name : String) :
    (Field.required name format).NullsUnder names :=
  fun a hfinite => .inr (h a hfinite)

/-- A field that has a value where it is missing writes null as its format does. -/
theorem Format.NullsUnder.defaulted {format : Format α} (h : format.NullsUnder names) (name : String) (value : α) :
    (Field.defaulted name format value).NullsUnder names :=
  fun a hfinite => .inr (h a hfinite)

/-- A field that may be absent writes null under its name. -/
theorem Format.NullsUnder.optional {format : Format α} (h : format.NullsUnder names) {name : String}
    (hname : name ∈ names) : (Field.optional name format).NullsUnder names := by
  intro a hfinite
  cases a with
  | none => exact .inl ⟨rfl, hname⟩
  | some a => exact .inr (h a hfinite)

/-- Fields write null only under the names. -/
theorem Members.NullsUnder.write {m : Members α} (h : m.NullsUnder names) {values : α}
    (hfinite : ∀ member ∈ m.write values, member.2.IsFinite) :
    ∀ member ∈ nodeMembers (m.write values), member.2 = .null ∧ member.1 ∈ names ∨ member.2.NullsUnder names := by
  induction m with
  | none => exact fun _ hmember => absurd hmember List.not_mem_nil
  | field first rest ih =>
    obtain ⟨a, values⟩ := values
    intro member hmember
    obtain rfl | hmember := List.mem_cons.1 hmember
    · exact h.1 a (hfinite _ List.mem_cons_self)
    · exact ih h.2 (fun other hother => hfinite other (List.mem_cons_of_mem _ hother)) member hmember

/-- Records write null only under the names when their fields do. -/
theorem Members.NullsUnder.record {r : Record α} (h : r.members.NullsUnder names) : r.format.NullsUnder names := by
  intro a hfinite
  exact nullsUnder_object (h.write (isFinite_object.1 hfinite))

/-- Records with an inner one write null only under the names when the own fields and those of the inner record do. -/
theorem Members.NullsUnder.extended {e : Extended α} (h : e.members.NullsUnder names)
    (hcore : e.inner.members.NullsUnder names) : e.format.NullsUnder names := by
  intro a hfinite
  have hmembers := isFinite_object.1 hfinite
  refine nullsUnder_object fun member hmember => ?_
  rw [nodeMembers_eq, List.map_append, ← nodeMembers_eq, ← nodeMembers_eq] at hmember
  obtain hmember | hmember := List.mem_append.1 hmember
  · exact hcore.write (fun other hother => hmembers other (List.mem_append_left _ hother)) member hmember
  · exact h.write (fun other hother => hmembers other (List.mem_append_right _ hother)) member hmember

/-- Whether a text is a document in which null occurs only under some names. -/
def HasNullsUnder (names : List String) (text : String) : Prop :=
  ∃ node, Node.ofText text.toList = (node, some []) ∧ node.NullsUnder names

/-- Null occurs in the document of a value only where the format writes it. -/
theorem Format.NullsUnder.encode {format : Format α} (h : format.NullsUnder names) {a : α}
    (hfinite : (format.write a).IsFinite) : HasNullsUnder names (format.encode a) :=
  ⟨_, by rw [Format.encode, String.toList_ofList, Node.ofText_write], h a hfinite⟩

end FlightPlanner.Json
