import FlightPlanner.Proofs.Json.Nodes
import FlightPlanner.Proofs.Json.Records

/-!
# What comes back from a document

Written in a format and read again, a value comes back as it was, up to its doubles: their written forms are read with
roundings of their own. `Format.Echo` says for a format what comes back, `Members.Echo` for the fields of a record; the
echo of a format is put together from those of its parts, just as the format is. Where all doubles come back as they
were, so does the value.
-/

namespace FlightPlanner.Json

variable {α β : Type} {mode : Mode}

mutual

/-- The doubles in a value. -/
def Value.reals : Value → List Float
  | .real value => [value]
  | .list items => realsItems items
  | .object members => realsMembers members
  | _ => []

/-- The doubles in some values. -/
def realsItems : List Value → List Float
  | [] => []
  | item :: rest => item.reals ++ realsItems rest

/-- The doubles in some members. -/
def realsMembers : List (String × Value) → List Float
  | [] => []
  | (_, value) :: rest => value.reals ++ realsMembers rest

end

/-- A double in some values is one in one of them. -/
theorem mem_realsItems {x : Float} {items : List Value} : x ∈ realsItems items ↔ ∃ item ∈ items, x ∈ item.reals := by
  induction items with
  | nil => simp [realsItems]
  | cons item items ih => simp [realsItems, ih]

/-- A double in some members is one in the value of one of them. -/
theorem mem_realsMembers {x : Float} {members : List (String × Value)} :
    x ∈ realsMembers members ↔ ∃ member ∈ members, x ∈ member.2.reals := by
  induction members with
  | nil => simp [realsMembers]
  | cons member members ih => simp [realsMembers, ih]

/-- What the written form of a double is read as. -/
def reread (x : Float) : Float :=
  match (realLiteral x).value with
  | .ok (.real y) => y
  | _ => x

/-- The written form of a finite double denotes what it is read as. -/
theorem value_eq_reread {x : Float} (h : x.isFinite = true) : (realLiteral x).value = .ok (.real (reread x)) := by
  obtain ⟨y, hy⟩ := value_realLiteral h
  rw [reread, hy]

/-- Whether all doubles in a value are finite. -/
def Value.IsFinite (v : Value) : Prop := ∀ x ∈ v.reals, x.isFinite = true

/-- Values that hold no doubles have only finite ones. -/
theorem isFinite_of_reals_eq_nil {v : Value} (h : v.reals = []) : v.IsFinite := by
  rw [Value.IsFinite, h]
  exact fun x hx => absurd hx List.not_mem_nil

/-- A double is finite as a value when it is. -/
@[simp] theorem isFinite_real {x : Float} : (Value.real x).IsFinite ↔ x.isFinite = true := by
  simp [Value.IsFinite, Value.reals]

/-- All doubles in a list are finite when they are in each item. -/
theorem isFinite_list {items : List Value} : (Value.list items).IsFinite ↔ ∀ item ∈ items, item.IsFinite := by
  simp only [Value.IsFinite, Value.reals, mem_realsItems]
  exact ⟨fun h item hitem x hx => h x ⟨item, hitem, hx⟩, fun h x ⟨item, hitem, hx⟩ => h item hitem x hx⟩

/-- All doubles in an object are finite when they are in the value of each member. -/
theorem isFinite_object {members : List (String × Value)} :
    (Value.object members).IsFinite ↔ ∀ member ∈ members, member.2.IsFinite := by
  simp only [Value.IsFinite, Value.reals, mem_realsMembers]
  exact ⟨fun h member hmember x hx => h x ⟨member, hmember, hx⟩, fun h x ⟨member, hmember, hx⟩ => h member hmember x hx⟩

/-- How the values of a format come back from their documents. -/
structure Format.Echo (format : Format α) where
  /-- How many levels a document needs at most. -/
  levels : Nat
  /-- Which values can be read again. -/
  Fit : α → Prop
  /-- What a value comes back as. -/
  back : α → α
  /-- No document needs more levels, and none has whole numbers of more than eight bytes. -/
  fits : ∀ a, (format.write a).Fits levels
  /-- This is what it comes back as, if its doubles are finite. -/
  read : ∀ (a : α) (mode : Mode), Fit a → (format.write a).IsFinite → levels ≤ mode.limit →
    format.read mode (format.write a).node = .ok (back a)
  /-- It comes back as it was, if its doubles do. -/
  fixed : ∀ a : α, (∀ x ∈ (format.write a).reals, reread x = x) → back a = a

/-- What is read from a text that is one node, up to spaces behind it, is what is read from the node. -/
theorem Format.decode_eq {format : Format α} {text : String} {node : Node} {rest : List Char}
    (htext : Node.ofText text.toList = (node, some rest)) (hrest : dropSpaces rest = []) :
    format.decode text = format.read (.direct greatestDepth) node := by
  rw [decode, htext]
  simp only [hrest]
  cases hread : format.read (.direct greatestDepth) node <;> rfl

/-- What is read from the document of a value is what is read from its node. -/
theorem Format.decode_encode_eq (format : Format α) (a : α) :
    format.decode (format.encode a) = format.read (.direct greatestDepth) (format.write a).node :=
  decode_eq (by rw [encode, String.toList_ofList, Node.ofText_write]) rfl

/-- A value is read from its document as what it comes back as. -/
theorem Format.Echo.decode_encode {format : Format α} (e : format.Echo) (hlevels : e.levels ≤ greatestDepth) {a : α}
    (hfit : e.Fit a) (hfinite : (format.write a).IsFinite) : format.decode (format.encode a) = .ok (e.back a) := by
  rw [decode_encode_eq]
  exact e.read a (.direct greatestDepth) hfit hfinite hlevels

/-- The node of a finite double is read as its written form is. -/
theorem read_real_node {x : Float} (hx : x.isFinite = true) :
    Format.real.read mode (Format.real.write x).node = .ok (reread x) := by
  have hnode : (Format.real.write x).node = .number (realLiteral x) := by simp [Format.real, Value.node, hx]
  rw [hnode]
  simp [Format.real, value_eq_reread hx]

/-- A double that can be read again is finite, since any other one is written as null, and it comes back as what its
written form is read as. -/
theorem reread_of_decode {x y : Float} (h : Format.real.decode (Format.real.encode x) = .ok y) :
    x.isFinite = true ∧ reread x = y := by
  rw [Format.decode_encode_eq] at h
  have hx : x.isFinite = true := by
    by_contra hx
    have hnode : (Format.real.write x).node = .null := by simp [Format.real, Value.node, hx]
    rw [hnode] at h
    have hnull : refuse .real .null = .ok y := h
    exact refuse_ne_ok hnull
  rw [read_real_node hx] at h
  exact ⟨hx, Except.ok.inj h⟩

/-- Doubles come back as the written form is read. -/
def Echo.real : Format.real.Echo where
  levels := 0
  Fit _ := True
  back := reread
  fits x := .real x
  read x _ _ hfinite _ := read_real_node (hfinite x List.mem_cons_self)
  fixed x h := h x List.mem_cons_self

/-- A whole number in range is read as itself. -/
theorem readWhole_node {wanted : Wanted} {least greatest value : Int} (hrange : least ≤ value ∧ value ≤ greatest)
    (hlow : -0x8000000000000000 ≤ least) (hhigh : greatest ≤ 0xFFFFFFFFFFFFFFFF) :
    readWhole wanted least greatest (Value.integer value).node = .ok value := by
  have hvalue := value_integerLiteral (hlow.trans hrange.1) (hrange.2.trans hhigh)
  simp [readWhole, Value.node, hvalue, hrange]

/-- Whole numbers of some range come back as they were, if what is made of the number that is written is the number. -/
def Echo.whole {format : Format α} {wanted : Wanted} {least greatest : Int} {make : Int → α} {value : α → Int}
    (hread : ∀ mode node, format.read mode node = (readWhole wanted least greatest node).map make)
    (hwrite : ∀ a, format.write a = .integer (value a)) (hrange : ∀ a, least ≤ value a ∧ value a ≤ greatest)
    (hlow : -0x8000000000000000 ≤ least) (hhigh : greatest ≤ 0xFFFFFFFFFFFFFFFF) (hmake : ∀ a, make (value a) = a) :
    format.Echo where
  levels := 0
  Fit _ := True
  back := id
  fits a := by
    rw [hwrite]
    exact .integer (hlow.trans (hrange a).1) ((hrange a).2.trans hhigh)
  read a mode _ _ _ := by
    rw [hread, hwrite, readWhole_node (hrange a) hlow hhigh]
    exact congrArg Except.ok (hmake a)
  fixed _ _ := rfl

/-- Bytes come back as they were. -/
def Echo.byte : Format.byte.Echo :=
  Echo.whole (fun _ _ => rfl) (fun _ => rfl) (fun n => ⟨Int.natCast_nonneg _, by have := n.toNat_lt; omega⟩)
    (by decide) (by decide) (fun n => by simp)

/-- Counts come back as they were. -/
def Echo.count : Format.count.Echo :=
  Echo.whole (fun _ _ => rfl) (fun _ => rfl) (fun n => ⟨Int.natCast_nonneg _, by have := n.toNat_lt; omega⟩)
    (by decide) (by decide) (fun n => by simp)

/-- Sizes come back as they were. -/
def Echo.size : Format.size.Echo :=
  Echo.whole (fun _ _ => rfl) (fun _ => rfl) (fun n => ⟨Int.natCast_nonneg _, by have := n.toNat_lt; omega⟩)
    (by decide) (by decide) (fun n => by simp)

/-- Whole numbers with a sign come back as they were. -/
def Echo.signed : Format.signed.Echo :=
  Echo.whole (fun _ _ => rfl) (fun _ => rfl) (fun n => ⟨n.minValue_le_toInt, n.toInt_le⟩)
    (by decide) (by decide) (fun n => by simp)

/-- Truth values come back as they were. -/
def Echo.boolean : Format.boolean.Echo where
  levels := 0
  Fit _ := True
  back := id
  fits value := .boolean value
  read _ _ _ _ _ := rfl
  fixed _ _ := rfl

/-- Texts come back as they were. -/
def Echo.text : Format.text.Echo where
  levels := 0
  Fit _ := True
  back := id
  fits value := .text value
  read _ _ _ _ _ := rfl
  fixed _ _ := rfl

/-- Names come back as they were, if each leads back to its alternative. -/
def Echo.named {alternatives : List (String × α)} {name : α → String}
    (h : ∀ a, chooseName alternatives (name a) = .ok a) : (Format.named alternatives name).Echo where
  levels := 0
  Fit _ := True
  back := id
  fits a := .text (name a)
  read a mode _ _ _ := by
    cases mode with
    | direct depth => exact bind_eq_ok_iff.2 ⟨name a, rfl, h a⟩
    | setAside => exact bind_eq_ok_iff.2 ⟨name a, rfl, h a⟩
  fixed _ _ := rfl

/-- Values that may be absent come back as they do when they are present, if null is no document of theirs. -/
def Echo.optional {format : Format α} (e : format.Echo)
    (hnull : ∀ a, (format.write a).IsFinite → (format.write a).node ≠ .null) : format.optional.Echo where
  levels := e.levels
  Fit a := ∀ b ∈ a, e.Fit b
  back := Option.map e.back
  fits a := by
    cases a with
    | none => exact .null
    | some a => exact e.fits a
  read a mode hfit hfinite hmode := by
    cases a with
    | none => rfl
    | some a =>
      have hread := e.read a mode (hfit a rfl) hfinite hmode
      have hpresent := hnull a hfinite
      have hwrite : format.optional.write (some a) = format.write a := rfl
      rw [hwrite]
      generalize (format.write a).node = node at hread hpresent ⊢
      simp only [Format.optional, hread]
      cases node <;> first | contradiction | rfl
  fixed a h := by
    cases a with
    | none => rfl
    | some a => exact congrArg some (e.fixed a h)

/-- Lists come back item by item. -/
def Echo.list {format : Format α} (e : format.Echo) : (Format.list format).Echo where
  levels := e.levels + 1
  Fit values := ∀ a ∈ values, e.Fit a
  back := List.map e.back
  fits values := .list fun item hitem => by
    obtain ⟨a, -, rfl⟩ := List.mem_map.1 hitem
    exact e.fits a
  read values mode hfit hfinite hmode := by
    obtain ⟨inner, hinner, hlimit⟩ := Mode.exists_descend hmode
    have hitems : readItems format inner (nodeItems (values.map format.write)) = .ok (values.map e.back) := by
      have hreals : ∀ a ∈ values, (format.write a).IsFinite := fun a ha =>
        isFinite_list.1 hfinite _ (List.mem_map_of_mem ha)
      clear hfinite
      induction values with
      | nil => rfl
      | cons a values ih =>
        have hread := e.read a inner (hfit a List.mem_cons_self) (hreals a List.mem_cons_self) hlimit
        have hrest := ih (fun b hb => hfit b (List.mem_cons_of_mem _ hb))
          (fun b hb => hreals b (List.mem_cons_of_mem _ hb))
        exact bind_eq_ok_iff.2 ⟨e.back a, hread, bind_eq_ok_iff.2 ⟨values.map e.back, hrest, rfl⟩⟩
    exact bind_eq_ok_iff.2 ⟨inner, hinner, bind_eq_ok_iff.2 ⟨_, hitems, rfl⟩⟩
  fixed values h := by
    refine (List.map_congr_left fun a ha => e.fixed a fun x hx => ?_).trans (List.map_id values)
    exact h x (mem_realsItems.2 ⟨format.write a, List.mem_map_of_mem ha, hx⟩)

/-- How the values of the fields of a record come back from the members of an object. -/
structure Members.Echo (m : Members α) where
  /-- How many levels a value needs at most. -/
  levels : Nat
  /-- Which values can be read again. -/
  Fit : α → Prop
  /-- What the values come back as. -/
  back : α → α
  /-- No value needs more levels, and none has whole numbers of more than eight bytes. -/
  fits : ∀ a, ∀ member ∈ m.write a, member.2.Fits levels
  /-- This is what they come back as, if all doubles are finite. -/
  takes : ∀ (a : α) (mode : Mode), Fit a → (∀ member ∈ m.write a, member.2.IsFinite) → levels ≤ mode.limit →
    m.Takes mode (nodeMembers (m.write a)) (back a)
  /-- They come back as they were, if the doubles do. -/
  fixed : ∀ a : α, (∀ member ∈ m.write a, ∀ x ∈ member.2.reals, reread x = x) → back a = a

/-- The names of the members that are written are those of the fields. -/
theorem Members.names_write {m : Members α} (a : α) : (m.write a).map (·.1) = m.names := by
  induction m with
  | none => rfl
  | field first rest ih =>
    obtain ⟨a, values⟩ := a
    rw [write, List.map_cons, ih, names]

/-- No fields come back as no fields. -/
def Members.Echo.none : Members.none.Echo where
  levels := 0
  Fit _ := True
  back := id
  fits _ _ h := absurd h List.not_mem_nil
  takes _ _ _ _ _ := trivial
  fixed _ _ := rfl

/-- The names of members are those of their nodes. -/
theorem names_nodeMembers (members : List (String × Value)) :
    (nodeMembers members).map (·.1) = members.map (·.1) := by
  rw [nodeMembers_eq, List.map_map]
  rfl

/-- There is no value under a name that is not written. -/
theorem valuesAt_write_eq_nil {m : Members α} {name : String} (h : name ∉ m.names) (a : α) :
    valuesAt name (nodeMembers (m.write a)) = [] := by
  refine Decidable.byContradiction fun hsome => h ?_
  have hname := valuesAt_ne_nil_iff.1 hsome
  rwa [names_nodeMembers, Members.names_write] at hname

/-- The values under a name in front of those behind them. -/
theorem valuesAt_nodeMembers_append (name : String) (members others : List (String × Value)) :
    valuesAt name (nodeMembers (members ++ others)) =
      valuesAt name (nodeMembers members) ++ valuesAt name (nodeMembers others) := by
  simp only [valuesAt, nodeMembers_eq, List.map_append, List.filter_append]

/-- A field in front of others comes back as its format says, if no other one has its name. -/
def Members.Echo.field {first : Field α} {rest : Members β} (e : first.format.Echo) (others : rest.Echo)
    (hname : first.name ∉ rest.names) : (Members.field first rest).Echo where
  levels := max e.levels others.levels
  Fit values := e.Fit values.1 ∧ others.Fit values.2
  back values := (e.back values.1, others.back values.2)
  fits values member hmember := by
    obtain rfl | hmember := List.mem_cons.1 hmember
    · exact (e.fits values.1).mono (Nat.le_max_left _ _)
    · exact (others.fits values.2 member hmember).mono (Nat.le_max_right _ _)
  takes values mode hfit hfinite hmode := by
    obtain ⟨a, values⟩ := values
    have hread := e.read a mode hfit.1 (hfinite _ List.mem_cons_self) ((Nat.le_max_left _ _).trans hmode)
    have htakes := others.takes values mode hfit.2 (fun member h => hfinite member (List.mem_cons_of_mem _ h))
      ((Nat.le_max_right _ _).trans hmode)
    rw [write, nodeMembers, Takes, valuesAt_cons_self, valuesAt_write_eq_nil hname]
    refine ⟨hread, (takes_congr fun other hother => valuesAt_cons_of_ne ?_ _ _).2 htakes⟩
    rintro rfl
    exact hname hother
  fixed values h := by
    have hfirst := e.fixed values.1 (h _ List.mem_cons_self)
    have hrest := others.fixed values.2 fun member hmember => h member (List.mem_cons_of_mem _ hmember)
    exact Prod.ext hfirst hrest

/-- Everything in the nodes of members whose values fit can be read. -/
theorem examine_nodeMembers {levels depth : Nat} {members : List (String × Value)}
    (h : ∀ member ∈ members, member.2.Fits levels) (hle : levels ≤ depth) :
    ∀ member ∈ nodeMembers members, member.2.examine depth = .ok () := by
  intro member hmember
  rw [nodeMembers_eq] at hmember
  obtain ⟨written, hwritten, rfl⟩ := List.mem_map.1 hmember
  exact ((h written hwritten).mono hle).examine_node

/-- A record comes back as its fields do. -/
def Members.Echo.record {r : Record α} (e : r.members.Echo) (hnames : r.members.names.Nodup)
    (hmake : ∀ a, r.make (r.parts a) = a) : r.format.Echo where
  levels := e.levels + 1
  Fit a := e.Fit (r.parts a)
  back a := r.make (e.back (r.parts a))
  fits a := .object (e.fits (r.parts a))
  read a mode hfit hfinite hmode := by
    obtain ⟨inner, hinner, hlimit⟩ := Mode.exists_descend hmode
    have htakes := e.takes (r.parts a) inner hfit (isFinite_object.1 hfinite) hlimit
    have hskip : ∀ member ∈ nodeMembers (r.members.write (r.parts a)), member.2.skip = .ok () :=
      fun member hmember => skip_of_examine (examine_nodeMembers (e.fits (r.parts a)) le_rfl member hmember)
    exact Record.read_of_takes hnames hskip hinner htakes
  fixed a h := by
    have hparts := e.fixed (r.parts a) fun member hmember x hx => h x (mem_realsMembers.2 ⟨member, hmember, hx⟩)
    rw [hparts, hmake]

/-- Members fit with the greater one of two numbers of levels when some of them fit with one and the others with the
other. -/
theorem fits_append {levels more : Nat} {members others : List (String × Value)}
    (h : ∀ member ∈ members, member.2.Fits levels) (hothers : ∀ member ∈ others, member.2.Fits more) :
    ∀ member ∈ members ++ others, member.2.Fits (max levels more) := by
  intro member hmember
  obtain hmember | hmember := List.mem_append.1 hmember
  · exact (h member hmember).mono (Nat.le_max_left _ _)
  · exact (hothers member hmember).mono (Nat.le_max_right _ _)

/-- A record with an inner one comes back as its own fields and those of the inner one do. -/
def Members.Echo.extended {r : Extended α} (e : r.members.Echo) (core : r.inner.members.Echo)
    (hnames : (r.members.names ++ r.inner.members.names).Nodup)
    (hmake : ∀ a, r.make (r.inner.make (r.inner.parts (r.parts a).1)) (r.parts a).2 = a)
    (hlevels : core.levels ≤ greatestDepth) : r.format.Echo where
  levels := max core.levels e.levels + 1
  Fit a := core.Fit (r.inner.parts (r.parts a).1) ∧ e.Fit (r.parts a).2
  back a := r.make (r.inner.make (core.back (r.inner.parts (r.parts a).1))) (e.back (r.parts a).2)
  fits a := .object (fits_append (core.fits (r.inner.parts (r.parts a).1)) (e.fits (r.parts a).2))
  read a mode hfit hfinite hmode := by
    obtain ⟨inner, hinner, hlimit⟩ := Mode.exists_descend hmode
    obtain ⟨-, -, hdisjoint⟩ := List.nodup_append.1 hnames
    have hfiniteIn := isFinite_object.1 hfinite
    have hfits := fits_append (core.fits (r.inner.parts (r.parts a).1)) (e.fits (r.parts a).2)
    have hparts := e.takes (r.parts a).2 (.direct inner.limit) hfit.2
      (fun member hmember => hfiniteIn member (List.mem_append_right _ hmember))
      ((Nat.le_max_right _ _).trans hlimit)
    have hcore := core.takes (r.inner.parts (r.parts a).1) .setAside hfit.1
      (fun member hmember => hfiniteIn member (List.mem_append_left _ hmember)) hlevels
    refine Extended.read_of_takes hnames (fun member hmember _ => examine_nodeMembers hfits hlimit member hmember)
      hinner ?_ ?_
    · refine (Members.takes_congr fun name hname => ?_).2 hparts
      rw [valuesAt_nodeMembers_append, valuesAt_write_eq_nil fun h => hdisjoint name hname name h rfl, List.nil_append]
    · refine (Members.takes_congr fun name hname => ?_).2 hcore
      rw [valuesAt_nodeMembers_append, valuesAt_write_eq_nil fun h => hdisjoint name h name hname rfl, List.append_nil]
  fixed a h := by
    have hcore := core.fixed (r.inner.parts (r.parts a).1) fun member hmember x hx =>
      h x (mem_realsMembers.2 ⟨member, List.mem_append_left _ hmember, hx⟩)
    have hparts := e.fixed (r.parts a).2 fun member hmember x hx =>
      h x (mem_realsMembers.2 ⟨member, List.mem_append_right _ hmember, hx⟩)
    rw [hcore, hparts, hmake]

end FlightPlanner.Json
