import FlightPlanner.Proofs.Json.Records

/-!
# Modes of reading

A whole document is read in the same way wherever there are enough levels left for it, and mostly also after it has been
set aside. The one format that tells the two apart is that of names: an empty object may stand
in the place of null only in a part that was set aside.
-/

namespace FlightPlanner.Json

variable {α β : Type} {kind : Mode → Prop} {mode other : Mode} {node : Node} {depth more : Nat}

/-- Whether reading goes on as the text does. -/
def Mode.IsDirect : Mode → Prop
  | .direct _ => True
  | .setAside => False

/-- A direct mode is one, however many levels are left. -/
theorem Mode.isDirect_direct (depth : Nat) : (Mode.direct depth).IsDirect := trivial

/-- Whether modes are still of the kind one level further down. -/
def Mode.Lasting (kind : Mode → Prop) : Prop :=
  ∀ mode inner : Mode, kind mode → mode.descend = .ok inner → kind inner

/-- Reading that goes on as the text does still does so one level further down. -/
theorem Mode.lasting_isDirect : Mode.Lasting Mode.IsDirect := by
  intro mode inner hmode hinner
  cases mode with
  | setAside => exact hmode.elim
  | direct depth =>
    by_cases hdepth : depth = 0
    · simp [Mode.descend, Json.descend, hdepth] at hinner
    · simp [Mode.descend, Json.descend, hdepth] at hinner
      rw [← hinner]
      trivial

/-- All modes are modes one level further down. -/
theorem Mode.lasting_true : Mode.Lasting fun _ => True := fun _ _ _ _ => trivial

/-- Whether a format reads a node in the same way in all modes of a kind that leave enough levels for it. -/
structure Format.Steady (kind : Mode → Prop) (format : Format α) : Prop where
  /-- What is read in one mode is read in any other. -/
  read_eq : ∀ {node : Node} {depth : Nat} {mode other : Mode} {a : α}, node.Sound depth → kind mode →
    kind other → depth ≤ mode.limit → depth ≤ other.limit → format.read mode node = .ok a →
    format.read other node = .ok a

/-- A steady format accepts the same nodes in all modes of the kind. -/
theorem Format.Steady.exists_read_iff {format : Format α} (h : format.Steady kind) (hsound : node.Sound depth)
    (hmode : kind mode) (hother : kind other) (hlimit : depth ≤ mode.limit) (hlimitOther : depth ≤ other.limit) :
    (∃ a, format.read mode node = .ok a) ↔ ∃ a, format.read other node = .ok a :=
  exists_congr fun _ => ⟨h.read_eq hsound hmode hother hlimit hlimitOther,
    h.read_eq hsound hother hmode hlimitOther hlimit⟩

/-- A format that does not regard the mode is steady. -/
theorem Format.steady_of_read_eq {format : Format α}
    (h : ∀ mode other node, format.read mode node = format.read other node) : format.Steady kind :=
  ⟨fun _ _ _ _ _ hread => (h _ _ _).trans hread⟩

/-- Values that may be absent are read steadily when they are so where they are present. -/
theorem Format.Steady.optional {format : Format α} (h : format.Steady kind) : format.optional.Steady kind := by
  refine ⟨?_⟩
  intro node depth mode other a hsound hmode hother hlimit hlimitOther hread
  cases node with
  | null => exact hread
  | _ =>
    obtain ⟨b, hb, rfl⟩ := map_eq_ok_iff.1 hread
    exact map_eq_ok_iff.2 ⟨b, h.read_eq hsound hmode hother hlimit hlimitOther hb, rfl⟩

/-- Lists are read steadily when their items are. -/
theorem Format.Steady.list {format : Format α} (h : format.Steady kind) (hkind : Mode.Lasting kind) :
    (Format.list format).Steady kind := by
  refine ⟨?_⟩
  intro node depth mode other values hsound hmode hother hlimit hlimitOther hread
  cases node with
  | list items ending =>
    obtain ⟨depth, rfl, rfl, hitems⟩ := hsound.of_list
    obtain ⟨inner, hinner, hinnerLimit⟩ := Mode.exists_descend hlimit
    obtain ⟨innerOther, hinnerOther, hinnerOtherLimit⟩ := Mode.exists_descend hlimitOther
    obtain ⟨level, hlevel, hread⟩ := bind_eq_ok_iff.1 hread
    obtain rfl := Except.ok.inj (hinner.symm.trans hlevel)
    obtain ⟨_, hvalues, hread⟩ := bind_eq_ok_iff.1 hread
    obtain rfl := Except.ok.inj hread
    have hothers : ∀ (items : List Node) (values : List α), (∀ item ∈ items, item.Sound depth) →
        readItems format inner items = .ok values → readItems format innerOther items = .ok values := by
      intro items
      induction items with
      | nil => exact fun _ _ hread => hread
      | cons item items ih =>
        intro values hitems hread
        obtain ⟨a, ha, hrest⟩ := bind_eq_ok_iff.1 hread
        obtain ⟨rest, hrest, hvalues⟩ := bind_eq_ok_iff.1 hrest
        have hitem := h.read_eq (hitems item List.mem_cons_self) (hkind _ _ hmode hinner)
          (hkind _ _ hother hinnerOther) hinnerLimit hinnerOtherLimit ha
        have hitems := ih rest (fun item hitem => hitems item (List.mem_cons_of_mem _ hitem)) hrest
        exact bind_eq_ok_iff.2 ⟨a, hitem, bind_eq_ok_iff.2 ⟨rest, hitems, hvalues⟩⟩
    exact bind_eq_ok_iff.2 ⟨innerOther, hinnerOther, bind_eq_ok_iff.2 ⟨_, hothers items _ hitems hvalues, rfl⟩⟩
  | _ =>
    simp only [Format.list] at hread
    exact absurd hread refuse_ne_ok

/-- Names are read steadily as the text goes on. -/
theorem Format.steady_named {alternatives : List (String × α)} {name : α → String} :
    (Format.named alternatives name).Steady Mode.IsDirect := by
  refine ⟨?_⟩
  intro node depth mode other a hsound hmode hother hlimit hlimitOther hread
  cases mode with
  | setAside => exact hmode.elim
  | direct level =>
    cases other with
    | setAside => exact hother.elim
    | direct otherLevel =>
      cases node with
      | object members ending =>
        obtain ⟨depth, rfl, -⟩ := hsound.of_object
        have hpos : otherLevel = otherLevel - 1 + 1 := (Nat.sub_add_cancel (Nat.one_le_of_lt hlimitOther)).symm
        obtain ⟨_, -, hread⟩ := bind_eq_ok_iff.1 hread
        refine bind_eq_ok_iff.2 ⟨otherLevel - 1, ?_, hread⟩
        rw [descend_eq_ok_iff.2 hpos]
        rfl
      | _ => exact hread

/-- Whether the formats of all fields are steady. -/
def Members.Steady (kind : Mode → Prop) : {α : Type} → Members α → Prop
  | _, .none => True
  | _, .field first rest => first.format.Steady kind ∧ rest.Steady kind

/-- Steady fields take the same from the members of an object in all modes of the kind. -/
theorem Members.Steady.takes {m : Members α} (h : m.Steady kind) {members : List (String × Node)}
    (hsound : ∀ member ∈ members, member.2.Sound depth) (hmode : kind mode) (hother : kind other)
    (hlimit : depth ≤ mode.limit) (hlimitOther : depth ≤ other.limit) {values : α}
    (htakes : m.Takes mode members values) : m.Takes other members values := by
  induction m with
  | none => trivial
  | field first rest ih =>
    obtain ⟨a, values⟩ := values
    refine ⟨?_, ih h.2 htakes.2⟩
    match hvalues : valuesAt first.name members, htakes.1 with
    | [], hfallback => exact hfallback
    | [node], hread =>
      have hnode : (first.name, node) ∈ members := mem_valuesAt.1 (by simp [hvalues])
      exact h.1.read_eq (hsound _ hnode) hmode hother hlimit hlimitOther hread
    | _ :: _ :: _, hseveral => exact hseveral.elim

/-- Steady fields accept the same values in all modes of the kind. -/
theorem Members.Steady.accepts {m : Members α} (h : m.Steady kind) {name : String} (hsound : node.Sound depth)
    (hmode : kind mode) (hother : kind other) (hlimit : depth ≤ mode.limit) (hlimitOther : depth ≤ other.limit) :
    m.Accepts mode name node ↔ m.Accepts other name node := by
  induction m with
  | none => rfl
  | field first rest ih =>
    rw [Accepts, Accepts, h.1.exists_read_iff hsound hmode hother hlimit hlimitOther, ih h.2]

/-- Steady fields make the same of the items of a list in all modes of the kind. -/
theorem Members.Steady.readItems {m : Members α} (h : m.Steady kind) {items : List Node}
    (hsound : ∀ item ∈ items, item.Sound depth) (hmode : kind mode) (hother : kind other)
    (hlimit : depth ≤ mode.limit) (hlimitOther : depth ≤ other.limit) {title : String} {size place : Nat}
    {ending : Ending} {result : α × List Node} (hread : m.readItems mode title size ending place items = .ok result) :
    m.readItems other title size ending place items = .ok result := by
  induction m generalizing items place with
  | none => exact hread
  | field first rest ih =>
    cases items with
    | nil =>
      obtain ⟨⟨⟩, hending, hfield⟩ := bind_eq_ok_iff.1 hread
      refine bind_eq_ok_iff.2 ⟨(), hending, ?_⟩
      cases hfallback : first.fallback with
      | none =>
        rw [hfallback] at hfield
        contradiction
      | some a =>
        rw [hfallback] at hfield
        obtain ⟨others, hothers, hvalues⟩ := bind_eq_ok_iff.1 hfield
        exact bind_eq_ok_iff.2 ⟨others, ih h.2 hsound hothers, hvalues⟩
    | cons item items =>
      obtain ⟨a, ha, hitems⟩ := bind_eq_ok_iff.1 hread
      obtain ⟨others, hothers, hvalues⟩ := bind_eq_ok_iff.1 hitems
      have hitem := h.1.read_eq (hsound item List.mem_cons_self) hmode hother hlimit hlimitOther ha
      have hrest := ih h.2 (fun item hitem => hsound item (List.mem_cons_of_mem _ hitem)) hothers
      exact bind_eq_ok_iff.2 ⟨a, hitem, bind_eq_ok_iff.2 ⟨others, hrest, hvalues⟩⟩

/-- A list of which all fields have been read ends well when it is closed and nothing is left of it. -/
theorem Record.endOfItems_eq_ok_iff {size : Nat} {left : List Node} {ending : Ending} :
    Record.endOfItems mode size left ending = .ok () ↔ left = [] ∧ ending = .closed := by
  unfold Record.endOfItems
  split
  · simp [ofFault, mapError_eq_ok_iff, check_eq_ok_iff]
  · simp
  · simp

/-- A record is read steadily when its fields are. -/
theorem Members.Steady.record {r : Record α} (h : r.members.Steady kind) (hkind : Mode.Lasting kind)
    (hnames : r.members.names.Nodup) : r.format.Steady kind := by
  refine ⟨?_⟩
  intro node depth mode other a hsound hmode hother hlimit hlimitOther hread
  cases node with
  | list items ending =>
    obtain ⟨depth, rfl, rfl, hitems⟩ := hsound.of_list
    obtain ⟨inner, hinner, hinnerLimit⟩ := Mode.exists_descend hlimit
    obtain ⟨innerOther, hinnerOther, hinnerOtherLimit⟩ := Mode.exists_descend hlimitOther
    obtain ⟨level, hlevel, hread⟩ := bind_eq_ok_iff.1 hread
    obtain rfl := Except.ok.inj (hinner.symm.trans hlevel)
    obtain ⟨values, hvalues, hread⟩ := bind_eq_ok_iff.1 hread
    obtain ⟨⟨⟩, hend, hmake⟩ := bind_eq_ok_iff.1 hread
    have hvaluesOther := h.readItems hitems (hkind _ _ hmode hinner) (hkind _ _ hother hinnerOther) hinnerLimit
      hinnerOtherLimit hvalues
    refine bind_eq_ok_iff.2 ⟨innerOther, hinnerOther, bind_eq_ok_iff.2 ⟨values, hvaluesOther, ?_⟩⟩
    exact bind_eq_ok_iff.2 ⟨(), Record.endOfItems_eq_ok_iff.2 (Record.endOfItems_eq_ok_iff.1 hend), hmake⟩
  | object members ending =>
    obtain ⟨depth, rfl, rfl, hmembers⟩ := hsound.of_object
    obtain ⟨inner, named, parts, hinner, rfl, htakes, rfl⟩ := Record.takes_of_read hnames hread
    obtain ⟨innerOther, hinnerOther, hinnerOtherLimit⟩ := Mode.exists_descend hlimitOther
    have hnamed : ∀ member ∈ named, member.2.Sound depth := fun member hmember =>
      hmembers _ (List.mem_map_of_mem hmember)
    have htakesOther := h.takes hnamed (hkind _ _ hmode hinner) (hkind _ _ hother hinnerOther)
      (Mode.le_limit_of_descend hinner hlimit) hinnerOtherLimit htakes
    exact Record.read_of_takes hnames (fun member hmember => (hnamed member hmember).skip) hinnerOther
      htakesOther
  | _ =>
    simp only [Record.format, Record.read] at hread
    exact absurd hread refuse_ne_ok

/-- A record with an inner one is read in the same way in all modes when its own fields are read steadily as the text
goes on. -/
theorem Members.Steady.extended {e : Extended α} (h : e.members.Steady Mode.IsDirect)
    (hnames : (e.members.names ++ e.inner.members.names).Nodup) : e.format.Steady kind := by
  refine ⟨?_⟩
  intro node depth mode other a hsound _ _ hlimit hlimitOther hread
  obtain ⟨inner, named, parts, core, rfl, hinner, hexamine, htakes, hcore, rfl⟩ := Extended.takes_of_read hnames hread
  obtain ⟨depth, rfl, -, hmembers⟩ := hsound.of_object
  obtain ⟨innerOther, hinnerOther, hinnerOtherLimit⟩ := Mode.exists_descend hlimitOther
  have hnamed : ∀ member ∈ named, member.2.Sound depth := fun member hmember =>
    hmembers _ (List.mem_map_of_mem hmember)
  have hinnerLimit := Mode.le_limit_of_descend hinner hlimit
  have htakesOther : e.members.Takes (.direct innerOther.limit) named parts :=
    h.takes hnamed (Mode.isDirect_direct inner.limit) (Mode.isDirect_direct innerOther.limit) hinnerLimit
      hinnerOtherLimit htakes
  have hexamineOther : ∀ member ∈ named, member.1 ∉ e.members.names → member.2.examine innerOther.limit = .ok () :=
    fun member hmember hunknown =>
      examine_mono ((hnamed member hmember).examine (hexamine member hmember hunknown)) hinnerOtherLimit
  exact Extended.read_of_takes hnames hexamineOther hinnerOther htakesOther hcore

/-- Whether a node is an object whose only key is a name and whose value is an empty object. -/
def IsBare (name : String) (node : Node) : Prop :=
  node = .object [(.name (.ok name), .object [] .closed)] .closed

/-- In a part that was set aside an empty object may stand in the place of null. -/
theorem readUnitSetAside_eq_ok_iff (h : node.Sound depth) :
    readUnitSetAside node = .ok () ↔ readUnit node = .ok () ∨ node = .object [] .closed := by
  cases node with
  | object members ending =>
    obtain ⟨-, -, rfl, -⟩ := h.of_object
    cases members with
    | nil => simp [readUnitSetAside]
    | cons member members => simp [readUnitSetAside]
  | _ => simp [readUnitSetAside]

/-- An object is read as a name when its only key is one and null is its value. -/
theorem readNameDirect_object {inner : Nat} (h : descend depth = .ok inner) {alternatives : List (String × α)}
    {members : List (Key × Node)} {a : α} :
    readNameDirect alternatives depth (.object members .closed) = .ok a ↔
      ∃ name value, members = keyed [(name, value)] ∧ chooseName alternatives name = .ok a ∧
        readUnit value = .ok () := by
  constructor
  · intro hread
    obtain ⟨_, -, hread⟩ := bind_eq_ok_iff.1 hread
    match members with
    | [] => contradiction
    | (key, value) :: rest =>
      obtain ⟨name, hname, hread⟩ := bind_eq_ok_iff.1 hread
      obtain ⟨b, hb, hread⟩ := bind_eq_ok_iff.1 hread
      obtain ⟨⟨⟩, hvalue, hread⟩ := bind_eq_ok_iff.1 hread
      cases rest with
      | nil =>
        obtain rfl := Except.ok.inj hread
        exact ⟨name, value, @exists_keyed_cons key name value [] (mapError_eq_ok_iff.1 hname), hb, hvalue⟩
      | cons member rest => contradiction
  · rintro ⟨name, value, rfl, hname, hvalue⟩
    refine bind_eq_ok_iff.2 ⟨inner, by rw [h]; rfl, bind_eq_ok_iff.2 ⟨name, rfl, bind_eq_ok_iff.2 ⟨a, hname, ?_⟩⟩⟩
    exact bind_eq_ok_iff.2 ⟨(), hvalue, rfl⟩

/-- An object that was set aside is read as a name when its only key is one and null or an empty object is its value. -/
theorem readNameSetAside_object {alternatives : List (String × α)} {members : List (Key × Node)} {a : α} :
    readNameSetAside alternatives (.object members .closed) = .ok a ↔
      ∃ name value, members = keyed [(name, value)] ∧ chooseName alternatives name = .ok a ∧
        readUnitSetAside value = .ok () := by
  constructor
  · intro hread
    match members with
    | [] => contradiction
    | [(key, value)] =>
      obtain ⟨name, hname, hread⟩ := bind_eq_ok_iff.1 hread
      obtain ⟨b, hb, hread⟩ := bind_eq_ok_iff.1 hread
      obtain ⟨⟨⟩, hvalue, hread⟩ := bind_eq_ok_iff.1 hread
      obtain rfl := Except.ok.inj hread
      exact ⟨name, value, @exists_keyed_cons key name value [] (mapError_eq_ok_iff.1 hname), hb, hvalue⟩
    | _ :: _ :: _ => contradiction
  · rintro ⟨name, value, rfl, hname, hvalue⟩
    exact bind_eq_ok_iff.2 ⟨name, rfl, bind_eq_ok_iff.2 ⟨a, hname, bind_eq_ok_iff.2 ⟨(), hvalue, rfl⟩⟩⟩

/-- In a part that was set aside a name may also be the key of an object with an empty object for a value; otherwise it
is read as it is when the text goes on. -/
theorem readNameSetAside_eq_ok_iff {alternatives : List (String × α)} {a : α} (h : node.Sound depth) :
    readNameSetAside alternatives node = .ok a ↔ readNameDirect alternatives depth node = .ok a ∨
      ∃ name, IsBare name node ∧ chooseName alternatives name = .ok a := by
  cases node with
  | object members ending =>
    obtain ⟨depth, rfl, rfl, hmembers⟩ := h.of_object
    rw [readNameSetAside_object, readNameDirect_object (descend_eq_ok_iff.2 rfl)]
    constructor
    · rintro ⟨name, value, rfl, hname, hvalue⟩
      have hsound := hmembers _ List.mem_cons_self
      obtain hunit | rfl := (readUnitSetAside_eq_ok_iff hsound).1 hvalue
      · exact .inl ⟨name, value, rfl, hname, hunit⟩
      · exact .inr ⟨name, rfl, hname⟩
    · rintro (⟨name, value, rfl, hname, hvalue⟩ | ⟨name, hbare, hname⟩)
      · have hsound := hmembers _ List.mem_cons_self
        exact ⟨name, value, rfl, hname, (readUnitSetAside_eq_ok_iff hsound).2 (.inl hvalue)⟩
      · obtain ⟨rfl, -⟩ := Node.object.inj hbare
        exact ⟨name, .object [] .closed, rfl, hname, rfl⟩
  | _ => simp [readNameSetAside, readNameDirect, IsBare, refuse_ne_ok]

end FlightPlanner.Json
