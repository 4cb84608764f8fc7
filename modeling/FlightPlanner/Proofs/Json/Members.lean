import FlightPlanner.Json.Record
import FlightPlanner.Proofs.Results

/-!
# What a record takes from the members of an object

The members of an object are read one after the other, but what comes out of it depends only on the values under each
name: a field takes the one value under its own name, or its fallback where there is none, and nothing at all where
there are several. So success does not depend on the order of the members, nor on those that no field knows. The
members of a flattened record are told apart by their names in the same way.
-/

namespace FlightPlanner.Json

variable {α β : Type} {mode : Mode}

/-- Members as they are read when all their keys can be. -/
def keyed (members : List (String × Node)) : List (Key × Node) :=
  members.map fun (name, node) => (.name (.ok name), node)

/-- Members are known from what they are read as. -/
theorem keyed_injective {members others : List (String × Node)} (h : keyed members = keyed others) :
    members = others := by
  refine (List.map_inj_right ?_).1 h
  rintro ⟨name, node⟩ ⟨name', node'⟩ hsame
  simpa using hsame

/-- The values of the members with a name, in their order. -/
def valuesAt (name : String) (members : List (String × Node)) : List Node :=
  (members.filter (·.1 = name)).map (·.2)

/-- The first of some members with a name. -/
theorem valuesAt_cons_self (name : String) (node : Node) (members : List (String × Node)) :
    valuesAt name ((name, node) :: members) = node :: valuesAt name members := by
  simp [valuesAt]

/-- The first of some members with another name. -/
theorem valuesAt_cons_of_ne {name other : String} (h : other ≠ name) (node : Node) (members : List (String × Node)) :
    valuesAt name ((other, node) :: members) = valuesAt name members := by
  simp [valuesAt, h]

/-- What a field makes of the values under its name. -/
def Field.Takes (mode : Mode) (field : Field α) : List Node → α → Prop
  | [], a => field.fallback = some a
  | [node], a => field.format.read mode node = .ok a
  | _, _ => False

/-- What reading the values under the name of a field makes of its slot. -/
def Field.Fills (mode : Mode) (field : Field α) : Option α → List Node → Option α → Prop
  | slot, [], filled => filled = slot
  | none, [node], some a => field.format.read mode node = .ok a
  | _, _, _ => False

/-- An empty slot is filled by the first value, and no other one may follow. -/
theorem Field.fills_cons {field : Field α} {node : Node} {values : List Node} {filled : Option α} :
    field.Fills mode none (node :: values) filled ↔
      ∃ a, field.format.read mode node = .ok a ∧ field.Fills mode (some a) values filled := by
  cases values with
  | nil => cases filled <;> simp [Field.Fills]
  | cons next values => simp [Field.Fills]

/-- A field takes what its empty slot is filled with, or else its fallback. -/
theorem Field.takes_iff {field : Field α} {values : List Node} {a : α} :
    field.Takes mode values a ↔ ∃ filled, field.Fills mode none values filled ∧
      (filled = some a ∨ filled = none ∧ field.fallback = some a) := by
  match values with
  | [] => simp [Field.Takes, Field.Fills]
  | [node] =>
    constructor
    · exact fun h => ⟨some a, h, .inl rfl⟩
    · rintro ⟨filled, hfills, rfl | ⟨rfl, -⟩⟩
      · exact hfills
      · exact hfills.elim
  | first :: second :: values => simp [Field.Takes, Field.Fills]

namespace Members

/-- What the fields make of the members of an object. -/
def Takes (mode : Mode) (members : List (String × Node)) : {α : Type} → Members α → α → Prop
  | _, .none, _ => True
  | _, .field first rest, (a, values) =>
    first.Takes mode (valuesAt first.name members) a ∧ rest.Takes mode members values

/-- What reading the members of an object makes of the slots. -/
def Fills (mode : Mode) (members : List (String × Node)) : {α : Type} → (m : Members α) → m.Slots → m.Slots → Prop
  | _, .none, _, _ => True
  | _, .field first rest, slots, filled =>
    first.Fills mode slots.1 (valuesAt first.name members) filled.1 ∧ rest.Fills mode members slots.2 filled.2

/-- The fields make the same of members with the same values under their names. -/
theorem takes_congr {m : Members α} {members others : List (String × Node)} {values : α}
    (h : ∀ name ∈ m.names, valuesAt name members = valuesAt name others) :
    m.Takes mode members values ↔ m.Takes mode others values := by
  induction m with
  | none => rfl
  | field first rest ih =>
    rw [Takes, Takes, h first.name List.mem_cons_self, ih fun name hname => h name (List.mem_cons_of_mem _ hname)]

/-- The slots are filled in the same way by members with the same values under the names of the fields. -/
theorem fills_congr {m : Members α} {members others : List (String × Node)} {slots filled : m.Slots}
    (h : ∀ name ∈ m.names, valuesAt name members = valuesAt name others) :
    m.Fills mode members slots filled ↔ m.Fills mode others slots filled := by
  induction m with
  | none => rfl
  | field first rest ih =>
    rw [Fills, Fills, h first.name List.mem_cons_self, ih fun name hname => h name (List.mem_cons_of_mem _ hname)]

/-- A member with another name than those of the fields fills no slot. -/
theorem fills_cons_of_not_mem {m : Members α} {name : String} (h : name ∉ m.names) (node : Node)
    (members : List (String × Node)) {slots filled : m.Slots} :
    m.Fills mode ((name, node) :: members) slots filled ↔ m.Fills mode members slots filled :=
  fills_congr fun other hother => valuesAt_cons_of_ne (by rintro rfl; exact h hother) node members

/-- No member leaves the slots as they are. -/
theorem fills_nil {m : Members α} {slots filled : m.Slots} : m.Fills mode [] slots filled ↔ filled = slots := by
  induction m with
  | none => exact ⟨fun _ => rfl, fun _ => trivial⟩
  | field first rest ih =>
    rw [Fills, ih]
    exact ⟨fun ⟨hfirst, hrest⟩ => Prod.ext hfirst hrest, fun h => h ▸ ⟨rfl, rfl⟩⟩

/-- A name that no field has is passed over, and no other one is. -/
theorem put_eq_none_iff {m : Members α} {name : String} {node : Node} {slots : m.Slots} :
    m.put mode name node slots = Option.none ↔ name ∉ m.names := by
  induction m with
  | none => simp [put, names]
  | field first rest ih =>
    by_cases hname : first.name = name
    · obtain ⟨slot, slots⟩ := slots
      cases slot <;> simp [put, names, hname]
    · simp [put, names, hname, ih, Ne.symm hname]

/-- The slots that a member and the ones after it fill are those that the ones after it fill when the member has been
put into its own. -/
theorem fills_cons {m : Members α} (hnames : m.names.Nodup) {name : String} {node : Node}
    {members : List (String × Node)} {slots filled : m.Slots} (hname : name ∈ m.names) :
    m.Fills mode ((name, node) :: members) slots filled ↔
      ∃ next, m.put mode name node slots = some (.ok next) ∧ m.Fills mode members next filled := by
  induction m with
  | none => contradiction
  | field first rest ih =>
    obtain ⟨slot, slots⟩ := slots
    obtain ⟨filledSlot, filled⟩ := filled
    obtain ⟨hfirst, hrest⟩ := List.nodup_cons.1 hnames
    by_cases h : first.name = name
    · subst h
      rw [Fills, valuesAt_cons_self, fills_cons_of_not_mem hfirst]
      cases slot with
      | some a => simp [put, Field.Fills]
      | none =>
        simp only [put, if_true, Field.fills_cons, Option.some_inj, map_eq_ok_iff]
        constructor
        · rintro ⟨⟨a, hread, hfills⟩, hothers⟩
          exact ⟨(some a, slots), ⟨a, hread, rfl⟩, hfills, hothers⟩
        · rintro ⟨-, ⟨a, hread, rfl⟩, hfills, hothers⟩
          exact ⟨⟨a, hread, hfills⟩, hothers⟩
    · rw [Fills, valuesAt_cons_of_ne (Ne.symm h), ih hrest ((List.mem_cons.1 hname).resolve_left (Ne.symm h))]
      simp only [put, if_neg h, Option.map_eq_some_iff]
      constructor
      · rintro ⟨hfills, next, hput, hothers⟩
        exact ⟨(slot, next), ⟨_, hput, rfl⟩, hfills, hothers⟩
      · rintro ⟨put, ⟨result, hput, hresult⟩, hfills, hothers⟩
        obtain ⟨next, rfl, rfl⟩ := map_eq_ok_iff.1 hresult
        exact ⟨hfills, next, hput, hothers⟩

/-- The slots are complete when each of them is filled or has a fallback. -/
theorem finish_eq_ok_iff {first : Field α} {rest : Members β} {slot : Option α} {slots : rest.Slots} {a : α}
    {values : β} : (Members.field first rest).finish (slot, slots) = .ok (a, values) ↔
      (slot = some a ∨ slot = Option.none ∧ first.fallback = some a) ∧ rest.finish slots = .ok values := by
  cases hrest : rest.finish slots <;> cases hfallback : first.fallback <;> cases slot <;>
    simp [finish, hrest, hfallback, bind, Except.bind]

/-- The fields take what their empty slots are filled with, completed by the fallbacks. -/
theorem takes_iff {m : Members α} {members : List (String × Node)} {values : α} :
    m.Takes mode members values ↔ ∃ filled, m.Fills mode members m.empty filled ∧ m.finish filled = .ok values := by
  induction m with
  | none => exact ⟨fun _ => ⟨(), trivial, rfl⟩, fun _ => trivial⟩
  | field first rest ih =>
    obtain ⟨a, values⟩ := values
    rw [Takes, Field.takes_iff, ih]
    constructor
    · rintro ⟨⟨slot, hslot, hvalue⟩, filled, hfills, hfinish⟩
      exact ⟨(slot, filled), ⟨hslot, hfills⟩, finish_eq_ok_iff.2 ⟨hvalue, hfinish⟩⟩
    · rintro ⟨⟨slot, filled⟩, ⟨hslot, hfills⟩, hfinish⟩
      obtain ⟨hvalue, hothers⟩ := finish_eq_ok_iff.1 hfinish
      exact ⟨⟨slot, hslot, hvalue⟩, filled, hfills, hothers⟩

end Members

/-- The members in another order have the same values under a name, in another order. -/
theorem valuesAt_perm {members others : List (String × Node)} (h : members.Perm others) (name : String) :
    (valuesAt name members).Perm (valuesAt name others) :=
  (h.filter _).map _

/-- A field takes the same from values in another order. -/
theorem Field.takes_perm {field : Field α} {values others : List Node} (h : values.Perm others) {a : α} :
    field.Takes mode values a ↔ field.Takes mode others a := by
  match values, others, h with
  | [], others, h => rw [h.nil_eq]
  | [node], others, h => rw [h.singleton_eq]
  | first :: second :: values, others, h =>
    -- several values are refused, in whatever order they come
    match others, h.length_eq with
    | third :: fourth :: others, _ => simp [Field.Takes]

/-- The fields take the same from members in another order. -/
theorem Members.takes_perm {m : Members α} {members others : List (String × Node)} (h : members.Perm others)
    {values : α} : m.Takes mode members values ↔ m.Takes mode others values := by
  induction m with
  | none => rfl
  | field first rest ih => rw [Takes, Takes, Field.takes_perm (valuesAt_perm h first.name), ih]

/-- A field takes something when it has at most one value, one if it must, and can read it. -/
theorem Field.exists_takes_iff {field : Field α} {values : List Node} :
    (∃ a, field.Takes mode values a) ↔ values.length ≤ 1 ∧ (field.fallback = none → values ≠ []) ∧
      ∀ node ∈ values, ∃ a, field.format.read mode node = .ok a := by
  match values with
  | [] => cases hfallback : field.fallback <;> simp [Field.Takes, hfallback]
  | [node] => simp [Field.Takes]
  | first :: second :: values => simp [Field.Takes]

/-- Members with other names make no difference to the values under a name. -/
theorem valuesAt_filter {p : String → Bool} {name : String} (h : p name = true) (members : List (String × Node)) :
    valuesAt name (members.filter (p ·.1)) = valuesAt name members := by
  unfold valuesAt
  rw [List.filter_filter]
  congr 2
  funext member
  by_cases hname : member.1 = name
  · simp [hname, h]
  · simp [hname]

/-- The fields take the same from members that agree, up to their order, in those with the names of the fields. -/
theorem Members.takes_of_filter_perm {m : Members α} {names : List String} (hnames : ∀ name ∈ m.names, name ∈ names)
    {members others : List (String × Node)} (h : (members.filter (·.1 ∈ names)).Perm (others.filter (·.1 ∈ names)))
    {values : α} : m.Takes mode members values ↔ m.Takes mode others values := by
  have hfilter : ∀ members : List (String × Node),
      m.Takes mode (members.filter (·.1 ∈ names)) values ↔ m.Takes mode members values := fun members =>
    takes_congr fun name hname => valuesAt_filter (p := (· ∈ names)) (by simpa using hnames name hname) members
  rw [← hfilter members, takes_perm h, hfilter others]

/-- The names of the fields that may not be missing. -/
def Members.required : {α : Type} → Members α → List String
  | _, .none => []
  | _, .field first rest => if first.fallback.isNone then first.name :: rest.required else rest.required

/-- Whether every field with a name can read a value. -/
def Members.Accepts (mode : Mode) (name : String) (node : Node) : {α : Type} → Members α → Prop
  | _, .none => True
  | _, .field first rest =>
    (first.name = name → ∃ a, first.format.read mode node = .ok a) ∧ rest.Accepts mode name node

/-- The values under a name are those of the members with this name. -/
theorem mem_valuesAt {name : String} {node : Node} {members : List (String × Node)} :
    node ∈ valuesAt name members ↔ (name, node) ∈ members := by
  simp [valuesAt]

/-- There are as many values under a name as it occurs among the keys. -/
theorem length_valuesAt (name : String) (members : List (String × Node)) :
    (valuesAt name members).length = (members.map (·.1)).count name := by
  rw [valuesAt, List.length_map, ← List.countP_eq_length_filter, List.count, List.countP_map]
  rfl

/-- There are values under a name when it occurs among the keys. -/
theorem valuesAt_ne_nil_iff {name : String} {members : List (String × Node)} :
    valuesAt name members ≠ [] ↔ name ∈ members.map (·.1) := by
  rw [← List.count_pos_iff, ← length_valuesAt, List.length_pos_iff]

/-- The fields take something from the members of an object when each of their names occurs at most once, when those
that may not be missing occur, and when every member with one of the names can be read. -/
theorem Members.exists_takes_iff {m : Members α} {members : List (String × Node)} :
    (∃ values, m.Takes mode members values) ↔
      (∀ name ∈ m.names, (members.map (·.1)).count name ≤ 1) ∧ (∀ name ∈ m.required, name ∈ members.map (·.1)) ∧
        ∀ member ∈ members, m.Accepts mode member.1 member.2 := by
  induction m with
  | none => simp [Takes, names, required, Accepts]
  | @field β γ first rest ih =>
    have hparts : (∃ values, (Members.field first rest).Takes mode members values) ↔
        (∃ a, first.Takes mode (valuesAt first.name members) a) ∧ ∃ values, rest.Takes mode members values := by
      constructor
      · rintro ⟨⟨a, values⟩, hfirst, hrest⟩
        exact ⟨⟨a, hfirst⟩, values, hrest⟩
      · rintro ⟨⟨a, hfirst⟩, values, hrest⟩
        exact ⟨(a, values), hfirst, hrest⟩
    rw [hparts, Field.exists_takes_iff, ih, length_valuesAt, valuesAt_ne_nil_iff]
    constructor
    · rintro ⟨⟨hcount, hfallback, hread⟩, hcounts, hrequired, haccepts⟩
      refine ⟨?_, ?_, fun member hmember => ⟨?_, haccepts member hmember⟩⟩
      · intro name hname
        obtain rfl | hname := List.mem_cons.1 hname
        · exact hcount
        · exact hcounts name hname
      · intro name hname
        rw [required] at hname
        split at hname
        · next hnone =>
          obtain rfl | hname := List.mem_cons.1 hname
          · exact hfallback (Option.isNone_iff_eq_none.1 hnone)
          · exact hrequired name hname
        · exact hrequired name hname
      · intro hname
        refine hread member.2 (mem_valuesAt.2 ?_)
        rwa [hname]
    · rintro ⟨hcounts, hrequired, haccepts⟩
      refine ⟨⟨hcounts first.name List.mem_cons_self, ?_, ?_⟩,
        fun name hname => hcounts name (List.mem_cons_of_mem _ hname), ?_,
        fun member hmember => (haccepts member hmember).2⟩
      · intro hnone
        refine hrequired first.name ?_
        rw [required, hnone]
        exact List.mem_cons_self
      · intro node hnode
        exact (haccepts (first.name, node) (mem_valuesAt.1 hnode)).1 rfl
      · intro name hname
        refine hrequired name ?_
        rw [required]
        split
        · exact List.mem_cons_of_mem _ hname
        · exact hname

/-- Whether each field reads the item in its place. -/
def Members.TakesItems (mode : Mode) : {α : Type} → Members α → List Node → α → Prop
  | _, .none, items, _ => items = []
  | _, .field _ _, [], _ => False
  | _, .field first rest, item :: items, (a, values) =>
    first.format.read mode item = .ok a ∧ rest.TakesItems mode items values

/-- A list that is as long as a record has fields is read item by item, to its end. -/
theorem Members.readItems_eq_ok_iff {m : Members α} {items left : List Node} (hlength : items.length = m.size)
    {title : String} {size place : Nat} {ending : Ending} {values : α} :
    m.readItems mode title size ending place items = .ok (values, left) ↔
      left = [] ∧ m.TakesItems mode items values := by
  induction m generalizing items place with
  | none =>
    obtain rfl := List.length_eq_zero_iff.1 hlength
    simp [readItems, TakesItems, eq_comm]
  | field first rest ih =>
    cases items with
    | nil => simp [Members.size, names] at hlength
    | cons item items =>
      obtain ⟨a, values⟩ := values
      have hrest : items.length = rest.size := by simpa [Members.size, names] using hlength
      rw [readItems, TakesItems]
      constructor
      · intro h
        obtain ⟨value, hvalue, hitems⟩ := bind_eq_ok_iff.1 h
        obtain ⟨⟨others, after⟩, hothers, hresult⟩ := bind_eq_ok_iff.1 hitems
        obtain ⟨hvalues, rfl⟩ := Prod.mk.inj (Except.ok.inj hresult)
        obtain ⟨rfl, rfl⟩ := Prod.mk.inj hvalues
        obtain ⟨hleft, htakes⟩ := (ih hrest).1 hothers
        exact ⟨hleft, hvalue, htakes⟩
      · rintro ⟨hleft, hvalue, htakes⟩
        exact bind_eq_ok_iff.2 ⟨a, hvalue, bind_eq_ok_iff.2 ⟨(values, left), (ih hrest).2 ⟨hleft, htakes⟩, rfl⟩⟩

/-- The fields take the same from an object with all their names and from the list of its values in the order of the
fields. -/
theorem Members.takes_zip_iff {m : Members α} (hnames : m.names.Nodup) {items : List Node}
    (hlength : items.length = m.size) {values : α} :
    m.Takes mode (m.names.zip items) values ↔ m.TakesItems mode items values := by
  induction m generalizing items with
  | none =>
    obtain rfl := List.length_eq_zero_iff.1 hlength
    simp [Takes, TakesItems]
  | field first rest ih =>
    cases items with
    | nil => simp [size, names] at hlength
    | cons item items =>
      obtain ⟨a, values⟩ := values
      obtain ⟨hfirst, hrest⟩ := List.nodup_cons.1 hnames
      have hitems : items.length = rest.size := by simpa [Members.size, names] using hlength
      have hnone : valuesAt first.name (rest.names.zip items) = [] := by
        by_cases hsome : valuesAt first.name (rest.names.zip items) = []
        · exact hsome
        · obtain ⟨member, hmember, hname⟩ := List.mem_map.1 (valuesAt_ne_nil_iff.1 hsome)
          exact absurd (hname ▸ (List.of_mem_zip hmember).1) hfirst
      have hothers : rest.Takes mode ((first.name, item) :: rest.names.zip items) values ↔
          rest.Takes mode (rest.names.zip items) values :=
        takes_congr fun name hname => valuesAt_cons_of_ne (by rintro rfl; exact hfirst hname) item _
      rw [names, List.zip_cons_cons, Takes, TakesItems, valuesAt_cons_self, hnone, hothers, ih hrest hitems]
      rfl

/-- Whether the value of each field is its fallback or read from some node. -/
def Members.Yields (mode : Mode) : {α : Type} → Members α → α → Prop
  | _, .none, _ => True
  | _, .field first rest, (a, values) =>
    (first.fallback = some a ∨ ∃ node, first.format.read mode node = .ok a) ∧ rest.Yields mode values

/-- What fields take from the members of an object is read or a fallback. -/
theorem Members.yields_of_takes {m : Members α} {members : List (String × Node)} {values : α}
    (h : m.Takes mode members values) : m.Yields mode values := by
  induction m with
  | none => trivial
  | field first rest ih =>
    obtain ⟨a, values⟩ := values
    refine ⟨?_, ih h.2⟩
    match hvalues : valuesAt first.name members, h.1 with
    | [], hfallback => exact .inl hfallback
    | [node], hread => exact .inr ⟨node, hread⟩
    | _ :: _ :: _, hseveral => exact hseveral.elim

/-- What fields make of the items of a list is read or a fallback. -/
theorem Members.yields_of_readItems {m : Members α} {items left : List Node} {title : String} {size place : Nat}
    {ending : Ending} {values : α} (h : m.readItems mode title size ending place items = .ok (values, left)) :
    m.Yields mode values := by
  induction m generalizing items place with
  | none => trivial
  | field first rest ih =>
    cases items with
    | nil =>
      rw [readItems] at h
      obtain ⟨_, _, hfield⟩ := bind_eq_ok_iff.1 h
      cases hfallback : first.fallback with
      | none =>
        rw [hfallback] at hfield
        contradiction
      | some a =>
        rw [hfallback] at hfield
        obtain ⟨⟨others, after⟩, hothers, hresult⟩ := bind_eq_ok_iff.1 hfield
        obtain ⟨rfl, rfl⟩ := Prod.mk.inj (Except.ok.inj hresult)
        exact ⟨.inl hfallback, ih hothers⟩
    | cons item items =>
      rw [readItems] at h
      obtain ⟨value, hvalue, hitems⟩ := bind_eq_ok_iff.1 h
      obtain ⟨⟨others, after⟩, hothers, hresult⟩ := bind_eq_ok_iff.1 hitems
      obtain ⟨rfl, rfl⟩ := Prod.mk.inj (Except.ok.inj hresult)
      exact ⟨.inr ⟨item, hvalue⟩, ih hothers⟩

/-- The names of keys that can be read. -/
theorem exists_keyed_cons {key : Key} {name : String} {node : Node} {rest : List (String × Node)}
    (h : key.read = .ok name) : (key, node) :: keyed rest = keyed ((name, node) :: rest) := by
  cases key with
  | name content =>
    obtain rfl : content = .ok name := h
    rfl
  | broken fault => contradiction

/-- When the members of an object are read as a record, then all keys could be read and the slots are filled. -/
theorem Record.fills_of_readMembers {m : Members α} (hnames : m.names.Nodup) {members : List (Key × Node)}
    {slots filled : m.Slots} (h : Record.readMembers mode m slots members = .ok filled) :
    ∃ named, members = keyed named ∧ m.Fills mode named slots filled := by
  induction members generalizing slots with
  | nil => exact ⟨[], rfl, Members.fills_nil.2 (Except.ok.inj h).symm⟩
  | cons member members ih =>
    obtain ⟨key, node⟩ := member
    rw [readMembers] at h
    obtain ⟨name, hname, h⟩ := bind_eq_ok_iff.1 h
    rw [ofFault, mapError_eq_ok_iff] at hname
    cases hput : m.put mode name node slots with
    | some result =>
      rw [hput] at h
      obtain ⟨next, hnext, h⟩ := bind_eq_ok_iff.1 h
      obtain ⟨named, rfl, hfills⟩ := ih h
      refine ⟨(name, node) :: named, exists_keyed_cons hname, (Members.fills_cons hnames ?_).2 ⟨next, ?_, hfills⟩⟩
      · refine Decidable.byContradiction fun hnot => ?_
        rw [Members.put_eq_none_iff.2 hnot] at hput
        contradiction
      · rw [hput, hnext]
    | none =>
      rw [hput] at h
      have hrest : readMembers mode m slots members = .ok filled := by
        cases mode with
        | direct depth =>
          obtain ⟨_, _, hrest⟩ := bind_eq_ok_iff.1 h
          exact hrest
        | setAside => exact h
      obtain ⟨named, rfl, hfills⟩ := ih hrest
      exact ⟨(name, node) :: named, exists_keyed_cons hname,
        (Members.fills_cons_of_not_mem (Members.put_eq_none_iff.1 hput) node named).2 hfills⟩

/-- The members of an object with keys that can be read are read as a record when the slots can be filled and nothing
that is passed over is broken. -/
theorem Record.readMembers_of_fills {m : Members α} (hnames : m.names.Nodup) {members : List (String × Node)}
    (hskip : ∀ member ∈ members, member.2.skip = .ok ()) {slots filled : m.Slots}
    (h : m.Fills mode members slots filled) : Record.readMembers mode m slots (keyed members) = .ok filled := by
  induction members generalizing slots with
  | nil => rw [Members.fills_nil.1 h]; rfl
  | cons member members ih =>
    obtain ⟨name, node⟩ := member
    have hothers : ∀ member ∈ members, member.2.skip = .ok () :=
      fun member hmember => hskip member (List.mem_cons_of_mem _ hmember)
    rw [keyed, List.map_cons, readMembers]
    refine bind_eq_ok_iff.2 ⟨name, rfl, ?_⟩
    by_cases hname : name ∈ m.names
    · obtain ⟨next, hput, hfills⟩ := (Members.fills_cons hnames hname).1 h
      rw [hput]
      exact ih hothers hfills
    · rw [Members.put_eq_none_iff.2 hname]
      have hfills := (Members.fills_cons_of_not_mem hname node members).1 h
      have hnode : node.skip = .ok () := hskip (name, node) List.mem_cons_self
      cases mode with
      | direct depth => exact bind_eq_ok_iff.2 ⟨(), by rw [hnode]; rfl, ih hothers hfills⟩
      | setAside => exact ih hothers hfills

end FlightPlanner.Json
