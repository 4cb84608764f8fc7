import FlightPlanner.Json.Format
import FlightPlanner.Proofs.Results

/-!
# Documents in which everything can be read

A document may be gone over without making anything of it. Where everything in it could be read, all lists and objects
are closed, all keys are texts, and the same holds of its parts with one level less; it can be passed over, and it could
also be read with more levels left.
-/

namespace FlightPlanner.Json

variable {mode : Mode} {node : Node} {depth more : Nat}

/-- What holds of a node whenever it holds of what is in it, holds of all nodes. -/
theorem Node.induction {P : Node → Prop} (null : P .null) (boolean : ∀ value, P (.boolean value))
    (number : ∀ literal, P (.number literal)) (text : ∀ content, P (.text content))
    (list : ∀ items ending, (∀ item ∈ items, P item) → P (.list items ending))
    (object : ∀ members ending, (∀ member ∈ members, P member.2) → P (.object members ending))
    (broken : ∀ fault, P (.broken fault)) (node : Node) : P node :=
  match node with
  | .null => null
  | .boolean value => boolean value
  | .number literal => number literal
  | .text content => text content
  | .list items ending => list items ending fun item _ => item.induction null boolean number text list object broken
  | .object members ending => object members ending fun member hmember =>
    have : sizeOf member.2 < sizeOf members := by
      have := List.sizeOf_lt_of_mem hmember
      cases member
      simp at this ⊢
      omega
    member.2.induction null boolean number text list object broken
  | .broken fault => broken fault
termination_by sizeOf node

/-- A list or an object that is closed is no fault. -/
theorem check_eq_ok_iff {ending : Ending} : ending.check = .ok () ↔ ending = .closed := by
  cases ending <;> simp [Ending.check]

/-- Where everything in some items can be read, everything in each of them can. -/
theorem examine_of_examineItems {depth : Nat} {items : List Node} (h : examineItems depth items = .ok ()) :
    ∀ item ∈ items, item.examine depth = .ok () := by
  induction items with
  | nil => exact fun _ h => absurd h List.not_mem_nil
  | cons first items ih =>
    obtain ⟨⟨⟩, hfirst, hrest⟩ := bind_eq_ok_iff.1 h
    intro item hitem
    obtain rfl | hitem := List.mem_cons.1 hitem
    · exact hfirst
    · exact ih hrest item hitem

/-- Where everything in some members can be read, their keys can and everything in each value can. -/
theorem examine_of_examineMembers {depth : Nat} {members : List (Key × Node)}
    (h : examineMembers depth members = .ok ()) :
    ∀ member ∈ members, (∃ name, member.1.read = .ok name) ∧ member.2.examine depth = .ok () := by
  induction members with
  | nil => exact fun _ h => absurd h List.not_mem_nil
  | cons first members ih =>
    obtain ⟨name, hname, h⟩ := bind_eq_ok_iff.1 h
    obtain ⟨⟨⟩, hvalue, hrest⟩ := bind_eq_ok_iff.1 h
    intro member hmember
    obtain rfl | hmember := List.mem_cons.1 hmember
    · exact ⟨⟨name, hname⟩, hvalue⟩
    · exact ih hrest member hmember

/-- Where everything in a list can be read, the list is closed and everything in its items can be read. -/
theorem examine_list {depth : Nat} {items : List Node} {ending : Ending}
    (h : (Node.list items ending).examine depth = .ok ()) :
    ∃ inner, descend depth = .ok inner ∧ ending = .closed ∧ ∀ item ∈ items, item.examine inner = .ok () := by
  rw [Node.examine] at h
  obtain ⟨inner, hinner, h⟩ := bind_eq_ok_iff.1 h
  obtain ⟨⟨⟩, hitems, hending⟩ := bind_eq_ok_iff.1 h
  exact ⟨inner, hinner, check_eq_ok_iff.1 hending, examine_of_examineItems hitems⟩

/-- Where everything in an object can be read, the object is closed, its keys can be read and everything in its values
can be. -/
theorem examine_object {depth : Nat} {members : List (Key × Node)} {ending : Ending}
    (h : (Node.object members ending).examine depth = .ok ()) :
    ∃ inner, descend depth = .ok inner ∧ ending = .closed ∧
      ∀ member ∈ members, (∃ name, member.1.read = .ok name) ∧ member.2.examine inner = .ok () := by
  rw [Node.examine] at h
  obtain ⟨inner, hinner, h⟩ := bind_eq_ok_iff.1 h
  obtain ⟨⟨⟩, hmembers, hending⟩ := bind_eq_ok_iff.1 h
  exact ⟨inner, hinner, check_eq_ok_iff.1 hending, examine_of_examineMembers hmembers⟩

/-- Whether a node is a whole document that is nested at most so deeply and has no number out of range. Its texts and
keys may still name half a character. -/
inductive Node.Sound : Nat → Node → Prop where
  /-- Null. -/
  | null {depth : Nat} : Sound depth .null
  /-- A truth value. -/
  | boolean {depth : Nat} (value : Bool) : Sound depth (.boolean value)
  /-- A number in range. -/
  | number {depth : Nat} {literal : Literal} {value : Number} (h : literal.value = .ok value) :
      Sound depth (.number literal)
  /-- A text. -/
  | text {depth : Nat} (content : Except Fault String) : Sound depth (.text content)
  /-- A closed list of such documents one level further down. -/
  | list {depth : Nat} {items : List Node} (inside : ∀ item ∈ items, Sound depth item) :
      Sound (depth + 1) (.list items .closed)
  /-- A closed object of such documents one level further down. -/
  | object {depth : Nat} {members : List (Key × Node)} (keys : ∀ member ∈ members, ∃ content, member.1 = .name content)
      (inside : ∀ member ∈ members, Sound depth member.2) : Sound (depth + 1) (.object members .closed)

/-- There is a level further down when there is at least one, and then there is one less. -/
theorem descend_eq_ok_iff {inner : Nat} : descend depth = .ok inner ↔ depth = inner + 1 := by
  unfold descend
  split
  · simp
    omega
  · simp
    omega

/-- All items can be read when each of them can. -/
theorem examineItems_eq {items : List Node} (h : ∀ item ∈ items, item.examine depth = .ok ()) :
    examineItems depth items = .ok () := by
  induction items with
  | nil => rfl
  | cons item items ih =>
    rw [examineItems, h item List.mem_cons_self]
    exact ih fun item hitem => h item (List.mem_cons_of_mem _ hitem)

/-- All members can be read when all keys and the value of each of them can. -/
theorem examineMembers_eq {members : List (Key × Node)}
    (h : ∀ member ∈ members, (∃ name, member.1.read = .ok name) ∧ member.2.examine depth = .ok ()) :
    examineMembers depth members = .ok () := by
  induction members with
  | nil => rfl
  | cons member members ih =>
    obtain ⟨⟨name, hname⟩, hvalue⟩ := h member List.mem_cons_self
    rw [examineMembers, hname, hvalue]
    exact ih fun member hmember => h member (List.mem_cons_of_mem _ hmember)

/-- What can be read with so many levels left can be read with more. -/
theorem examine_mono (h : node.examine depth = .ok ()) (hle : depth ≤ more) : node.examine more = .ok () := by
  induction node using Node.induction generalizing depth more with
  | list items ending ih =>
    obtain ⟨inner, hinner, rfl, hitems⟩ := examine_list h
    obtain rfl := descend_eq_ok_iff.1 hinner
    obtain ⟨more, rfl⟩ := Nat.exists_eq_add_of_le' (Nat.le_of_add_left_le hle)
    rw [Node.examine]
    refine bind_eq_ok_iff.2 ⟨more, descend_eq_ok_iff.2 rfl, ?_⟩
    have hmore := examineItems_eq fun item hitem => ih item hitem (hitems item hitem) (Nat.le_of_succ_le_succ hle)
    exact bind_eq_ok_iff.2 ⟨(), hmore, rfl⟩
  | object members ending ih =>
    obtain ⟨inner, hinner, rfl, hmembers⟩ := examine_object h
    obtain rfl := descend_eq_ok_iff.1 hinner
    obtain ⟨more, rfl⟩ := Nat.exists_eq_add_of_le' (Nat.le_of_add_left_le hle)
    rw [Node.examine]
    refine bind_eq_ok_iff.2 ⟨more, descend_eq_ok_iff.2 rfl, ?_⟩
    have hmore := examineMembers_eq fun member hmember =>
      ⟨(hmembers member hmember).1, ih member hmember (hmembers member hmember).2 (Nat.le_of_succ_le_succ hle)⟩
    exact bind_eq_ok_iff.2 ⟨(), hmore, rfl⟩
  | _ => exact h

/-- A whole list is closed, and its items are whole one level further down. -/
theorem Node.Sound.of_list {items : List Node} {ending : Ending} (h : (Node.list items ending).Sound depth) :
    ∃ inner, depth = inner + 1 ∧ ending = .closed ∧ ∀ item ∈ items, item.Sound inner := by
  cases h with
  | list inside => exact ⟨_, rfl, rfl, inside⟩

/-- A whole object is closed, and its values are whole one level further down. -/
theorem Node.Sound.of_object {members : List (Key × Node)} {ending : Ending}
    (h : (Node.object members ending).Sound depth) :
    ∃ inner, depth = inner + 1 ∧ ending = .closed ∧ ∀ member ∈ members, member.2.Sound inner := by
  cases h with
  | object keys inside => exact ⟨_, rfl, rfl, inside⟩

/-- A key that can be read is a text. -/
theorem exists_name_of_read {key : Key} {name : String} (h : key.read = .ok name) : ∃ content, key = .name content := by
  cases key with
  | name content => exact ⟨content, rfl⟩
  | broken fault => contradiction

/-- Where everything in a node can be read, it is a whole document. -/
theorem sound_of_examine (h : node.examine depth = .ok ()) : node.Sound depth := by
  induction node using Node.induction generalizing depth with
  | null => exact .null
  | boolean value => exact .boolean value
  | number literal =>
    obtain ⟨value, hvalue, -⟩ := map_eq_ok_iff.1 h
    exact .number hvalue
  | text content => exact .text content
  | list items ending ih =>
    obtain ⟨inner, hinner, rfl, hitems⟩ := examine_list h
    obtain rfl := descend_eq_ok_iff.1 hinner
    exact .list fun item hitem => ih item hitem (hitems item hitem)
  | object members ending ih =>
    obtain ⟨inner, hinner, rfl, hmembers⟩ := examine_object h
    obtain rfl := descend_eq_ok_iff.1 hinner
    refine .object (fun member hmember => ?_) fun member hmember => ih member hmember (hmembers member hmember).2
    obtain ⟨name, hname⟩ := (hmembers member hmember).1
    exact exists_name_of_read hname
  | broken fault => contradiction

/-- What is whole with so many levels is whole with more. -/
theorem Node.Sound.mono (h : node.Sound depth) (hle : depth ≤ more) : node.Sound more := by
  induction h generalizing more with
  | null => exact .null
  | boolean value => exact .boolean value
  | number hvalue => exact .number hvalue
  | text content => exact .text content
  | list inside ih =>
    obtain ⟨more, rfl⟩ := Nat.exists_eq_add_of_lt hle
    exact .list fun item hitem => ih item hitem (by omega)
  | object keys inside ih =>
    obtain ⟨more, rfl⟩ := Nat.exists_eq_add_of_lt hle
    exact .object keys fun member hmember => ih member hmember (by omega)

/-- A whole document can be passed over. -/
theorem Node.Sound.skip (h : node.Sound depth) : node.skip = .ok () := by
  induction h with
  | @list depth items inside ih =>
    have hskip : skipItems items = .ok () := by
      clear inside
      induction items with
      | nil => rfl
      | cons item items ihrest =>
        rw [skipItems, ih item List.mem_cons_self]
        exact ihrest fun item hitem => ih item (List.mem_cons_of_mem _ hitem)
    rw [Node.skip, hskip]
    rfl
  | @object depth members keys inside ih =>
    have hskip : skipMembers members = .ok () := by
      clear inside
      induction members with
      | nil => rfl
      | cons member members ihrest =>
        obtain ⟨content, hkey⟩ := keys member List.mem_cons_self
        rw [skipMembers, hkey, ih member List.mem_cons_self]
        exact ihrest (fun member hmember => keys member (List.mem_cons_of_mem _ hmember))
          fun member hmember => ih member (List.mem_cons_of_mem _ hmember)
    rw [Node.skip, hskip]
    rfl
  | _ => rfl

/-- Where everything in a node can be read, it can be passed over. -/
theorem skip_of_examine (h : node.examine depth = .ok ()) : node.skip = .ok () := (sound_of_examine h).skip

/-- In a document that is nested at most so deeply everything can be read with so many levels when it can with more. -/
theorem Node.Sound.examine (h : node.Sound depth) (hmore : node.examine more = .ok ()) :
    node.examine depth = .ok () := by
  induction h generalizing more with
  | list inside ih =>
    obtain ⟨inner, hinner, -, hitems⟩ := examine_list hmore
    have hexamine := examineItems_eq fun item hitem => ih item hitem (hitems item hitem)
    rw [Node.examine]
    exact bind_eq_ok_iff.2 ⟨_, descend_eq_ok_iff.2 rfl, bind_eq_ok_iff.2 ⟨(), hexamine, rfl⟩⟩
  | object keys inside ih =>
    obtain ⟨inner, hinner, -, hmembers⟩ := examine_object hmore
    have hexamine := examineMembers_eq fun member hmember =>
      ⟨(hmembers member hmember).1, ih member hmember (hmembers member hmember).2⟩
    rw [Node.examine]
    exact bind_eq_ok_iff.2 ⟨_, descend_eq_ok_iff.2 rfl, bind_eq_ok_iff.2 ⟨(), hexamine, rfl⟩⟩
  | _ => exact hmore

/-- How many levels are left to what is read in a mode; all of them in a part that was set aside. -/
def Mode.limit : Mode → Nat
  | .direct depth => depth
  | .setAside => greatestDepth

/-- There is one level further down where there is one more than needed. -/
theorem Mode.exists_descend {levels : Nat} (h : levels + 1 ≤ mode.limit) :
    ∃ inner, mode.descend = .ok inner ∧ levels ≤ inner.limit := by
  cases mode with
  | setAside => exact ⟨.setAside, rfl, Nat.le_of_succ_le h⟩
  | direct depth =>
    have hpos : depth ≠ 0 := Nat.ne_zero_of_lt h
    refine ⟨.direct (depth - 1), ?_, Nat.le_sub_one_of_lt h⟩
    simp [Mode.descend, Json.descend, hpos]

/-- Where so many levels are enough, one less is enough one level further down. -/
theorem Mode.le_limit_of_descend {inner : Mode} {levels : Nat} (h : mode.descend = .ok inner)
    (hle : levels + 1 ≤ mode.limit) : levels ≤ inner.limit := by
  obtain ⟨other, hother, hlimit⟩ := exists_descend hle
  obtain rfl := Except.ok.inj (h.symm.trans hother)
  exact hlimit

end FlightPlanner.Json
