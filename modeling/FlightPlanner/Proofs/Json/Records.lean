import FlightPlanner.Proofs.Json.Examination
import FlightPlanner.Proofs.Json.Members

/-!
# Records as they are read

What a record is made of when it is read from an object or from a list, and when that succeeds. An object in which
everything can be read is a record exactly when its fields take what they need from the members; a list that is as
long as the record has fields is one exactly when each field reads the item in its place.
-/

namespace FlightPlanner.Json

variable {α β : Type} {mode : Mode}

/-- A node of another kind than the wanted one is never read. -/
theorem refuse_ne_ok {wanted : Wanted} {node : Node} {a : α} : refuse wanted node ≠ .ok a := by
  unfold refuse
  split <;> nofun

namespace Record

variable {r : Record α}

/-- What a record that is read from an object is made of. -/
theorem takes_of_read (hnames : r.members.names.Nodup) {members : List (Key × Node)} {ending : Ending} {a : α}
    (h : r.read mode (.object members ending) = .ok a) :
    ∃ inner named parts, mode.descend = .ok inner ∧ members = keyed named ∧ r.members.Takes inner named parts ∧
      r.make parts = a := by
  rw [read] at h
  obtain ⟨inner, hinner, hmembers⟩ := bind_eq_ok_iff.1 h
  obtain ⟨slots, hslots, hend⟩ := bind_eq_ok_iff.1 hmembers
  obtain ⟨_, _, hfinish⟩ := bind_eq_ok_iff.1 hend
  obtain ⟨parts, hparts, hmake⟩ := bind_eq_ok_iff.1 hfinish
  obtain ⟨named, rfl, hfills⟩ := fills_of_readMembers hnames hslots
  exact ⟨inner, named, parts, hinner, rfl, Members.takes_iff.2 ⟨slots, hfills, hparts⟩, Except.ok.inj hmake⟩

/-- A record is read from an object when its fields take what they need from the members. -/
theorem read_of_takes (hnames : r.members.names.Nodup) {members : List (String × Node)}
    (hskip : ∀ member ∈ members, member.2.skip = .ok ()) {inner : Mode} (hinner : mode.descend = .ok inner)
    {parts : r.Parts} (h : r.members.Takes inner members parts) :
    r.read mode (.object (keyed members) .closed) = .ok (r.make parts) := by
  obtain ⟨slots, hfills, hparts⟩ := Members.takes_iff.1 h
  rw [read]
  refine bind_eq_ok_iff.2 ⟨inner, hinner, ?_⟩
  refine bind_eq_ok_iff.2 ⟨slots, readMembers_of_fills hnames hskip hfills, ?_⟩
  exact bind_eq_ok_iff.2 ⟨(), rfl, bind_eq_ok_iff.2 ⟨parts, hparts, rfl⟩⟩

/-- What a record that is read from an object is made of, if no member is broken. -/
theorem read_object_eq_ok_iff (hnames : r.members.names.Nodup) {members : List (String × Node)}
    (hskip : ∀ member ∈ members, member.2.skip = .ok ()) {inner : Mode} (hinner : mode.descend = .ok inner) {a : α} :
    r.read mode (.object (keyed members) .closed) = .ok a ↔
      ∃ parts, r.members.Takes inner members parts ∧ r.make parts = a := by
  constructor
  · intro h
    obtain ⟨level, named, parts, hlevel, hnamed, htakes, hmake⟩ := takes_of_read hnames h
    obtain rfl := Except.ok.inj (hinner.symm.trans hlevel)
    obtain rfl := keyed_injective hnamed
    exact ⟨parts, htakes, hmake⟩
  · rintro ⟨parts, htakes, rfl⟩
    exact read_of_takes hnames hskip hinner htakes

/-- What a record that is read from a list as long as it has fields is made of. -/
theorem read_list_eq_ok_iff {items : List Node} (hlength : items.length = r.members.size) {inner : Mode}
    (hinner : mode.descend = .ok inner) {a : α} :
    r.read mode (.list items .closed) = .ok a ↔ ∃ parts, r.members.TakesItems inner items parts ∧ r.make parts = a := by
  rw [read]
  constructor
  · intro h
    obtain ⟨level, hlevel, hitems⟩ := bind_eq_ok_iff.1 h
    obtain rfl := Except.ok.inj (hinner.symm.trans hlevel)
    obtain ⟨⟨parts, left⟩, hparts, hend⟩ := bind_eq_ok_iff.1 hitems
    obtain ⟨_, _, hmake⟩ := bind_eq_ok_iff.1 hend
    exact ⟨parts, ((Members.readItems_eq_ok_iff hlength).1 hparts).2, Except.ok.inj hmake⟩
  · rintro ⟨parts, hparts, rfl⟩
    refine bind_eq_ok_iff.2 ⟨inner, hinner, ?_⟩
    refine bind_eq_ok_iff.2 ⟨(parts, []), (Members.readItems_eq_ok_iff hlength).2 ⟨rfl, hparts⟩, ?_⟩
    exact bind_eq_ok_iff.2 ⟨(), by cases inner <;> rfl, rfl⟩

/-- Whatever a record is read from, its fields are read or are fallbacks. -/
theorem yields_of_read (hnames : r.members.names.Nodup) {node : Node} {a : α} (h : r.read mode node = .ok a) :
    ∃ inner parts, r.members.Yields inner parts ∧ r.make parts = a := by
  cases node with
  | list items ending =>
    rw [read] at h
    obtain ⟨inner, hinner, hitems⟩ := bind_eq_ok_iff.1 h
    obtain ⟨⟨parts, left⟩, hparts, hend⟩ := bind_eq_ok_iff.1 hitems
    obtain ⟨_, _, hmake⟩ := bind_eq_ok_iff.1 hend
    exact ⟨inner, parts, Members.yields_of_readItems hparts, Except.ok.inj hmake⟩
  | object members ending =>
    obtain ⟨inner, named, parts, -, -, htakes, hmake⟩ := takes_of_read hnames h
    exact ⟨inner, parts, Members.yields_of_takes htakes, hmake⟩
  | _ =>
    unfold read at h
    exact absurd h refuse_ne_ok

end Record

namespace Extended

/-- When the members of an object are read as the own fields of a record, then all keys could be read, the slots are
filled, and all members with other names are left after everything in them could be read. -/
theorem fills_of_readMembers {depth : Nat} {m : Members α} (hnames : m.names.Nodup) {members others : List (Key × Node)}
    {slots filled : m.Slots} (h : Extended.readMembers depth m slots members = .ok (filled, others)) :
    ∃ named, members = keyed named ∧ m.Fills (.direct depth) named slots filled ∧
      others = keyed (named.filter (·.1 ∉ m.names)) ∧
      ∀ member ∈ named, member.1 ∉ m.names → member.2.examine depth = .ok () := by
  induction members generalizing slots others with
  | nil =>
    obtain ⟨rfl, rfl⟩ := Prod.mk.inj (Except.ok.inj h)
    exact ⟨[], rfl, Members.fills_nil.2 rfl, rfl, fun _ h => absurd h List.not_mem_nil⟩
  | cons member members ih =>
    obtain ⟨key, node⟩ := member
    rw [Extended.readMembers] at h
    obtain ⟨name, hname, h⟩ := bind_eq_ok_iff.1 h
    rw [ofFault, mapError_eq_ok_iff] at hname
    cases hput : m.put (.direct depth) name node slots with
    | some result =>
      rw [hput] at h
      obtain ⟨next, hnext, hrest⟩ := bind_eq_ok_iff.1 h
      obtain ⟨named, rfl, hfills, rfl, hexamine⟩ := ih hrest
      have hknown : name ∈ m.names := by
        refine Decidable.byContradiction fun hnot => ?_
        rw [Members.put_eq_none_iff.2 hnot] at hput
        contradiction
      refine ⟨(name, node) :: named, exists_keyed_cons hname,
        (Members.fills_cons hnames hknown).2 ⟨next, by rw [hput, hnext], hfills⟩, by simp [hknown], ?_⟩
      intro member hmember hunknown
      obtain rfl | hmember := List.mem_cons.1 hmember
      · exact absurd hknown hunknown
      · exact hexamine member hmember hunknown
    | none =>
      rw [hput] at h
      obtain ⟨⟨⟩, hnode, hrest⟩ := bind_eq_ok_iff.1 h
      obtain ⟨⟨next, left⟩, hnext, hresult⟩ := bind_eq_ok_iff.1 hrest
      obtain ⟨rfl, rfl⟩ := Prod.mk.inj (Except.ok.inj hresult)
      obtain ⟨named, rfl, hfills, rfl, hexamine⟩ := ih hnext
      have hunknown : name ∉ m.names := Members.put_eq_none_iff.1 hput
      refine ⟨(name, node) :: named, exists_keyed_cons hname,
        (Members.fills_cons_of_not_mem hunknown node named).2 hfills, ?_, ?_⟩
      · rw [exists_keyed_cons hname]
        simp [hunknown]
      · intro member hmember hother
        obtain rfl | hmember := List.mem_cons.1 hmember
        · exact mapError_eq_ok_iff.1 hnode
        · exact hexamine member hmember hother

/-- The members of an object with keys that can be read are read as the own fields of a record when the slots can be
filled and everything that is set aside can be read. -/
theorem readMembers_of_fills {depth : Nat} {m : Members α} (hnames : m.names.Nodup) {members : List (String × Node)}
    (hexamine : ∀ member ∈ members, member.1 ∉ m.names → member.2.examine depth = .ok ()) {slots filled : m.Slots}
    (h : m.Fills (.direct depth) members slots filled) :
    Extended.readMembers depth m slots (keyed members) = .ok (filled, keyed (members.filter (·.1 ∉ m.names))) := by
  induction members generalizing slots with
  | nil => rw [Members.fills_nil.1 h]; rfl
  | cons member members ih =>
    obtain ⟨name, node⟩ := member
    have hothers : ∀ member ∈ members, member.1 ∉ m.names → member.2.examine depth = .ok () :=
      fun member hmember => hexamine member (List.mem_cons_of_mem _ hmember)
    rw [keyed, List.map_cons, Extended.readMembers]
    refine bind_eq_ok_iff.2 ⟨name, rfl, ?_⟩
    by_cases hname : name ∈ m.names
    · obtain ⟨next, hput, hfills⟩ := (Members.fills_cons hnames hname).1 h
      rw [hput]
      have hleft : ((name, node) :: members).filter (·.1 ∉ m.names) = members.filter (·.1 ∉ m.names) := by
        simp [hname]
      rw [hleft]
      exact bind_eq_ok_iff.2 ⟨next, rfl, ih hothers hfills⟩
    · rw [Members.put_eq_none_iff.2 hname]
      have hfills := (Members.fills_cons_of_not_mem hname node members).1 h
      have hnode : node.examine depth = .ok () := hexamine (name, node) List.mem_cons_self hname
      refine bind_eq_ok_iff.2 ⟨(), by rw [hnode]; rfl, bind_eq_ok_iff.2 ⟨_, ih hothers hfills, ?_⟩⟩
      simp [hname, keyed]

/-- Fields take the same when members with other names are set aside. -/
theorem takes_filter {m : Members α} {names : List String} (h : ∀ name ∈ m.names, name ∉ names)
    (members : List (String × Node)) {values : α} :
    m.Takes mode (members.filter (·.1 ∉ names)) values ↔ m.Takes mode members values :=
  Members.takes_congr fun name hname => valuesAt_filter (p := (· ∉ names)) (by simpa using h name hname) members

variable {e : Extended α}

/-- Only an object is read as a record with an inner one. -/
theorem exists_object_of_read {node : Node} {a : α} (h : e.read mode node = .ok a) :
    ∃ members ending, node = .object members ending := by
  unfold read at h
  split at h
  · exact ⟨_, _, rfl⟩
  · exact absurd h refuse_ne_ok

/-- How a record with an inner one is read from an object. -/
theorem read_object (mode : Mode) (members : List (Key × Node)) (ending : Ending) :
    e.read mode (.object members ending) = (do
      let inner ← mode.descend
      let (slots, others) ← readMembers inner.limit e.members e.members.empty members
      ofFault ending.check
      let values ← e.members.finish slots
      let innerSlots ← Record.readMembers .setAside e.inner.members e.inner.members.empty others
      .ok (e.make (e.inner.make (← e.inner.members.finish innerSlots)) values)) := by
  rw [read]
  cases mode.descend with
  | error cause => rfl
  | ok inner => cases inner <;> rfl

/-- What a record with an inner one is made of when it is read. -/
theorem takes_of_read (hnames : (e.members.names ++ e.inner.members.names).Nodup) {node : Node} {a : α}
    (h : e.read mode node = .ok a) :
    ∃ inner named parts core, node = .object (keyed named) .closed ∧ mode.descend = .ok inner ∧
      (∀ member ∈ named, member.1 ∉ e.members.names → member.2.examine inner.limit = .ok ()) ∧
      e.members.Takes (.direct inner.limit) named parts ∧ e.inner.members.Takes .setAside named core ∧
      e.make (e.inner.make core) parts = a := by
  obtain ⟨hown, hinnerNames, hdisjoint⟩ := List.nodup_append.1 hnames
  obtain ⟨members, ending, rfl⟩ := exists_object_of_read h
  rw [read_object] at h
  obtain ⟨inner, hinner, hmembers⟩ := bind_eq_ok_iff.1 h
  obtain ⟨⟨slots, others⟩, hslots, hend⟩ := bind_eq_ok_iff.1 hmembers
  obtain ⟨_, hclosed, hfinish⟩ := bind_eq_ok_iff.1 hend
  obtain ⟨parts, hparts, hothers⟩ := bind_eq_ok_iff.1 hfinish
  obtain ⟨innerSlots, hinnerSlots, hinnerFinish⟩ := bind_eq_ok_iff.1 hothers
  obtain ⟨core, hcore, hmake⟩ := bind_eq_ok_iff.1 hinnerFinish
  obtain ⟨named, rfl, hfills, rfl, hexamine⟩ := fills_of_readMembers hown hslots
  obtain ⟨left, hleft, hinnerFills⟩ := Record.fills_of_readMembers hinnerNames hinnerSlots
  obtain rfl := keyed_injective hleft
  obtain rfl := check_eq_ok_iff.1 (mapError_eq_ok_iff.1 hclosed)
  refine ⟨inner, named, parts, core, rfl, hinner, hexamine, Members.takes_iff.2 ⟨slots, hfills, hparts⟩, ?_,
    Except.ok.inj hmake⟩
  refine (takes_filter (fun name hname hknown => ?_) named).1 (Members.takes_iff.2 ⟨innerSlots, hinnerFills, hcore⟩)
  exact hdisjoint name hknown name hname rfl

/-- A record with an inner one is read from an object when everything that is set aside can be read, and the own fields
and those of the inner record take what they need from the members. -/
theorem read_of_takes (hnames : (e.members.names ++ e.inner.members.names).Nodup) {members : List (String × Node)}
    {inner : Mode} (hexamine : ∀ member ∈ members, member.1 ∉ e.members.names → member.2.examine inner.limit = .ok ())
    (hinner : mode.descend = .ok inner) {parts : e.Parts} {core : e.inner.Parts}
    (hparts : e.members.Takes (.direct inner.limit) members parts)
    (hcore : e.inner.members.Takes .setAside members core) :
    e.read mode (.object (keyed members) .closed) = .ok (e.make (e.inner.make core) parts) := by
  obtain ⟨hown, hinnerNames, hdisjoint⟩ := List.nodup_append.1 hnames
  have hleft : e.inner.members.Takes .setAside (members.filter (·.1 ∉ e.members.names)) core :=
    (takes_filter (fun name hname hknown => hdisjoint name hknown name hname rfl) members).2 hcore
  obtain ⟨slots, hfills, hfinish⟩ := Members.takes_iff.1 hparts
  obtain ⟨innerSlots, hinnerFills, hinnerFinish⟩ := Members.takes_iff.1 hleft
  have hskip : ∀ member ∈ members.filter (·.1 ∉ e.members.names), member.2.skip = .ok () := fun member hmember =>
    have ⟨hmem, hunknown⟩ := List.mem_filter.1 hmember
    skip_of_examine (hexamine member hmem (of_decide_eq_true hunknown))
  rw [read_object]
  refine bind_eq_ok_iff.2 ⟨inner, hinner, ?_⟩
  refine bind_eq_ok_iff.2 ⟨_, readMembers_of_fills hown hexamine hfills, ?_⟩
  refine bind_eq_ok_iff.2 ⟨(), rfl, bind_eq_ok_iff.2 ⟨parts, hfinish, ?_⟩⟩
  refine bind_eq_ok_iff.2 ⟨innerSlots, Record.readMembers_of_fills hinnerNames hskip hinnerFills, ?_⟩
  exact bind_eq_ok_iff.2 ⟨core, hinnerFinish, rfl⟩

/-- What a record with an inner one that is read from an object is made of. -/
theorem read_object_eq_ok_iff (hnames : (e.members.names ++ e.inner.members.names).Nodup)
    {members : List (String × Node)} {inner : Mode} (hinner : mode.descend = .ok inner) {a : α} :
    e.read mode (.object (keyed members) .closed) = .ok a ↔
      (∀ member ∈ members, member.1 ∉ e.members.names → member.2.examine inner.limit = .ok ()) ∧
        ∃ parts core, e.members.Takes (.direct inner.limit) members parts ∧
          e.inner.members.Takes .setAside members core ∧ e.make (e.inner.make core) parts = a := by
  constructor
  · intro h
    obtain ⟨level, named, parts, core, hnode, hlevel, hexamine, htakes, hcore, hmake⟩ := takes_of_read hnames h
    obtain rfl := Except.ok.inj (hinner.symm.trans hlevel)
    obtain rfl := keyed_injective (Node.object.inj hnode).1
    exact ⟨hexamine, parts, core, htakes, hcore, hmake⟩
  · rintro ⟨hexamine, parts, core, htakes, hcore, rfl⟩
    exact read_of_takes hnames hexamine hinner htakes hcore

end Extended

end FlightPlanner.Json
