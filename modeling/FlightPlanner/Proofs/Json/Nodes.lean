import FlightPlanner.Proofs.Json.Examination
import FlightPlanner.Proofs.Json.Members
import FlightPlanner.Proofs.Json.Reals
import FlightPlanner.Proofs.Json.Texts

/-!
# Written values are read back

A value is written as one text and read as one node, whatever follows the text as long as no number goes on in it. The
node of a list or an object is found in at most twice as many steps as its text has characters. If a value is not
nested too deeply and its whole numbers are of eight bytes, then everything in its node can be read.
-/

namespace FlightPlanner.Json

variable {rest : List Char} {steps : Nat}

mutual

/-- The node that a written value is read as. -/
def Value.node : Value → Node
  | .null => .null
  | .boolean value => .boolean value
  | .integer value => .number (integerLiteral value)
  | .real value => if value.isFinite then .number (realLiteral value) else .null
  | .text value => .text (.ok value)
  | .list items => .list (nodeItems items) .closed
  | .object members => .object (keyed (nodeMembers members)) .closed

/-- The nodes of some values. -/
def nodeItems : List Value → List Node
  | [] => []
  | item :: rest => item.node :: nodeItems rest

/-- The nodes of some members, with their names. -/
def nodeMembers : List (String × Value) → List (String × Node)
  | [] => []
  | (name, value) :: rest => (name, value.node) :: nodeMembers rest

end

/-- The nodes of some values, one by one. -/
theorem nodeItems_eq (items : List Value) : nodeItems items = items.map Value.node := by
  induction items with
  | nil => rfl
  | cons item items ih => rw [nodeItems, ih, List.map_cons]

/-- The nodes of some members, one by one. -/
theorem nodeMembers_eq (members : List (String × Value)) :
    nodeMembers members = members.map fun (name, value) => (name, value.node) := by
  induction members with
  | nil => rfl
  | cons member members ih => rw [nodeMembers, ih, List.map_cons]

/-- The literal of a finite double is proper. -/
theorem isProper_realLiteral {x : Float} (h : x.isFinite = true) : (realLiteral x).IsProper := by
  obtain ⟨negative, mantissa, exponent, hview⟩ := Binary64.exists_view_of_isFinite h
  simp only [realLiteral, hview]
  split
  · exact ⟨by simp, by simp, by simp, by simp, by simp⟩
  · next hne =>
    obtain ⟨hbits, hlow, hhigh⟩ := Binary64.view_bounds h hview hne
    exact isProper_dataLiteral negative (shortest_le (Nat.pos_of_ne_zero hne) hbits hlow hhigh).1

/-- What a written number starts with. -/
theorem Literal.IsProper.head {n : Literal} (h : n.IsProper) :
    ∃ c text, n.write = c :: text ∧ (c = '-' ∨ c.isDigit = true) := by
  unfold Literal.write
  cases n.negative with
  | true => exact ⟨'-', _, rfl, .inl rfl⟩
  | false =>
    obtain ⟨c, digits, hwhole⟩ := List.exists_cons_of_ne_nil h.whole_ne
    refine ⟨c, digits ++ (fractionText n.fraction ++ powerText n.power), by simp [hwhole], .inr (h.whole c ?_)⟩
    rw [hwhole]
    exact List.mem_cons_self

/-- A sign or a digit starts nothing but a number. -/
theorem ne_of_head {c : Char} (h : c = '-' ∨ c.isDigit = true) :
    isSpace c = false ∧ c ≠ '[' ∧ c ≠ '{' ∧ c ≠ ']' ∧ c ≠ 'n' ∧ c ≠ 't' ∧ c ≠ 'f' ∧ c ≠ '"' := by
  obtain rfl | h := h
  · decide
  · have hne : ∀ d : Char, d.isDigit = false → c ≠ d := by
      rintro d hd rfl
      rw [hd] at h
      contradiction
    refine ⟨?_, hne _ rfl, hne _ rfl, hne _ rfl, hne _ rfl, hne _ rfl, hne _ rfl, hne _ rfl⟩
    simp [isSpace, hne ' ' rfl, hne '\n' rfl, hne '\t' rfl, hne '\r' rfl]

/-- Nothing is dropped in front of a text that starts with no space. -/
theorem dropSpaces_cons {c : Char} (h : isSpace c = false) (text : List Char) :
    dropSpaces (c :: text) = c :: text := by
  simp [dropSpaces, h]

/-- A value that starts with neither bracket is a scalar. -/
theorem spanValue_scalar {c : Char} (hspace : isSpace c = false) (hlist : c ≠ '[') (hobject : c ≠ '{')
    (hsteps : 0 < steps) (text : List Char) : spanValue steps (c :: text) = spanScalar (c :: text) := by
  obtain ⟨steps, rfl⟩ := Nat.exists_eq_succ_of_ne_zero hsteps.ne'
  rw [spanValue, dropSpaces_cons hspace]
  split
  · next heq => exact absurd (List.cons.inj heq).1 hlist
  · next heq => exact absurd (List.cons.inj heq).1 hobject
  · rfl

/-- A number is read as its literal. -/
theorem spanValue_literal {n : Literal} (h : n.IsProper) (hrest : EndsNumber rest) (hsteps : 0 < steps) :
    spanValue steps (n.write ++ rest) = (.number n, some rest) := by
  have hspan := Literal.span_write h hrest
  obtain ⟨c, text, htext, hhead⟩ := h.head
  obtain ⟨hspace, hlist, hobject, -, hn, ht, hf, hquote⟩ := ne_of_head hhead
  rw [htext, List.cons_append] at hspan ⊢
  have hmark : (c = '-' || c.isDigit) = true := by simpa using hhead
  rw [spanValue_scalar hspace hlist hobject hsteps, spanScalar]
  · simp [hmark, spanNumber, hspan]
  all_goals simp_all

/-- A written value starts with no space and does not close a list. -/
theorem head_write (v : Value) : ∃ c text, v.write = c :: text ∧ isSpace c = false ∧ c ≠ ']' := by
  cases v with
  | null => exact ⟨_, _, rfl, rfl, by decide⟩
  | boolean value => cases value <;> exact ⟨_, _, rfl, rfl, by decide⟩
  | integer value =>
    obtain ⟨c, text, htext, hhead⟩ := (isProper_integerLiteral value).head
    obtain ⟨hspace, -, -, hclose, -⟩ := ne_of_head hhead
    rw [write_integerLiteral] at htext
    exact ⟨c, text, by rw [Value.write, htext], hspace, hclose⟩
  | real value =>
    rw [Value.write]
    split
    · next hfinite =>
      obtain ⟨c, text, htext, hhead⟩ := (isProper_realLiteral hfinite).head
      obtain ⟨hspace, -, -, hclose, -⟩ := ne_of_head hhead
      rw [write_realLiteral hfinite] at htext
      exact ⟨c, text, htext, hspace, hclose⟩
    · exact ⟨_, _, rfl, rfl, by decide⟩
  | text value => exact ⟨_, _, rfl, rfl, by decide⟩
  | list items => exact ⟨_, _, by rw [Value.write], rfl, by decide⟩
  | object members => exact ⟨_, _, by rw [Value.write], rfl, by decide⟩

/-- What follows an item or a member ends a number. -/
theorem endsNumber_mark {c : Char} (h : c = ',' ∨ c = ']' ∨ c = '}') (rest : List Char) : EndsNumber (c :: rest) := by
  rintro d ⟨rfl⟩
  obtain rfl | rfl | rfl := h <;> decide

/-- Spaces are not dropped in front of a written value. -/
theorem dropSpaces_write (v : Value) (rest : List Char) : dropSpaces (v.write ++ rest) = v.write ++ rest := by
  obtain ⟨c, text, htext, hspace, -⟩ := head_write v
  rw [htext, List.cons_append, dropSpaces_cons hspace]

/-- What holds of a value whenever it holds of what is in it, holds of all values. -/
theorem Value.induction {P : Value → Prop} (null : P .null) (boolean : ∀ value, P (.boolean value))
    (integer : ∀ value, P (.integer value)) (real : ∀ value, P (.real value)) (text : ∀ value, P (.text value))
    (list : ∀ items, (∀ item ∈ items, P item) → P (.list items))
    (object : ∀ members, (∀ member ∈ members, P member.2) → P (.object members)) (v : Value) : P v :=
  match v with
  | .null => null
  | .boolean value => boolean value
  | .integer value => integer value
  | .real value => real value
  | .text value => text value
  | .list items => list items fun item _ => item.induction null boolean integer real text list object
  | .object members => object members fun member hmember =>
    have : sizeOf member.2 < sizeOf members := by
      have := List.sizeOf_lt_of_mem hmember
      cases member
      simp at this ⊢
      omega
    member.2.induction null boolean integer real text list object
termination_by sizeOf v

/-- Whether a written value is read as its node, and what follows it is left. -/
def Value.IsSpanned (v : Value) : Prop :=
  ∀ (rest : List Char) (steps : Nat), EndsNumber rest → 2 * v.write.length ≤ steps →
    spanValue steps (v.write ++ rest) = (v.node, some rest)

/-- Items that are read as their nodes are read so up to the bracket that closes the list. -/
theorem spanItems_write (steps : Nat) {item : Value} {items : List Value} (hitem : item.IsSpanned)
    (hitems : ∀ item ∈ items, item.IsSpanned) (rest : List Char)
    (hsteps : 2 * (item.write ++ writeRest ',' (writeItems items)).length < steps) :
    spanItems steps (item.write ++ (writeRest ',' (writeItems items) ++ ']' :: rest)) =
      (nodeItems (item :: items), .closed, some rest) := by
  induction items generalizing item steps with
  | nil =>
    obtain ⟨steps, rfl⟩ := Nat.exists_eq_succ_of_ne_zero (Nat.ne_zero_of_lt hsteps)
    rw [List.length_append] at hsteps
    have hfirst := hitem (']' :: rest) steps (endsNumber_mark (.inr (.inl rfl)) rest) (by omega)
    simp [spanItems, writeItems, writeRest, hfirst, dropSpaces_cons (show isSpace ']' = false from rfl), nodeItems]
  | cons next items ih =>
    obtain ⟨steps, rfl⟩ := Nat.exists_eq_succ_of_ne_zero (Nat.ne_zero_of_lt hsteps)
    simp [writeItems, writeRest] at hsteps
    have hfirst := hitem (',' :: (next.write ++ (writeRest ',' (writeItems items) ++ ']' :: rest))) steps
      (endsNumber_mark (.inl rfl) _) (by omega)
    have hothers := ih steps (hitems next List.mem_cons_self)
      (fun item h => hitems item (List.mem_cons_of_mem _ h)) (by
        rw [List.length_append]
        omega)
    rw [writeItems, writeRest, List.cons_append, List.cons_append, List.append_assoc, spanItems, hfirst]
    simp [dropSpaces_cons (show isSpace ',' = false from rfl), hothers, consPart, nodeItems]

/-- The text of a member behind its first quote. -/
def memberTail (name : String) (value : Value) : List Char :=
  name.toList.flatMap writeChar ++ '"' :: ':' :: value.write

/-- Members whose values are read as their nodes are read so up to the bracket that closes the object. -/
theorem spanMembers_write (steps : Nat) (name : String) {value : Value} {members : List (String × Value)}
    (hvalue : value.IsSpanned) (hmembers : ∀ member ∈ members, member.2.IsSpanned) (rest : List Char)
    (hsteps : 2 * ('"' :: memberTail name value ++ writeRest ',' (writeMembers members)).length < steps) :
    spanMembers steps ('"' :: (memberTail name value ++ (writeRest ',' (writeMembers members) ++ '}' :: rest))) =
      (keyed (nodeMembers ((name, value) :: members)), .closed, some rest) := by
  induction members generalizing name value steps with
  | nil =>
    obtain ⟨steps, rfl⟩ := Nat.exists_eq_succ_of_ne_zero (Nat.ne_zero_of_lt hsteps)
    simp [memberTail] at hsteps
    have hfirst := hvalue ('}' :: rest) steps (endsNumber_mark (.inr (.inr rfl)) rest) (by omega)
    simp [spanMembers, memberTail, writeMembers, writeRest, hfirst, spanText_write, spanColon,
      dropSpaces_cons (show isSpace '"' = false from rfl), dropSpaces_cons (show isSpace ':' = false from rfl),
      dropSpaces_cons (show isSpace '}' = false from rfl), nodeMembers, keyed]
  | cons next members ih =>
    obtain ⟨nextName, nextValue⟩ := next
    obtain ⟨steps, rfl⟩ := Nat.exists_eq_succ_of_ne_zero (Nat.ne_zero_of_lt hsteps)
    simp [memberTail, writeMembers, writeRest, writeText] at hsteps
    have hfirst := hvalue
      (',' :: '"' :: (memberTail nextName nextValue ++ (writeRest ',' (writeMembers members) ++ '}' :: rest))) steps
      (endsNumber_mark (.inl rfl) _) (by omega)
    have hothers := ih steps nextName (hmembers _ List.mem_cons_self)
      (fun member h => hmembers member (List.mem_cons_of_mem _ h)) (by
        simp [memberTail]
        omega)
    have htext : memberTail name value ++ (writeRest ',' (writeMembers ((nextName, nextValue) :: members)) ++
        '}' :: rest) = name.toList.flatMap writeChar ++ '"' :: ':' :: (value.write ++ ',' :: '"' ::
          (memberTail nextName nextValue ++ (writeRest ',' (writeMembers members) ++ '}' :: rest))) := by
      simp [memberTail, writeMembers, writeRest, writeText]
    rw [htext, spanMembers, dropSpaces_cons rfl]
    simp [spanText_write, spanColon, dropSpaces_cons (show isSpace ':' = false from rfl), hfirst,
      dropSpaces_cons (show isSpace ',' = false from rfl), hothers, consPart, nodeMembers, keyed]

/-- A written value has at least one character, so that there is a step for it. -/
theorem steps_pos {v : Value} (hsteps : 2 * v.write.length ≤ steps) : 0 < steps := by
  obtain ⟨c, text, htext, -⟩ := head_write v
  rw [htext, List.length_cons] at hsteps
  omega

/-- A list is read as its node when its items are read as theirs. -/
theorem isSpanned_list {items : List Value} (h : ∀ item ∈ items, item.IsSpanned) : (Value.list items).IsSpanned := by
  intro rest steps _ hsteps
  obtain ⟨steps, rfl⟩ := Nat.exists_eq_succ_of_ne_zero (steps_pos hsteps).ne'
  cases items with
  | nil => rfl
  | cons item items =>
    have htext : (Value.list (item :: items)).write ++ rest =
        '[' :: (item.write ++ (writeRest ',' (writeItems items) ++ ']' :: rest)) := by
      simp [Value.write, writeItems, writeSeparated]
    simp [Value.write, writeItems, writeSeparated] at hsteps
    have hitems := spanItems_write steps (h item List.mem_cons_self)
      (fun item hitem => h item (List.mem_cons_of_mem _ hitem)) rest (by
        rw [List.length_append]
        omega)
    rw [htext, spanValue, dropSpaces_cons rfl]
    simp only [dropSpaces_write]
    -- the first item neither ends the text nor closes the list
    obtain ⟨c, text, hhead, -, hclose⟩ := head_write item
    rw [hhead, List.cons_append] at hitems ⊢
    split
    · contradiction
    · next heq => exact absurd (List.cons.inj heq).1 hclose
    · rw [hitems]
      rfl

/-- An object is read as its node when the values of its members are read as theirs. -/
theorem isSpanned_object {members : List (String × Value)} (h : ∀ member ∈ members, member.2.IsSpanned) :
    (Value.object members).IsSpanned := by
  intro rest steps _ hsteps
  obtain ⟨steps, rfl⟩ := Nat.exists_eq_succ_of_ne_zero (steps_pos hsteps).ne'
  cases members with
  | nil => rfl
  | cons member members =>
    obtain ⟨name, value⟩ := member
    have htext : (Value.object ((name, value) :: members)).write ++ rest =
        '{' :: '"' :: (memberTail name value ++ (writeRest ',' (writeMembers members) ++ '}' :: rest)) := by
      simp [Value.write, writeMembers, writeSeparated, writeText, memberTail]
    simp [Value.write, writeMembers, writeSeparated, writeText] at hsteps
    have hvalue : value.IsSpanned := h (name, value) List.mem_cons_self
    have hmembers := spanMembers_write steps name hvalue
      (fun member hmember => h member (List.mem_cons_of_mem _ hmember)) rest (by
        simp [memberTail]
        omega)
    rw [htext, spanValue, dropSpaces_cons rfl]
    simp only [dropSpaces_cons (show isSpace '"' = false from rfl)]
    split
    · contradiction
    · next heq => exact absurd (List.cons.inj heq).1 (by decide)
    · rw [hmembers]
      rfl

/-- A written value is read as its node, and what follows it is left. -/
theorem spanValue_write (v : Value) : v.IsSpanned := by
  induction v using Value.induction with
  | null =>
    intro rest steps _ hsteps
    rw [Value.write, List.cons_append, spanValue_scalar rfl (by decide) (by decide) (steps_pos hsteps)]
    rfl
  | boolean value =>
    intro rest steps _ hsteps
    cases value <;>
      rw [Value.write, List.cons_append, spanValue_scalar rfl (by decide) (by decide) (steps_pos hsteps)] <;> rfl
  | integer value =>
    intro rest steps hrest hsteps
    rw [Value.write, ← write_integerLiteral,
      spanValue_literal (isProper_integerLiteral value) hrest (steps_pos hsteps), Value.node]
  | real value =>
    intro rest steps hrest hsteps
    rw [Value.write, Value.node]
    split
    · next hfinite =>
      rw [← write_realLiteral hfinite, spanValue_literal (isProper_realLiteral hfinite) hrest (steps_pos hsteps)]
    · rw [List.cons_append, spanValue_scalar rfl (by decide) (by decide) (steps_pos hsteps)]
      rfl
  | text value =>
    intro rest steps _ hsteps
    have htext : (Value.text value).write ++ rest = '"' :: (value.toList.flatMap writeChar ++ '"' :: rest) := by
      simp [Value.write, writeText]
    rw [htext, spanValue_scalar rfl (by decide) (by decide) (steps_pos hsteps), spanScalar, spanText_write,
      String.ofList_toList]
    rfl
  | list items ih => exact isSpanned_list ih
  | object members ih => exact isSpanned_object ih

/-- The text of a value is read as its node, to its end. -/
theorem Node.ofText_write (v : Value) : Node.ofText v.write = (v.node, some []) := by
  have h := spanValue_write v [] (2 * v.write.length + 2) (by rintro c ⟨⟩) (by omega)
  rwa [List.append_nil] at h

/-- Whether a value is nested at most so many levels deep and its whole numbers are of eight bytes. -/
inductive Value.Fits : Nat → Value → Prop where
  /-- Null. -/
  | null {depth : Nat} : Value.Fits depth .null
  /-- A truth value. -/
  | boolean {depth : Nat} (value : Bool) : Value.Fits depth (.boolean value)
  /-- A whole number of eight bytes. -/
  | integer {depth : Nat} {value : Int} (low : -0x8000000000000000 ≤ value) (high : value ≤ 0xFFFFFFFFFFFFFFFF) :
      Value.Fits depth (.integer value)
  /-- A double. -/
  | real {depth : Nat} (value : Float) : Value.Fits depth (.real value)
  /-- A text. -/
  | text {depth : Nat} (value : String) : Value.Fits depth (.text value)
  /-- A list with what fits one level further down. -/
  | list {depth : Nat} {items : List Value} (inside : ∀ item ∈ items, item.Fits depth) :
      Value.Fits (depth + 1) (.list items)
  /-- An object with what fits one level further down. -/
  | object {depth : Nat} {members : List (String × Value)} (inside : ∀ member ∈ members, member.2.Fits depth) :
      Value.Fits (depth + 1) (.object members)

/-- What fits with so many levels fits with more. -/
theorem Value.Fits.mono {v : Value} {depth more : Nat} (h : v.Fits depth) (hle : depth ≤ more) : v.Fits more := by
  induction h generalizing more with
  | null => exact .null
  | boolean value => exact .boolean value
  | integer low high => exact .integer low high
  | real value => exact .real value
  | text value => exact .text value
  | list inside ih =>
    obtain ⟨more, rfl⟩ := Nat.exists_eq_add_of_lt hle
    exact .list fun item hitem => ih item hitem (by omega)
  | object inside ih =>
    obtain ⟨more, rfl⟩ := Nat.exists_eq_add_of_lt hle
    exact .object fun member hmember => ih member hmember (by omega)

/-- Everything in the node of a value that fits can be read. -/
theorem Value.Fits.examine_node {v : Value} {depth : Nat} (h : v.Fits depth) : v.node.examine depth = .ok () := by
  induction h with
  | null => rfl
  | boolean value => rfl
  | integer low high => simp [Value.node, Node.examine, value_integerLiteral low high, Except.map]
  | real value =>
    rw [Value.node]
    split
    · next hfinite =>
      obtain ⟨y, hy⟩ := value_realLiteral hfinite
      simp [Node.examine, hy, Except.map]
    · rfl
  | text value => rfl
  | @list depth items inside ih =>
    have hexamine : examineItems depth (nodeItems items) = .ok () := by
      refine examineItems_eq fun node hnode => ?_
      rw [nodeItems_eq] at hnode
      obtain ⟨item, hitem, rfl⟩ := List.mem_map.1 hnode
      exact ih item hitem
    simp [Value.node, Node.examine, descend, hexamine, Ending.check, bind, Except.bind]
  | @object depth members inside ih =>
    have hexamine : examineMembers depth (keyed (nodeMembers members)) = .ok () := by
      refine examineMembers_eq fun member hmember => ?_
      obtain ⟨named, hnamed, rfl⟩ := List.mem_map.1 hmember
      rw [nodeMembers_eq] at hnamed
      obtain ⟨written, hwritten, rfl⟩ := List.mem_map.1 hnamed
      exact ⟨⟨written.1, rfl⟩, ih written hwritten⟩
    simp [Value.node, Node.examine, descend, hexamine, Ending.check, bind, Except.bind]

end FlightPlanner.Json
