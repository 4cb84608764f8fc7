import FlightPlanner.Proofs.Config.Trees
import FlightPlanner.Proofs.Toml.Marks

/-!
# What the lines of a document assign

The values in a document are a source of assignments. Where the document is written in lines, each assignment is
that of one line, or of a part of its value, at the line's keys in small letters; and a line with a single value
assigns this value there. So a line alone decides about its keys, if no other line of the document is about them.
-/

namespace FlightPlanner

namespace Config

open Toml (Mark Said IsBareText entryMarks entryValues settleEntries? marksOf)

/-- Some keys in small letters. -/
def folded (keys : List String) : List String := keys.map foldKey

/-- A key without quotes has only characters that may stand in a key of a path, in small letters too. -/
theorem isKeyChar_foldChar {c : Char} (h : Toml.isBare c = true) : isKeyChar (foldChar c) = true := by
  have hkelvin : c ≠ '\u212A' := by
    rintro rfl
    exact absurd h (by decide)
  rw [foldChar, if_neg hkelvin]
  obtain heq | ⟨hlow, hhigh⟩ := toLower_eq_or c
  · rw [heq]
    simp only [Toml.isBare, Bool.or_eq_true, decide_eq_true_eq] at h
    simp only [isKeyChar, Bool.or_eq_true, decide_eq_true_eq]
    obtain (hletter | hdash) | hscore := h
    · exact .inl (.inl (.inl hletter))
    · exact .inr hdash
    · exact .inl (.inr hscore)
  · have hlower : c.toLower.isLower = true :=
      Bool.and_eq_true_iff.2 ⟨decide_eq_true (UInt32.le_iff_toNat_le.2 hlow),
        decide_eq_true (UInt32.le_iff_toNat_le.2 hhigh)⟩
    have hletter : c.toLower.isAlphanum = true :=
      Bool.or_eq_true_iff.2 (.inl (Bool.or_eq_true_iff.2 (.inr hlower)))
    simp [isKeyChar, hletter]

/-- A key without quotes spells itself. -/
theorem pathOf_of_isBareText {key : String} (h : IsBareText key) : pathOf key = [.child (foldKey key)] := by
  have hchars : ∀ c ∈ (foldKey key).toList, isKeyChar c = true := by
    intro c hc
    rw [foldKey, String.toList_ofList] at hc
    obtain ⟨d, hd, rfl⟩ := List.mem_map.1 hc
    exact isKeyChar_foldChar (h.isBare d hd)
  have hne : (foldKey key).toList ≠ [] := by
    rw [foldKey, String.toList_ofList]
    simpa using h.ne_nil
  rw [pathOf, readPath?_of_all hchars hne]
  rfl

/-- The key of moments needs quotes. -/
theorem ne_momentKey_of_isBareText {key : String} (h : IsBareText key) : key ≠ Toml.momentKey := by
  rintro rfl
  exact absurd (h.isBare '$' (by decide)) (by decide)

/-- What an assignment has to do with a mark: it is at the keys of the mark or behind them. It sets a single value as
such, and a table only if there is nothing in it. -/
def Covers (origin : Origin) (mark : Mark) (assignment : Assignment) : Prop :=
  Value.way (folded mark.keys) <+: assignment.path ∧ match mark.said with
    | .value value => value.isSingle = true → assignment = ⟨Value.way (folded mark.keys), ofToml origin value⟩
    | .table => assignment.path = Value.way (folded mark.keys) ∧ assignment.value.isBlank = true
    | .list => True

/-- Behind a key the assignment has to do with the mark what it has before. -/
theorem Covers.below {origin : Origin} {mark : Mark} {assignment : Assignment} (h : Covers origin mark assignment)
    (key : String) : Covers origin (mark.behind [key]) (assignment.below (foldKey key)) := by
  obtain ⟨keys, said⟩ := mark
  obtain ⟨hpath, hsaid⟩ := h
  refine ⟨(List.prefix_append_right_inj [Step.child (foldKey key)]).2 hpath, ?_⟩
  cases said with
  | value value =>
    intro hsingle
    rw [hsaid hsingle]
    rfl
  | table => exact ⟨congrArg (Step.child (foldKey key) :: ·) hsaid.1, hsaid.2⟩
  | list => trivial

/-- A value without parts stands for itself. -/
theorem settle?_of_isSingle {value : Toml.Value} (h : value.isSingle = true) : value.settle? = some value := by
  cases value <;> first | rfl | contradiction

/-- The keys of a table need no quotes where those of its marks need none. -/
theorem isBareText_of_mem {entries : List (String × Toml.Item)}
    (hbare : ∀ mark ∈ entryMarks entries, ∀ key ∈ mark.keys, IsBareText key) {key : String} {item : Toml.Item}
    (h : (key, item) ∈ entries) : IsBareText key := by
  obtain ⟨mark, hmark⟩ : ∃ mark, mark ∈ item.marks := by
    cases item <;> exact ⟨_, .head _⟩
  exact hbare (mark.behind [key]) (Toml.mem_entryMarks.2 ⟨key, item, h, mark, hmark, rfl⟩) key (.head _)

/-- A table whose keys need no quotes stands for no moment. -/
theorem settle?_table {entries : List (String × Toml.Item)}
    (hbare : ∀ mark ∈ entryMarks entries, ∀ key ∈ mark.keys, IsBareText key) :
    (Toml.Value.table (entryValues entries)).settle? = (settleEntries? (entryValues entries)).map .table := by
  cases entries with
  | nil => rfl
  | cons first rest =>
    obtain ⟨key, item⟩ := first
    have hkey : key ≠ Toml.momentKey := ne_momentKey_of_isBareText (isBareText_of_mem hbare (.head _))
    rw [entryValues, Toml.Value.settle?, if_neg hkey, settleEntries?]
    cases item.toValue.settle? with
    | none => rfl
    | some value => cases settleEntries? (entryValues rest) <;> rfl

mutual

/-- Each assignment of what a key stands for has to do with one of its marks. -/
theorem exists_mark_of_item {origin : Origin} {item : Toml.Item} {value : Toml.Value} {assignment : Assignment}
    (hbare : ∀ mark ∈ item.marks, ∀ key ∈ mark.keys, IsBareText key) (hvalue : item.toValue.settle? = some value)
    (h : assignment ∈ (ofToml origin value).assignments) : ∃ mark ∈ item.marks, Covers origin mark assignment := by
  match item with
  | .value own =>
    refine ⟨⟨[], .value own⟩, .head _, List.nil_prefix, fun hsingle => ?_⟩
    obtain rfl := Option.some.inj ((settle?_of_isSingle hsingle).symm.trans hvalue)
    rw [assignments_of_isSingle hsingle] at h
    exact List.mem_singleton.1 h
  | .tables elements => exact ⟨⟨[], .list⟩, .head _, List.nil_prefix, trivial⟩
  | .table standing entries =>
    have hentries : ∀ mark ∈ entryMarks entries, ∀ key ∈ mark.keys, IsBareText key :=
      fun mark hmark => hbare mark (.tail _ hmark)
    rw [Toml.Item.toValue, settle?_table hentries] at hvalue
    obtain ⟨settled, hsettled, rfl⟩ := Option.map_eq_some_iff.1 hvalue
    rw [ofToml, Value.assignments] at h
    split at h
    · obtain rfl := List.mem_singleton.1 h
      exact ⟨⟨[], .table⟩, .head _, List.nil_prefix, rfl, rfl⟩
    · obtain ⟨mark, hmark, hcovers⟩ := exists_mark_of_entries hentries hsettled h
      exact ⟨mark, .tail _ hmark, hcovers⟩

/-- Each assignment of the entries of a table has to do with one of their marks. -/
theorem exists_mark_of_entries {origin : Origin} {entries : List (String × Toml.Item)}
    {settled : List (String × Toml.Value)} {assignment : Assignment}
    (hbare : ∀ mark ∈ entryMarks entries, ∀ key ∈ mark.keys, IsBareText key)
    (hsettled : settleEntries? (entryValues entries) = some settled)
    (h : assignment ∈ Value.entryAssignments (ofTomlEntries origin settled)) :
    ∃ mark ∈ entryMarks entries, Covers origin mark assignment := by
  match entries with
  | [] =>
    obtain rfl := Option.some.inj hsettled
    contradiction
  | (key, item) :: rest =>
    obtain ⟨value, hvalue, hsettled⟩ := Option.bind_eq_some_iff.1 hsettled
    obtain ⟨others, hothers, hsettled⟩ := Option.bind_eq_some_iff.1 hsettled
    obtain rfl := Option.some.inj hsettled
    obtain h | h := List.mem_append.1 h
    · obtain ⟨inner, hinner, rfl⟩ := List.mem_map.1 h
      have hitem : ∀ mark ∈ item.marks, ∀ name ∈ mark.keys, IsBareText name := fun mark hmark name hname =>
        hbare (mark.behind [key]) (List.mem_append_left _ (List.mem_map_of_mem hmark)) name (.tail _ hname)
      obtain ⟨mark, hmark, hcovers⟩ := exists_mark_of_item hitem hvalue hinner
      exact ⟨mark.behind [key], List.mem_append_left _ (List.mem_map_of_mem hmark), hcovers.below key⟩
    · obtain ⟨mark, hmark, hcovers⟩ :=
        exists_mark_of_entries (fun mark hmark => hbare mark (List.mem_append_right _ hmark)) hothers h
      exact ⟨mark, List.mem_append_right _ hmark, hcovers⟩

end

/-- What a key stands for is there in the settled table. -/
theorem exists_settled_of_mem {entries : List (String × Toml.Item)} {settled : List (String × Toml.Value)}
    (hsettled : settleEntries? (entryValues entries) = some settled) {key : String} {item : Toml.Item}
    (h : (key, item) ∈ entries) : ∃ value, item.toValue.settle? = some value ∧ (key, value) ∈ settled := by
  induction entries generalizing settled with
  | nil => contradiction
  | cons first rest ih =>
    obtain ⟨name, other⟩ := first
    obtain ⟨value, hvalue, hsettled⟩ := Option.bind_eq_some_iff.1 hsettled
    obtain ⟨others, hothers, hsettled⟩ := Option.bind_eq_some_iff.1 hsettled
    obtain rfl := Option.some.inj hsettled
    obtain heq | h := List.mem_cons.1 h
    · obtain ⟨rfl, rfl⟩ := Prod.mk.inj heq
      exact ⟨value, hvalue, .head _⟩
    · obtain ⟨value, hvalue, hmem⟩ := ih hothers h
      exact ⟨value, hvalue, .tail _ hmem⟩

/-- The keys of the settled table are those of the table. -/
theorem exists_mem_of_settled {entries : List (String × Toml.Item)} {settled : List (String × Toml.Value)}
    (hsettled : settleEntries? (entryValues entries) = some settled) {key : String} {value : Toml.Value}
    (h : (key, value) ∈ settled) : ∃ item, (key, item) ∈ entries := by
  induction entries generalizing settled with
  | nil =>
    obtain rfl := Option.some.inj hsettled
    contradiction
  | cons first rest ih =>
    obtain ⟨name, other⟩ := first
    obtain ⟨found, -, hsettled⟩ := Option.bind_eq_some_iff.1 hsettled
    obtain ⟨others, hothers, hsettled⟩ := Option.bind_eq_some_iff.1 hsettled
    obtain rfl := Option.some.inj hsettled
    obtain heq | h := List.mem_cons.1 h
    · rw [(Prod.mk.inj heq).1]
      exact ⟨other, .head _⟩
    · obtain ⟨item, hmem⟩ := ih hothers h
      exact ⟨item, .tail _ hmem⟩

/-- A single value that some keys lead to is assigned there. -/
theorem mem_entryAssignments_of_value? {origin : Origin} {entries : Toml.Entries}
    {settled : List (String × Toml.Value)} {own : Toml.Value} {keys : List String}
    (hbare : ∀ mark ∈ entryMarks entries, ∀ key ∈ mark.keys, IsBareText key)
    (hsettled : settleEntries? (entryValues entries) = some settled) (hsingle : own.isSingle = true)
    (h : entries.value? keys = some own) :
    ⟨Value.way (folded keys), ofToml origin own⟩ ∈ Value.entryAssignments (ofTomlEntries origin settled) := by
  induction keys generalizing entries settled with
  | nil => contradiction
  | cons key keys ih =>
    obtain ⟨item, hget, hitem⟩ := Option.bind_eq_some_iff.1 h
    obtain ⟨value, hvalue, hmem⟩ := exists_settled_of_mem hsettled (Keyed.mem_of_lookup hget)
    refine mem_entryAssignments_iff.2 ⟨key, value, hmem, ⟨Value.way (folded keys), ofToml origin own⟩, ?_, rfl⟩
    cases item with
    | value other =>
      cases keys with
      | nil =>
        obtain rfl := Option.some.inj hitem
        obtain rfl := Option.some.inj ((settle?_of_isSingle hsingle).symm.trans hvalue)
        rw [assignments_of_isSingle hsingle]
        exact .head _
      | cons => contradiction
    | table standing inner =>
      have hinner : ∀ mark ∈ entryMarks inner, ∀ name ∈ mark.keys, IsBareText name := fun mark hmark name hname =>
        hbare (mark.behind [key]) (Toml.mem_entryMarks_of_get? hget (.tail _ hmark)) name (.tail _ hname)
      rw [Toml.Item.toValue, settle?_table hinner] at hvalue
      obtain ⟨below, hbelow, rfl⟩ := Option.map_eq_some_iff.1 hvalue
      rw [Toml.Entries.value?_table] at hitem
      exact mem_assignments_table_iff.2 (.inl (ih hinner hbelow hitem))
    | tables elements =>
      rw [Toml.Entries.value?_tables] at hitem
      contradiction

/-- The keys of a document are plain where they need no quotes. -/
theorem hasPlainKeys_of_settled {entries : List (String × Toml.Item)} {settled : List (String × Toml.Value)}
    (hsettled : settleEntries? (entryValues entries) = some settled)
    (hbare : ∀ mark ∈ entryMarks entries, ∀ key ∈ mark.keys, IsBareText key) : HasPlainKeys settled := by
  intro key value hmem
  obtain ⟨item, hitem⟩ := exists_mem_of_settled hsettled hmem
  exact pathOf_of_isBareText (isBareText_of_mem hbare hitem)

/-- Whether a mark leaves some keys alone, in letters of either case: it is neither on the way to them nor behind
them, or it is that of a table on the way. -/
def IsAside (keys : List String) (mark : Mark) : Prop :=
  ¬folded mark.keys <+: keys ∧ ¬keys <+: folded mark.keys ∨ mark.said = .table ∧ folded mark.keys <+: keys

instance (keys : List String) (mark : Mark) : Decidable (IsAside keys mark) :=
  inferInstanceAs (Decidable (_ ∧ _ ∨ _ ∧ _))

/-- Whether some lines give a value to some keys, in letters of either case, and no other line is about them. -/
def LinesGive (lines : List Toml.Line) (keys : List String) (value : Toml.Value) : Prop :=
  ∃ own ∈ marksOf [] lines, own.said = .value value ∧ folded own.keys = keys ∧
    ∀ other ∈ marksOf [] lines, other = own ∨ IsAside keys other

/-- Whether no line sets some keys or the keys of a section around them, in letters of either case. -/
def LinesOmit (lines : List Toml.Line) (keys : List String) : Prop :=
  ∀ mark ∈ marksOf [] lines, mark.said = .table ∨ ¬folded mark.keys <+: keys

instance (lines : List Toml.Line) (keys : List String) : Decidable (LinesOmit lines keys) :=
  inferInstanceAs (Decidable (∀ mark ∈ marksOf [] lines, _ ∨ _))

/-- A line gives its value if all marks in front of its own and behind it leave its keys alone. -/
theorem linesGive_of_marksOf {lines : List Toml.Line} {keys : List String} {value : Toml.Value} (own : List String)
    (before after : List Mark) (h : marksOf [] lines = before ++ ⟨own, .value value⟩ :: after)
    (hkeys : folded own = keys) (hothers : ∀ other ∈ before ++ after, IsAside keys other) :
    LinesGive lines keys value := by
  refine ⟨⟨own, .value value⟩, by simp [h], rfl, hkeys, fun other hother => ?_⟩
  obtain hown | hother := List.mem_cons.1 (List.perm_middle.mem_iff.1 (h ▸ hother))
  · exact .inl hown
  · exact .inr (hothers other hother)

/-- Of two paths that do not part, one goes on where the other one ends. -/
theorem prefix_or_of_not_apart {path : List Step} {first second : List String} (hfirst : Value.way first <+: path)
    (h : ¬Apart path second) : first <+: second ∨ second <+: first := by
  induction first generalizing path second with
  | nil => exact .inl List.nil_prefix
  | cons key first ih =>
    obtain ⟨rest, rfl⟩ := hfirst
    cases second with
    | nil => exact .inr List.nil_prefix
    | cons name second =>
      have hsame : key = name := by
        by_contra hne
        exact h (.head hne)
      subst hsame
      have hbelow := ih (List.prefix_append _ rest) fun hapart => h (.tail hapart)
      exact hbelow.imp (List.prefix_append_right_inj [key]).2 (List.prefix_append_right_inj [key]).2

/-- The way of the first of some keys is in front of that of all of them. -/
theorem prefix_way {first second : List String} (h : first <+: second) : Value.way first <+: Value.way second := by
  obtain ⟨rest, rfl⟩ := h
  exact ⟨Value.way rest, (List.map_append ..).symm⟩

/-- Keys in front of others are so in small letters. -/
theorem prefix_folded {first second : List String} (h : first <+: second) : folded first <+: folded second := by
  obtain ⟨rest, rfl⟩ := h
  exact ⟨folded rest, (List.map_append ..).symm⟩

/-- Keys whose way is in front of that of others are in front of them. -/
theorem prefix_of_way {first second : List String} (h : Value.way first <+: Value.way second) : first <+: second := by
  obtain ⟨before, behind, rfl, hbefore, -⟩ := List.map_eq_append_iff.1 (h.choose_spec).symm
  rw [Value.way_injective hbefore.symm]
  exact List.prefix_append _ _

section Document

variable {path : String} {lines : List Toml.Line} {entries : Entries} {keys : List String} {value : Toml.Value}

/-- The values in a document that is written in lines are those of the tables that its lines build. -/
theorem exists_draft_of_readDocument (h : readDocument path (String.ofList (Toml.documentText lines)) = .ok entries) :
    ∃ draft settled, Toml.Draft.blank.writeAll? lines = some draft ∧
      settleEntries? (entryValues draft.entries) = some settled ∧ entries = ofTomlEntries (.file path) settled ∧
        ∀ mark ∈ entryMarks draft.entries, ∀ key ∈ mark.keys, IsBareText key := by
  rw [readDocument, String.toList_ofList] at h
  split at h
  · next settled hsettled =>
    obtain ⟨draft, hdraft, hentries⟩ := Toml.settleEntries?_of_ofText? hsettled
    refine ⟨draft, settled, hdraft, hentries, (Except.ok.inj h).symm, fun mark hmark key hkey => ?_⟩
    have hlines := @Toml.isBareText_of_mem_marksOf lines [] nofun
    obtain hnone | ⟨cause, hcause, rfl | ⟨-, hfront⟩⟩ := Toml.Draft.marks_of_writeAll? hdraft mark hmark
    · exact absurd hnone (by simp [Toml.Draft.blank, entryMarks])
    · exact hlines _ hcause key hkey
    · exact hlines cause hcause key (hfront.subset hkey)
  · contradiction

/-- Each assignment of a document has to do with the mark of one of its lines, or of a table on the way to one. -/
theorem exists_mark_of_readDocument (h : readDocument path (String.ofList (Toml.documentText lines)) = .ok entries)
    {assignment : Assignment} (hassignment : assignment ∈ assignmentsOf entries) :
    ∃ mark, Covers (.file path) mark assignment ∧ ∃ cause ∈ marksOf [] lines, cause.Explains mark := by
  obtain ⟨draft, settled, hdraft, hsettled, rfl, hbare⟩ := exists_draft_of_readDocument h
  rw [assignmentsOf_ofTomlEntries (hasPlainKeys_of_settled hsettled hbare)] at hassignment
  obtain ⟨mark, hmark, hcovers⟩ := exists_mark_of_entries hbare hsettled hassignment
  obtain hnone | hcause := Toml.Draft.marks_of_writeAll? hdraft mark hmark
  · exact absurd hnone (by simp [Toml.Draft.blank, entryMarks])
  · exact ⟨mark, hcovers, hcause⟩

/-- A single value that a line gives is assigned at its keys. -/
theorem mem_assignmentsOf_of_linesGive (h : readDocument path (String.ofList (Toml.documentText lines)) = .ok entries)
    (hgives : LinesGive lines keys value) (hsingle : value.isSingle = true) :
    ⟨Value.way keys, ofToml (.file path) value⟩ ∈ assignmentsOf entries := by
  obtain ⟨draft, settled, hdraft, hsettled, rfl, hbare⟩ := exists_draft_of_readDocument h
  obtain ⟨⟨own, said⟩, hown, rfl, rfl, hothers⟩ := hgives
  have havoids : Toml.Draft.blank.entries.AvoidsLists own := by
    simp [Toml.Entries.AvoidsLists, Toml.Draft.blank, entryMarks]
  have hlists : ∀ front, front <+: own → (⟨front, .list⟩ : Mark) ∉ marksOf [] lines := by
    intro front hfront hlist
    obtain heq | ⟨hnot, -⟩ | ⟨hsaid, -⟩ := hothers _ hlist
    · exact Said.noConfusion (Mark.mk.inj heq).2
    · exact hnot (prefix_folded hfront)
    · exact Said.noConfusion hsaid
  have hfound := Toml.Draft.value?_of_writeAll? hdraft hown havoids hlists
  rw [assignmentsOf_ofTomlEntries (hasPlainKeys_of_settled hsettled hbare)]
  exact mem_entryAssignments_of_value? hbare hsettled hsingle hfound

/-- No other assignment of the document changes what stands under these keys. -/
theorem eq_of_linesGive_of_touches (h : readDocument path (String.ofList (Toml.documentText lines)) = .ok entries)
    (hgives : LinesGive lines keys value) (hsingle : value.isSingle = true) {assignment : Assignment}
    (hassignment : assignment ∈ assignmentsOf entries) (htouches : assignment.Touches keys) :
    assignment = ⟨Value.way keys, ofToml (.file path) value⟩ := by
  obtain ⟨own, hown, hsaid, hkeys, hothers⟩ := hgives
  obtain ⟨mark, ⟨hpath, hcovers⟩, cause, hcause, hexplains⟩ := exists_mark_of_readDocument h hassignment
  obtain ⟨hapart, hpasses⟩ := htouches
  have hcomparable := prefix_or_of_not_apart hpath hapart
  -- a table without entries touches the keys only from behind them
  have htable : mark.said = .table → ¬folded mark.keys <+: keys := by
    intro hmark hfront
    rw [hmark] at hcovers
    exact hpasses ⟨hcovers.2, hcovers.1 ▸ prefix_way hfront⟩
  obtain rfl | ⟨hmark, hfront⟩ := hexplains
  · obtain rfl | ⟨hnot, hnotBehind⟩ | ⟨hmark, hfront⟩ := hothers mark hcause
    · rw [hsaid, hkeys] at hcovers
      exact hcovers hsingle
    · exact absurd hcomparable (not_or.2 ⟨hnot, hnotBehind⟩)
    · exact absurd hfront (htable hmark)
  · have hbehind : keys <+: folded mark.keys := hcomparable.resolve_left (htable hmark)
    have hcauseBehind : keys <+: folded cause.keys := hbehind.trans (prefix_folded hfront)
    obtain rfl | ⟨-, hnotBehind⟩ | ⟨-, hcausePrefix⟩ := hothers cause hcause
    · exact absurd (hkeys ▸ prefix_folded hfront) (htable hmark)
    · exact absurd hcauseBehind hnotBehind
    · exact absurd ((prefix_folded hfront).trans hcausePrefix) (htable hmark)

/-- Lines that are silent on some keys assign them nothing but tables without entries. -/
theorem isBlank_of_linesOmit (h : readDocument path (String.ofList (Toml.documentText lines)) = .ok entries)
    (homits : LinesOmit lines keys) {assignment : Assignment} (hassignment : assignment ∈ assignmentsOf entries)
    (hkeys : assignment.path = Value.way keys) : assignment.value.isBlank = true := by
  obtain ⟨mark, ⟨hpath, hcovers⟩, cause, hcause, hexplains⟩ := exists_mark_of_readDocument h hassignment
  obtain hmark : mark.said = .table := by
    obtain rfl | ⟨hmark, -⟩ := hexplains
    · exact (homits mark hcause).resolve_right (not_not.2 (prefix_of_way (hkeys ▸ hpath)))
    · exact hmark
  rw [hmark] at hcovers
  exact hcovers.2

/-- A document assigns only what keys lead to. -/
theorem exists_way_of_readDocument (h : readDocument path (String.ofList (Toml.documentText lines)) = .ok entries)
    {assignment : Assignment} (hassignment : assignment ∈ assignmentsOf entries) :
    ∃ keys, assignment.path = Value.way keys := by
  obtain ⟨draft, settled, -, hsettled, rfl, hbare⟩ := exists_draft_of_readDocument h
  rw [assignmentsOf_ofTomlEntries (hasPlainKeys_of_settled hsettled hbare)] at hassignment
  exact exists_way_of_mem_entryAssignments hassignment

/-- What a line gives is all that the document sets at its keys. -/
theorem LinesGive.sets (hgives : LinesGive lines keys value) (hsingle : value.isSingle = true)
    (h : readDocument path (String.ofList (Toml.documentText lines)) = .ok entries) :
    Sets entries keys (ofToml (.file path) value) :=
  ⟨mem_assignmentsOf_of_linesGive h hgives hsingle, fun _ hassignment htouches =>
    eq_of_linesGive_of_touches h hgives hsingle hassignment htouches⟩

end Document

/-- Whether the text of a document gives a single value to some keys, in letters of either case: one of its lines does,
or the keys lead to the value in the tables that are read from the text. -/
inductive TextGives (text : String) (keys : List String) (value : Toml.Value) : Prop where
  /-- A line gives the value. -/
  | lines {lines : List Toml.Line} (written : text = String.ofList (Toml.documentText lines))
      (single : value.isSingle = true) (gives : LinesGive lines keys value)
  /-- The keys lead to the value. -/
  | tree {tree : List (String × Toml.Value)} (read : Toml.Document.ofText? text.toList = some tree)
      (plain : HasPlainKeys tree) (leads : Leads (.table tree) keys value)

/-- Whether the text of a document sets no value at some keys or at those of a section around them, in letters of
either case, by its lines or in the tables that are read from it. -/
inductive TextOmits (text : String) (keys : List String) : Prop where
  /-- No line sets one. -/
  | lines {lines : List Toml.Line} (written : text = String.ofList (Toml.documentText lines))
      (omits : LinesOmit lines keys)
  /-- The keys lead to tables only. -/
  | tree {tree : List (String × Toml.Value)} (read : Toml.Document.ofText? text.toList = some tree)
      (plain : HasPlainKeys tree) (omits : Omits (.table tree) keys)

section Text

variable {path text : String} {entries : Entries} {keys : List String} {value : Toml.Value}

/-- The values in a document are those of the tables that are read from its text. -/
theorem entries_of_readDocument (h : readDocument path text = .ok entries) {tree : List (String × Toml.Value)}
    (hread : Toml.Document.ofText? text.toList = some tree) : entries = ofTomlEntries (.file path) tree := by
  rw [readDocument, hread] at h
  exact (Except.ok.inj h).symm

/-- A text gives single values. -/
theorem TextGives.isSingle (hgives : TextGives text keys value) : value.isSingle = true := by
  cases hgives with
  | lines written single gives => exact single
  | tree read plain leads => exact leads.isSingle

/-- What a text gives to some keys is all that the document sets there. -/
theorem TextGives.sets (hgives : TextGives text keys value) (h : readDocument path text = .ok entries) :
    Sets entries keys (ofToml (.file path) value) := by
  cases hgives with
  | lines written single gives =>
    subst written
    exact gives.sets single h
  | tree read plain leads =>
    rw [entries_of_readDocument h read]
    exact leads.sets plain _

/-- Where a text omits some keys, the document assigns them nothing but tables without entries. -/
theorem TextOmits.isBlank (homits : TextOmits text keys) (h : readDocument path text = .ok entries)
    {assignment : Assignment} (hassignment : assignment ∈ assignmentsOf entries)
    (hkeys : assignment.path = Value.way keys) : assignment.value.isBlank = true := by
  cases homits with
  | lines written omits =>
    subst written
    exact isBlank_of_linesOmit h omits hassignment hkeys
  | tree read plain omits =>
    rw [entries_of_readDocument h read] at hassignment
    exact omits.isBlank (mem_assignments_of_mem_assignmentsOf plain hassignment) hkeys

/-- A document assigns only what keys lead to, where its text omits some keys. -/
theorem TextOmits.exists_way (homits : TextOmits text keys) (h : readDocument path text = .ok entries)
    {assignment : Assignment} (hassignment : assignment ∈ assignmentsOf entries) :
    ∃ names, assignment.path = Value.way names := by
  cases homits with
  | lines written omits =>
    subst written
    exact exists_way_of_readDocument h hassignment
  | tree read plain omits =>
    rw [entries_of_readDocument h read] at hassignment
    exact exists_way_of_mem_assignments (mem_assignments_of_mem_assignmentsOf plain hassignment)

end Text

end Config

end FlightPlanner
