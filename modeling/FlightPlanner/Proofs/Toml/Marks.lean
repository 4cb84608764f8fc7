import FlightPlanner.Proofs.Toml.LineReading

/-!
# What the lines of a document leave behind

Each line that says something leaves a mark: a table, a list of tables or a value, at the keys that it names behind
those of the table that it stands in. Every mark in the tables that a document builds is that of one of its lines,
but for tables on the way to one. A value that a line sets stays where it is, as no key is set twice, and can be
reached unless a list of tables is in the way.
-/

namespace FlightPlanner.Toml

/-- What is said of a key. -/
inductive Said where
  /-- It has a value. -/
  | value (value : Value)
  /-- It leads to a table. -/
  | table
  /-- It leads to a list of tables. -/
  | list

instance (said : Said) : Decidable (said = .table) :=
  match said with
  | .table => isTrue rfl
  | .value _ => isFalse nofun
  | .list => isFalse nofun

/-- What is said of the last of some keys. -/
structure Mark where
  /-- The keys, each inside what the one before it leads to. -/
  keys : List String
  /-- What is said. -/
  said : Said

/-- A mark inside what further keys lead to. -/
def Mark.behind (path : List String) (mark : Mark) : Mark := { mark with keys := path ++ mark.keys }

/-- Whether a mark is there because of another: it is the same, or that of a table on the way. -/
def Mark.Explains (cause mark : Mark) : Prop := mark = cause ∨ mark.said = .table ∧ mark.keys <+: cause.keys

/-- Marks inside what further keys lead to explain the same as they do outside. -/
theorem Mark.Explains.behind {cause mark : Mark} (h : cause.Explains mark) (path : List String) :
    (cause.behind path).Explains (mark.behind path) := by
  obtain rfl | ⟨hsaid, hkeys⟩ := h
  · exact .inl rfl
  · exact .inr ⟨hsaid, List.prefix_append_right_inj path |>.2 hkeys⟩

mutual

/-- The marks in what a key stands for. Those inside a list of tables do not count. -/
def Item.marks : Item → List Mark
  | .value value => [⟨[], .value value⟩]
  | .table _ entries => ⟨[], .table⟩ :: entryMarks entries
  | .tables _ => [⟨[], .list⟩]

/-- The marks in the entries of a table. -/
def entryMarks : List (String × Item) → List Mark
  | [] => []
  | (key, item) :: rest => item.marks.map (.behind [key]) ++ entryMarks rest

end

/-- The marks in the entries of a table are those in what its keys stand for. -/
theorem mem_entryMarks {entries : List (String × Item)} {mark : Mark} :
    mark ∈ entryMarks entries ↔
      ∃ key item, (key, item) ∈ entries ∧ ∃ inner ∈ item.marks, inner.behind [key] = mark := by
  induction entries with
  | nil => simp [entryMarks]
  | cons entry rest ih =>
    obtain ⟨key, item⟩ := entry
    rw [entryMarks, List.mem_append, List.mem_map, ih]
    constructor
    · rintro (h | ⟨name, other, hmem, h⟩)
      · exact ⟨key, item, .head _, h⟩
      · exact ⟨name, other, .tail _ hmem, h⟩
    · rintro ⟨name, other, hmem, h⟩
      obtain heq | hmem := List.mem_cons.1 hmem
      · obtain ⟨rfl, rfl⟩ := Prod.mk.inj heq
        exact .inl h
      · exact .inr ⟨name, other, hmem, h⟩

/-- The marks after a key was set are those in what it stands for now, and those that were there before. -/
theorem mem_entryMarks_set {key : String} {item : Item} {entries : Entries} {mark : Mark}
    (h : mark ∈ entryMarks (Keyed.set key item entries)) :
    (∃ inner ∈ item.marks, inner.behind [key] = mark) ∨ mark ∈ entryMarks entries := by
  obtain ⟨name, other, hmem, hinner⟩ := mem_entryMarks.1 h
  obtain heq | hmem := Keyed.mem_set hmem
  · obtain ⟨rfl, rfl⟩ := Prod.mk.inj heq
    exact .inl hinner
  · exact .inr (mem_entryMarks.2 ⟨name, other, hmem, hinner⟩)

/-- The marks in what a key stands for are there behind it. -/
theorem mem_entryMarks_of_get? {entries : Entries} {key : String} {item : Item} (h : entries.get? key = some item)
    {inner : Mark} (hinner : inner ∈ item.marks) : inner.behind [key] ∈ entryMarks entries :=
  mem_entryMarks.2 ⟨key, item, Keyed.mem_of_lookup h, inner, hinner, rfl⟩

namespace Entries

variable {through standing : Standing} {change : Standing → Entries → Option Entries} {path : List String}
  {entries changed : Entries}

/-- A change goes through a key into a table: the one that the key leads to, or a new one if it leads nowhere. -/
inductive Enters (through : Standing) (entries : Entries) (key : String) : Standing → Entries → Prop where
  /-- The key leads nowhere. -/
  | fresh (absent : entries.get? key = none) : Enters through entries key through []
  /-- The key leads to a table. -/
  | present {standing : Standing} {inner : Entries} (found : entries.get? key = some (.table standing inner)) :
      Enters through entries key standing inner

/-- The marks of the table that is entered are there behind its key. -/
theorem Enters.behind_mem {key : String} {inner : Entries} (h : Enters through entries key standing inner) {mark : Mark}
    (hmark : mark ∈ entryMarks inner) : mark.behind [key] ∈ entryMarks entries := by
  cases h with
  | fresh absent => exact absurd hmark (by simp [entryMarks])
  | present found => exact mem_entryMarks_of_get? found (.tail _ hmark)

/-- A change behind a key happens in the table that is entered there, or in a list of tables. -/
theorem cases_of_alter? {key : String} (h : alter? through change (key :: path) standing entries = some changed) :
    (∃ below old inner, Enters through entries key below old ∧ alter? through change path below old = some inner ∧
      changed = Keyed.set key (.table below inner) entries) ∨
    ∃ old elements, entries.get? key = some (.tables old) ∧
      changed = Keyed.set key (.tables elements) entries := by
  rw [alter?] at h
  split at h
  · next hget =>
    obtain ⟨inner, hinner, h⟩ := Option.bind_eq_some_iff.1 h
    exact .inl ⟨through, [], inner, .fresh hget, hinner, (Option.some.inj h).symm⟩
  · contradiction
  · next below old hget =>
    split at h
    · contradiction
    · obtain ⟨inner, hinner, h⟩ := Option.bind_eq_some_iff.1 h
      exact .inl ⟨below, old, inner, .present hget, hinner, (Option.some.inj h).symm⟩
  · next elements hget =>
    obtain ⟨last, -, h⟩ := Option.bind_eq_some_iff.1 h
    obtain ⟨inner, -, h⟩ := Option.bind_eq_some_iff.1 h
    exact .inr ⟨elements, _, hget, (Option.some.inj h).symm⟩

/-- A change inside the table that a path leads to leaves the marks that it leaves there, with those of the tables on
the way. -/
theorem marks_of_alter? (cause : Mark)
    (hchange : ∀ standing inner changed, change standing inner = some changed →
      ∀ mark ∈ entryMarks changed, mark ∈ entryMarks inner ∨ cause.Explains mark)
    (h : alter? through change path standing entries = some changed) :
    ∀ mark ∈ entryMarks changed, mark ∈ entryMarks entries ∨ (cause.behind path).Explains mark := by
  induction path generalizing standing entries changed with
  | nil => exact hchange standing entries changed h
  | cons key path ih =>
    intro mark hmark
    have hbehind : (cause.behind path).behind [key] = cause.behind (key :: path) := rfl
    obtain ⟨below, old, inner, henters, hinner, rfl⟩ | ⟨old, elements, hget, rfl⟩ := cases_of_alter? h
    · obtain ⟨within, hwithin, rfl⟩ | hold := mem_entryMarks_set hmark
      · obtain rfl | hwithin := List.mem_cons.1 hwithin
        · exact .inr (.inr ⟨rfl, List.prefix_append [key] _⟩)
        · obtain hold | hexplains := ih hinner within hwithin
          · exact .inl (henters.behind_mem hold)
          · exact .inr (hbehind ▸ hexplains.behind [key])
      · exact .inl hold
    · obtain ⟨within, hwithin, rfl⟩ | hold := mem_entryMarks_set hmark
      · exact .inl (mem_entryMarks_of_get? hget hwithin)
      · exact .inl hold

/-- A key that is added leaves the mark of its value. -/
theorem marks_of_add? {key : String} {value : Value} (h : entries.add? key value = some changed) :
    ∀ mark ∈ entryMarks changed, mark ∈ entryMarks entries ∨ Mark.Explains ⟨[key], .value value⟩ mark := by
  intro mark hmark
  rw [add?] at h
  split at h
  · contradiction
  · obtain rfl := Option.some.inj h
    obtain ⟨within, hwithin, rfl⟩ | hold := mem_entryMarks_set hmark
    · obtain rfl := List.mem_singleton.1 hwithin
      exact .inr (.inl rfl)
    · exact .inl hold

/-- A key with points leaves the mark of its value. -/
theorem marks_of_assign? {key : String} {value : Value} (h : entries.assign? path key value = some changed) :
    ∀ mark ∈ entryMarks changed, mark ∈ entryMarks entries ∨ Mark.Explains ⟨path ++ [key], .value value⟩ mark := by
  refine marks_of_alter? ⟨[key], .value value⟩ (fun standing inner changed h => ?_) h
  split at h
  · exact marks_of_add? h
  · contradiction

/-- A header leaves the mark of its table. -/
theorem marks_of_openTable? {key : String} (h : entries.openTable? path key = some changed) :
    ∀ mark ∈ entryMarks changed, mark ∈ entryMarks entries ∨ Mark.Explains ⟨path ++ [key], .table⟩ mark := by
  refine marks_of_alter? ⟨[key], .table⟩ (fun standing inner changed h mark hmark => ?_) h
  split at h
  · obtain rfl := Option.some.inj h
    obtain ⟨within, hwithin, rfl⟩ | hold := mem_entryMarks_set hmark
    · obtain rfl := List.mem_singleton.1 hwithin
      exact .inr (.inl rfl)
    · exact .inl hold
  · next old hget =>
    obtain rfl := Option.some.inj h
    obtain ⟨name, item, hmem, within, hwithin, rfl⟩ := mem_entryMarks.1 hmark
    obtain hmem | hmem := List.mem_append.1 hmem
    · exact .inl (mem_entryMarks.2 ⟨name, item, (List.mem_filter.1 hmem).1, within, hwithin, rfl⟩)
    · obtain ⟨rfl, rfl⟩ := Prod.mk.inj (List.mem_singleton.1 hmem)
      exact .inl (mem_entryMarks_of_get? hget hwithin)
  · contradiction

/-- A header of a list of tables leaves the mark of the list. -/
theorem marks_of_openElement? {key : String} (h : entries.openElement? path key = some changed) :
    ∀ mark ∈ entryMarks changed, mark ∈ entryMarks entries ∨ Mark.Explains ⟨path ++ [key], .list⟩ mark := by
  have hset : ∀ {elements} {inner : Entries}, ∀ mark ∈ entryMarks (Keyed.set key (.tables elements) inner),
      mark ∈ entryMarks inner ∨ Mark.Explains ⟨[key], .list⟩ mark := by
    intro elements inner mark hmark
    obtain ⟨within, hwithin, rfl⟩ | hold := mem_entryMarks_set hmark
    · obtain rfl := List.mem_singleton.1 hwithin
      exact .inr (.inl rfl)
    · exact .inl hold
  refine marks_of_alter? ⟨[key], .list⟩ (fun standing inner changed h => ?_) h
  split at h
  · obtain rfl := Option.some.inj h
    exact hset
  · obtain rfl := Option.some.inj h
    exact hset
  · contradiction

end Entries

/-- The value that some keys lead to from what a key stands for, through tables. -/
def Item.value? : Item → List String → Option Value
  | .value own, [] => some own
  | .table _ entries, key :: keys => (Entries.get? entries key).bind (·.value? keys)
  | _, _ => none

/-- The value that some keys lead to, through tables. -/
def Entries.value? (entries : Entries) (keys : List String) : Option Value := (Item.table .written entries).value? keys

namespace Entries

variable {through standing : Standing} {change : Standing → Entries → Option Entries} {path keys : List String}
  {entries changed : Entries} {value : Value}

/-- A key leads on to what the others lead to from what it stands for. -/
theorem value?_cons (entries : Entries) (key : String) (keys : List String) :
    entries.value? (key :: keys) = (entries.get? key).bind (·.value? keys) := rfl

/-- It does not matter how a table came into being. -/
theorem value?_table (standing : Standing) (entries : Entries) (keys : List String) :
    (Item.table standing entries).value? keys = entries.value? keys := by
  cases keys <;> rfl

/-- Nothing is reached in a list of tables. -/
theorem value?_tables (elements : List (List (String × Item))) (keys : List String) :
    (Item.tables elements).value? keys = none := by
  cases keys <;> rfl

/-- A key that was set leads to what it stands for now, and the others to what they led to before. -/
theorem value?_set (key name : String) (item : Item) (entries : Entries) (keys : List String) :
    value? (Keyed.set key item entries) (name :: keys) =
      if name = key then item.value? keys else entries.value? (name :: keys) := by
  rw [value?_cons, value?_cons, get?, get?, Keyed.lookup_set]
  split <;> rfl

/-- Whether all keys that lead to a value in a table lead to the same in another. -/
def Keeps (before after : Entries) : Prop :=
  ∀ keys value, before.value? keys = some value → after.value? keys = some value

/-- Setting a key keeps the values if it keeps those behind the key. -/
theorem keeps_set {key : String} {item : Item}
    (h : ∀ keys value, (entries.get? key).bind (·.value? keys) = some value → item.value? keys = some value) :
    entries.Keeps (Keyed.set key item entries) := by
  intro keys value hvalue
  cases keys with
  | nil => contradiction
  | cons name keys =>
    rw [value?_set]
    split
    · next heq =>
      subst heq
      exact h keys value hvalue
    · exact hvalue

/-- What the key of the table that is entered leads to, the table leads to. -/
theorem Enters.value?_eq {key : String} {inner : Entries} (h : Enters through entries key standing inner)
    (hvalue : (entries.get? key).bind (·.value? keys) = some value) : inner.value? keys = some value := by
  cases h with
  | fresh absent =>
    rw [absent] at hvalue
    contradiction
  | present found =>
    rw [found, Option.bind_some, value?_table] at hvalue
    exact hvalue

/-- A change inside the table that a path leads to keeps the values if it keeps those of this table. -/
theorem keeps_of_alter? (hchange : ∀ standing inner changed, change standing inner = some changed → inner.Keeps changed)
    (h : alter? through change path standing entries = some changed) : entries.Keeps changed := by
  induction path generalizing standing entries changed with
  | nil => exact hchange standing entries changed h
  | cons key path ih =>
    obtain ⟨below, old, inner, henters, hinner, rfl⟩ | ⟨old, elements, hget, rfl⟩ := cases_of_alter? h
    · refine keeps_set fun keys value hvalue => ?_
      rw [value?_table]
      exact ih hinner keys value (henters.value?_eq hvalue)
    · refine keeps_set fun keys value hvalue => ?_
      rw [hget, Option.bind_some, value?_tables] at hvalue
      contradiction

/-- Adding a key keeps the values. -/
theorem keeps_of_add? {key : String} (h : entries.add? key value = some changed) : entries.Keeps changed := by
  rw [add?] at h
  split at h
  · contradiction
  · next hget =>
    obtain rfl := Option.some.inj h
    refine keeps_set fun keys value hvalue => ?_
    rw [hget] at hvalue
    contradiction

/-- Setting a key with points keeps the values. -/
theorem keeps_of_assign? {key : String} (h : entries.assign? path key value = some changed) :
    entries.Keeps changed := by
  refine keeps_of_alter? (fun standing inner changed h => ?_) h
  split at h
  · exact keeps_of_add? h
  · contradiction

/-- Opening a table keeps the values. -/
theorem keeps_of_openTable? {key : String} (h : entries.openTable? path key = some changed) :
    entries.Keeps changed := by
  refine keeps_of_alter? (fun standing inner changed h => ?_) h
  split at h
  · next hget =>
    obtain rfl := Option.some.inj h
    refine keeps_set fun keys value hvalue => ?_
    rw [hget] at hvalue
    contradiction
  · next old hget =>
    obtain rfl := Option.some.inj h
    intro keys value hvalue
    -- the table goes behind the other keys, and its key leads to it there
    cases keys with
    | nil => contradiction
    | cons name keys =>
      rw [value?_cons, get?] at hvalue ⊢
      rw [List.lookup_append, Keyed.lookup_erase, Keyed.lookup_cons, List.lookup_nil]
      by_cases heq : name = key
      · subst heq
        rw [← get?, hget, Option.bind_some, value?_table] at hvalue
        rw [if_pos rfl, if_pos rfl, Option.none_or, Option.bind_some, value?_table]
        exact hvalue
      · rw [if_neg heq, if_neg heq, Option.or_none]
        exact hvalue
  · contradiction

/-- Opening a further table of a list keeps the values. -/
theorem keeps_of_openElement? {key : String} (h : entries.openElement? path key = some changed) :
    entries.Keeps changed := by
  refine keeps_of_alter? (fun standing inner changed h => ?_) h
  split at h
  · next hget =>
    obtain rfl := Option.some.inj h
    refine keeps_set fun keys value hvalue => ?_
    rw [hget] at hvalue
    contradiction
  · next elements hget =>
    obtain rfl := Option.some.inj h
    refine keeps_set fun keys value hvalue => ?_
    rw [hget, Option.bind_some, value?_tables] at hvalue
    contradiction
  · contradiction

/-- Whether a path leads through no list of tables. -/
def AvoidsLists (entries : Entries) (path : List String) : Prop :=
  ∀ front, front <+: path → ⟨front, .list⟩ ∉ entryMarks entries

/-- A change inside the table that a path leads to is found behind the path, unless a list of tables is in the way. -/
theorem exists_of_alter? (havoids : entries.AvoidsLists path)
    (h : alter? through change path standing entries = some changed) :
    ∃ standing inner after, change standing inner = some after ∧
      (∀ mark ∈ entryMarks inner, mark.behind path ∈ entryMarks entries) ∧
      ∀ keys, keys ≠ [] → changed.value? (path ++ keys) = after.value? keys := by
  induction path generalizing standing entries changed with
  | nil => exact ⟨standing, entries, changed, h, fun _ hmark => hmark, fun _ _ => rfl⟩
  | cons key path ih =>
    obtain ⟨below, old, inner, henters, hinner, rfl⟩ | ⟨old, elements, hget, rfl⟩ := cases_of_alter? h
    · have hbelow : AvoidsLists old path := fun front hfront hmark =>
        havoids (key :: front) (List.prefix_append_right_inj [key] |>.2 hfront) (henters.behind_mem hmark)
      obtain ⟨standing, last, after, hafter, hmarks, hvalues⟩ := ih hbelow hinner
      refine ⟨standing, last, after, hafter, fun mark hmark => henters.behind_mem (hmarks mark hmark), ?_⟩
      intro keys hkeys
      rw [List.cons_append, value?_set, if_pos rfl, value?_table]
      exact hvalues keys hkeys
    · exact absurd (mem_entryMarks_of_get? hget (.head _)) (havoids [key] (List.prefix_append [key] path))

/-- A key with points leads to its value once it is set, unless a list of tables is in the way. -/
theorem value?_of_assign? {key : String} (havoids : entries.AvoidsLists path)
    (h : entries.assign? path key value = some changed) : changed.value? (path ++ [key]) = some value := by
  obtain ⟨standing, inner, after, hafter, -, hvalues⟩ := exists_of_alter? havoids h
  rw [hvalues [key] (List.cons_ne_nil _ _)]
  split at hafter
  · rw [add?] at hafter
    split at hafter
    · contradiction
    · obtain rfl := Option.some.inj hafter
      rw [value?_set, if_pos rfl]
      rfl
  · contradiction

end Entries

/-- The keys of the table that the next keys are set in, behind a line. -/
def Content.table (current : List String) : Content → List String
  | .header key => key.parts
  | .element key => key.parts
  | _ => current

/-- The mark of a line that says something, in the table that `current` leads to. -/
def Content.mark? (current : List String) : Content → Option Mark
  | .nothing => none
  | .header key => some ⟨key.parts, .table⟩
  | .element key => some ⟨key.parts, .list⟩
  | .entry key _ _ _ value _ => some ⟨current ++ key.parts, .value value⟩

/-- The marks of some lines, the first of which stands in the table that `current` leads to. -/
def marksOf (current : List String) : List Line → List Mark
  | [] => []
  | line :: rest => (line.content.mark? current).toList ++ marksOf (line.content.table current) rest

/-- The parts of a key need no quotes. -/
theorem BareKey.isBareText_of_mem_parts (key : BareKey) : ∀ part ∈ key.parts, IsBareText part := by
  intro part hpart
  obtain hpart | hpart := List.mem_append.1 hpart
  · obtain ⟨bare, -, rfl⟩ := List.mem_map.1 hpart
    exact bare.bare
  · rw [List.mem_singleton.1 hpart]
    exact key.last.bare

/-- The keys that lead to the table of the next lines need no quotes. -/
theorem Content.isBareText_of_mem_table (content : Content) {current : List String}
    (hcurrent : ∀ key ∈ current, IsBareText key) : ∀ key ∈ content.table current, IsBareText key := by
  cases content with
  | header own => exact own.isBareText_of_mem_parts
  | element own => exact own.isBareText_of_mem_parts
  | _ => exact hcurrent

/-- The keys of the mark of a line need no quotes. -/
theorem Content.isBareText_of_mem_mark? {content : Content} {current : List String}
    (hcurrent : ∀ key ∈ current, IsBareText key) {mark : Mark} (h : mark ∈ content.mark? current) :
    ∀ key ∈ mark.keys, IsBareText key := by
  cases content with
  | nothing => contradiction
  | header own =>
    obtain rfl := Option.some.inj h
    exact own.isBareText_of_mem_parts
  | element own =>
    obtain rfl := Option.some.inj h
    exact own.isBareText_of_mem_parts
  | entry own before behind text value denotes =>
    obtain rfl := Option.some.inj h
    intro key hkey
    obtain hkey | hkey := List.mem_append.1 hkey
    · exact hcurrent key hkey
    · exact own.isBareText_of_mem_parts key hkey

/-- The keys of the marks of lines need no quotes. -/
theorem isBareText_of_mem_marksOf {lines : List Line} {current : List String}
    (hcurrent : ∀ key ∈ current, IsBareText key) :
    ∀ mark ∈ marksOf current lines, ∀ key ∈ mark.keys, IsBareText key := by
  induction lines generalizing current with
  | nil => exact nofun
  | cons line rest ih =>
    intro mark hmark
    obtain hmark | hmark := List.mem_append.1 hmark
    · exact Content.isBareText_of_mem_mark? hcurrent (Option.mem_toList.1 hmark)
    · exact ih (line.content.isBareText_of_mem_table hcurrent) mark hmark

namespace Draft

variable {draft changed : Draft}

/-- The next keys are set in the table of the last header. -/
theorem current_of_write? {content : Content} (h : draft.write? content = some changed) :
    changed.current = content.table draft.current := by
  cases content with
  | nothing =>
    obtain rfl := Option.some.inj h
    rfl
  | header key =>
    obtain ⟨entries, -, h⟩ := Option.bind_eq_some_iff.1 h
    obtain rfl := Option.some.inj h
    rfl
  | element key =>
    obtain ⟨entries, -, h⟩ := Option.bind_eq_some_iff.1 h
    obtain rfl := Option.some.inj h
    rfl
  | entry key before behind text value denotes =>
    obtain ⟨entries, -, h⟩ := Option.bind_eq_some_iff.1 h
    obtain rfl := Option.some.inj h
    rfl

/-- A line leaves its mark, with those of the tables on the way. -/
theorem marks_of_write? {content : Content} (h : draft.write? content = some changed) :
    ∀ mark ∈ entryMarks changed.entries, mark ∈ entryMarks draft.entries ∨
      ∃ cause ∈ content.mark? draft.current, cause.Explains mark := by
  intro mark hmark
  cases content with
  | nothing =>
    obtain rfl := Option.some.inj h
    exact .inl hmark
  | header key =>
    obtain ⟨entries, hentries, h⟩ := Option.bind_eq_some_iff.1 h
    obtain rfl := Option.some.inj h
    exact (Entries.marks_of_openTable? hentries mark hmark).imp_right fun hcause => ⟨_, rfl, hcause⟩
  | element key =>
    obtain ⟨entries, hentries, h⟩ := Option.bind_eq_some_iff.1 h
    obtain rfl := Option.some.inj h
    exact (Entries.marks_of_openElement? hentries mark hmark).imp_right fun hcause => ⟨_, rfl, hcause⟩
  | entry key before behind text value denotes =>
    obtain ⟨entries, hentries, h⟩ := Option.bind_eq_some_iff.1 h
    obtain rfl := Option.some.inj h
    have hmarks := Entries.marks_of_alter? ⟨key.parts, .value value⟩
      (fun standing inner changed h => Entries.marks_of_assign? h) hentries mark hmark
    exact hmarks.imp_right fun hcause => ⟨_, rfl, hcause⟩

/-- A line keeps the values that are there. -/
theorem keeps_of_write? {content : Content} (h : draft.write? content = some changed) :
    draft.entries.Keeps changed.entries := by
  cases content with
  | nothing =>
    obtain rfl := Option.some.inj h
    exact fun _ _ hvalue => hvalue
  | header key =>
    obtain ⟨entries, hentries, h⟩ := Option.bind_eq_some_iff.1 h
    obtain rfl := Option.some.inj h
    exact Entries.keeps_of_openTable? hentries
  | element key =>
    obtain ⟨entries, hentries, h⟩ := Option.bind_eq_some_iff.1 h
    obtain rfl := Option.some.inj h
    exact Entries.keeps_of_openElement? hentries
  | entry key before behind text value denotes =>
    obtain ⟨entries, hentries, h⟩ := Option.bind_eq_some_iff.1 h
    obtain rfl := Option.some.inj h
    exact Entries.keeps_of_alter? (fun standing inner changed h => Entries.keeps_of_assign? h) hentries

/-- A key leads to its value behind the line that sets it, unless a list of tables is in the way. -/
theorem value?_of_write? {content : Content} (h : draft.write? content = some changed) {keys : List String}
    {value : Value} (hmark : ⟨keys, .value value⟩ ∈ content.mark? draft.current)
    (havoids : draft.entries.AvoidsLists keys) : changed.entries.value? keys = some value := by
  cases content with
  | entry key before behind text own denotes =>
    obtain ⟨rfl, hsaid⟩ := Mark.mk.inj (Option.some.inj hmark)
    obtain rfl := Said.value.inj hsaid
    obtain ⟨entries, hentries, h⟩ := Option.bind_eq_some_iff.1 h
    obtain rfl := Option.some.inj h
    have houter : draft.entries.AvoidsLists draft.current :=
      fun front hfront => havoids front (hfront.trans (List.prefix_append _ _))
    obtain ⟨standing, inner, after, hafter, hmarks, hvalues⟩ := Entries.exists_of_alter? houter hentries
    have hinner : inner.AvoidsLists key.path := by
      intro front hfront hlist
      have hparts : front <+: key.parts := hfront.trans (List.prefix_append _ _)
      exact havoids _ ((List.prefix_append_right_inj draft.current).2 hparts) (hmarks _ hlist)
    rw [hvalues key.parts (by simp [BareKey.parts])]
    exact Entries.value?_of_assign? hinner hafter
  | _ => simp [Content.mark?] at hmark

/-- Some lines leave their marks, with those of the tables on the way. -/
theorem marks_of_writeAll? {lines : List Line} (h : draft.writeAll? lines = some changed) :
    ∀ mark ∈ entryMarks changed.entries, mark ∈ entryMarks draft.entries ∨
      ∃ cause ∈ marksOf draft.current lines, cause.Explains mark := by
  induction lines generalizing draft with
  | nil =>
    obtain rfl := Option.some.inj h
    exact fun mark hmark => .inl hmark
  | cons line rest ih =>
    obtain ⟨next, hnext, h⟩ := Option.bind_eq_some_iff.1 h
    intro mark hmark
    rw [marksOf, ← current_of_write? hnext]
    obtain hmark | ⟨cause, hcause, hexplains⟩ := ih h mark hmark
    · obtain hold | ⟨cause, hcause, hexplains⟩ := marks_of_write? hnext mark hmark
      · exact .inl hold
      · exact .inr ⟨cause, List.mem_append_left _ (Option.mem_toList.2 hcause), hexplains⟩
    · exact .inr ⟨cause, List.mem_append_right _ hcause, hexplains⟩

/-- Some lines keep the values that are there. -/
theorem keeps_of_writeAll? {lines : List Line} (h : draft.writeAll? lines = some changed) :
    draft.entries.Keeps changed.entries := by
  induction lines generalizing draft with
  | nil =>
    obtain rfl := Option.some.inj h
    exact fun _ _ hvalue => hvalue
  | cons line rest ih =>
    obtain ⟨next, hnext, h⟩ := Option.bind_eq_some_iff.1 h
    exact fun keys value hvalue => ih h keys value (keeps_of_write? hnext keys value hvalue)

/-- A key that a line sets leads to its value behind all lines, unless a line makes a list of tables on the way. -/
theorem value?_of_writeAll? {lines : List Line} (h : draft.writeAll? lines = some changed) {keys : List String}
    {value : Value} (hmark : ⟨keys, .value value⟩ ∈ marksOf draft.current lines)
    (havoids : draft.entries.AvoidsLists keys)
    (hlines : ∀ front, front <+: keys → ⟨front, .list⟩ ∉ marksOf draft.current lines) :
    changed.entries.value? keys = some value := by
  induction lines generalizing draft with
  | nil => contradiction
  | cons line rest ih =>
    obtain ⟨next, hnext, h⟩ := Option.bind_eq_some_iff.1 h
    rw [marksOf] at hmark hlines
    rw [← current_of_write? hnext] at hmark hlines
    obtain hmark | hmark := List.mem_append.1 hmark
    · exact keeps_of_writeAll? h keys value (value?_of_write? hnext (Option.mem_toList.1 hmark) havoids)
    · refine ih h hmark (fun front hfront hlist => ?_)
        fun front hfront hlist => hlines front hfront (List.mem_append_right _ hlist)
      obtain hold | ⟨cause, hcause, hexplains⟩ := marks_of_write? hnext _ hlist
      · exact havoids front hfront hold
      · obtain rfl | ⟨hsaid, -⟩ := hexplains
        · exact hlines front hfront (List.mem_append_left _ (Option.mem_toList.2 hcause))
        · contradiction

end Draft

end FlightPlanner.Toml
