import FlightPlanner.Proofs.Toml.Lines

/-!
# Reading documents that are written in lines

Each piece of a line is spanned as it is written: blanks, keys, what the line says, its end. From this a line does
what it says, and by induction on the lines the whole document does what its lines do one after the other.
-/

namespace FlightPlanner.Toml

/-- The blanks in front of a text are dropped. -/
theorem dropBlanks_append (blanks : Blanks) (text : List Char) : dropBlanks (blanks.text ++ text) = dropBlanks text :=
  List.dropWhile_append_of_pos blanks.isBlank

/-- Nothing is dropped in front of something else than a blank. -/
theorem dropBlanks_cons {c : Char} (h : isBlank c = false) (rest : List Char) : dropBlanks (c :: rest) = c :: rest :=
  List.dropWhile_cons_of_neg (by simp [h])

/-- A character that may stand in a key is no blank. -/
theorem isBlank_of_isBare {c : Char} (h : isBare c = true) : isBlank c = false := by
  have hspace : c ≠ ' ' := by
    rintro rfl
    exact absurd h (by decide)
  have htab : c ≠ '\t' := by
    rintro rfl
    exact absurd h (by decide)
  simp [isBlank, hspace, htab]

/-- A blank may not stand in a key. -/
theorem isBare_of_isBlank {c : Char} (h : isBlank c = true) : isBare c = false := by
  by_contra hbare
  rw [isBlank_of_isBare (by simpa using hbare)] at h
  contradiction

section Keys

/-- Whether a character ends a key: it stands neither in a key nor around its parts. -/
def isKeyEnd (c : Char) : Bool := !isBare c && c ≠ '.' && !isBlank c

/-- The text of a part starts with a character that may stand in a key. -/
theorem BarePart.exists_text_eq (part : BarePart) :
    ∃ c rest, part.text.toList = c :: rest ∧ Toml.isBare c = true := by
  obtain ⟨c, rest, htext⟩ := List.exists_cons_of_ne_nil part.bare.ne_nil
  exact ⟨c, rest, htext, part.bare.isBare c (htext ▸ .head _)⟩

/-- There are no blanks in front of a part. -/
theorem BarePart.dropBlanks_append (part : BarePart) (behind : List Char) :
    dropBlanks (part.text.toList ++ behind) = part.text.toList ++ behind := by
  obtain ⟨c, rest, htext, hbare⟩ := part.exists_text_eq
  rw [htext, List.cons_append, dropBlanks_cons (isBlank_of_isBare hbare)]

/-- Neither blanks nor a mark behind them start with what may stand in a key. -/
theorem Blanks.isBare_of_mem_head? (blanks : Blanks) {mark : Char} (hmark : Toml.isBare mark = false)
    (rest : List Char) : ∀ c ∈ (blanks.text ++ mark :: rest).head?, Toml.isBare c = false := by
  intro c hc
  cases htext : blanks.text with
  | nil =>
    rw [htext] at hc
    obtain rfl := Option.some.inj hc
    exact hmark
  | cons d tail =>
    rw [htext] at hc
    obtain rfl := Option.some.inj hc
    exact isBare_of_isBlank (blanks.isBlank _ (htext ▸ .head _))

/-- The text of a key starts with a character that may stand in a key. -/
theorem exists_keyText_eq (front : List BarePart) (last : BarePart) :
    ∃ c rest, keyText front last = c :: rest ∧ isBare c = true := by
  cases front with
  | nil => exact last.exists_text_eq
  | cons part front =>
    obtain ⟨c, rest, htext, hbare⟩ := part.exists_text_eq
    exact ⟨c, rest ++ '.' :: keyText front last, by rw [keyText, htext]; rfl, hbare⟩

/-- A key is longer than the number of its parts but the last. -/
theorem length_lt_length_keyText (front : List BarePart) (last : BarePart) :
    front.length < (keyText front last).length := by
  induction front with
  | nil => exact List.length_pos_iff.2 last.bare.ne_nil
  | cons part front ih =>
    rw [keyText, List.length_append, List.length_cons, List.length_cons]
    omega

/-- A part without quotes is spanned up to what can stand in no part. -/
theorem spanKeyPart?_bare (part : BarePart) {rest : List Char} (hrest : ∀ c ∈ rest.head?, isBare c = false) :
    spanKeyPart? (part.text.toList ++ rest) = some (part.text.toList, rest) := by
  have htake : (part.text.toList ++ rest).takeWhile isBare = part.text.toList := by
    rw [List.takeWhile_append_of_pos part.bare.isBare]
    cases rest with
    | nil => simp
    | cons c rest => simp [hrest c rfl]
  have hdrop : (part.text.toList ++ rest).dropWhile isBare = rest := by
    rw [List.dropWhile_append_of_pos part.bare.isBare]
    cases rest with
    | nil => rfl
    | cons c rest => simp [hrest c rfl]
  obtain ⟨c, tail, hpart, hbare⟩ := part.exists_text_eq
  have hnot : ∀ {quote : Char} {behind}, isBare quote = false → part.text.toList ++ rest ≠ quote :: behind := by
    intro quote behind hquote heq
    rw [hpart, List.cons_append] at heq
    rw [(List.cons.inj heq).1, hquote] at hbare
    contradiction
  unfold spanKeyPart?
  split
  · next heq => exact absurd heq (hnot (by decide))
  · next heq => exact absurd heq (hnot (by decide))
  · rw [htake, hdrop]
    simp [part.bare.ne_nil]

/-- A key is spanned up to what ends it, with the blanks in between. -/
theorem spanKey?_keyText (front : List BarePart) (last : BarePart) (blanks : Blanks) {mark : Char}
    (hmark : isKeyEnd mark = true) (rest : List Char) {steps : ℕ} (hsteps : front.length < steps) :
    spanKey? steps (keyText front last ++ (blanks.text ++ mark :: rest)) =
      some (front.map BarePart.text ++ [last.text], mark :: rest) := by
  simp only [isKeyEnd, Bool.and_eq_true, Bool.not_eq_true', decide_eq_true_eq] at hmark
  obtain ⟨⟨hbare, hpoint⟩, hblank⟩ := hmark
  induction front generalizing steps with
  | nil =>
    obtain ⟨before, rfl⟩ : ∃ before, steps = before + 1 := ⟨steps - 1, by omega⟩
    rw [keyText, spanKey?, last.dropBlanks_append, spanKeyPart?_bare last (blanks.isBare_of_mem_head? hbare rest),
      Option.bind_eq_bind, Option.bind_some]
    dsimp only
    rw [dropBlanks_append, dropBlanks_cons hblank]
    split
    · next heq => exact absurd (List.cons.inj heq).1 hpoint
    · rw [String.ofList_toList]
      rfl
  | cons part front ih =>
    obtain ⟨before, rfl⟩ : ∃ before, steps = before + 1 := ⟨steps - 1, by omega⟩
    have hbehind : ∀ text : List Char, ∀ c ∈ ('.' :: text).head?, isBare c = false := by
      rintro text c ⟨rfl⟩
      decide
    rw [keyText, List.append_assoc, List.cons_append, spanKey?, part.dropBlanks_append,
      spanKeyPart?_bare part (hbehind _), Option.bind_eq_bind, Option.bind_some]
    dsimp only
    rw [dropBlanks_cons (by decide)]
    split
    · next behind heq =>
      obtain rfl := (List.cons.inj heq).2
      rw [ih (Nat.lt_of_succ_lt_succ hsteps), String.ofList_toList]
      rfl
    · next hnone => exact absurd rfl (hnone _)

/-- A key's parts are told apart from the last one. -/
theorem spanPath?_text (key : BareKey) (blanks : Blanks) {mark : Char} (hmark : isKeyEnd mark = true)
    (rest : List Char) :
    spanPath? (key.text ++ (blanks.text ++ mark :: rest)) = some (key.path, key.last.text, mark :: rest) := by
  have hfew : key.parts.length ≤ mostNested := by
    rw [BareKey.parts, BareKey.path, List.length_append, List.length_map, List.length_singleton]
    exact key.few
  have hsteps : key.front.length < (key.text ++ (blanks.text ++ mark :: rest)).length + 1 := by
    have hlong := length_lt_length_keyText key.front key.last
    rw [List.length_append, BareKey.text]
    omega
  have hkey := spanKey?_keyText key.front key.last blanks hmark rest hsteps
  rw [← BareKey.text] at hkey
  rw [spanPath?, hkey]
  simp only [Option.bind_eq_bind, Option.bind_some, List.getLast?_concat, List.dropLast_concat]
  exact if_pos hfew

end Keys

section Ends

/-- What stands behind a line: nothing at the end of the document, or else an end of line and the next lines. -/
inductive Behind : (tail next : List Char) → Prop where
  /-- The document ends. -/
  | nothing : Behind [] []
  /-- There are further lines. -/
  | lines (next : List Char) : Behind ('\n' :: next) next

/-- A comment ends with its line. -/
theorem dropWhile_isPrintable {tail next : List Char} (htail : Behind tail next) (comment : Comment) :
    (comment.text ++ tail).dropWhile isPrintable = tail := by
  rw [List.dropWhile_append_of_pos comment.isPrintable]
  cases htail with
  | nothing => rfl
  | lines next => exact List.dropWhile_cons_of_neg (by decide)

/-- The end of a line goes up to the next line. -/
theorem endLine?_text {tail next : List Char} (htail : Behind tail next) (trail : Trail) :
    endLine? (trail.text ++ tail) = some next := by
  have hend : dropComment (dropBlanks (trail.text ++ tail)) = tail := by
    rw [Trail.text, List.append_assoc, dropBlanks_append]
    cases trail.comment with
    | none =>
      cases htail with
      | nothing => rfl
      | lines next => rfl
    | some comment =>
      rw [commentText, List.cons_append, dropBlanks_cons (by decide), dropComment,
        dropWhile_isPrintable htail comment]
  rw [endLine?, hend]
  cases htail with
  | nothing => rfl
  | lines next => rfl

/-- A value may end in front of the end of a line. -/
theorem endsValue_text {tail next : List Char} (htail : Behind tail next) (trail : Trail) :
    EndsValue (trail.text ++ tail) := by
  intro c hc
  rw [Trail.text, List.append_assoc] at hc
  cases hblanks : trail.blanks.text with
  | cons blank blanks =>
    rw [hblanks] at hc
    obtain rfl := Option.some.inj hc
    have hblank := trail.blanks.isBlank blank (by rw [hblanks]; exact .head _)
    simp only [isBlank, Bool.or_eq_true, decide_eq_true_eq] at hblank
    obtain rfl | rfl := hblank <;> decide
  | nil =>
    rw [hblanks] at hc
    cases hcomment : trail.comment with
    | some comment =>
      rw [hcomment] at hc
      obtain rfl := Option.some.inj hc
      decide
    | none =>
      rw [hcomment] at hc
      cases htail with
      | nothing => contradiction
      | lines next =>
        obtain rfl := Option.some.inj hc
        decide

end Ends

section Filler

/-- What follows the end of a line is shorter. -/
theorem length_lt_of_spanNewline? {text rest : List Char} (h : spanNewline? text = some rest) :
    rest.length < text.length := by
  unfold spanNewline? at h
  split at h
  · obtain rfl := Option.some.inj h
    exact Nat.lt_succ_self _
  · obtain rfl := Option.some.inj h
    rw [List.length_cons, List.length_cons]
    omega
  · contradiction

/-- Any number of steps that exceeds the length of the text is enough to drop blanks, comments and ends of lines. -/
theorem dropFiller_eq {steps more : ℕ} {text : List Char} (hsteps : text.length < steps) (hmore : text.length < more) :
    dropFiller steps text = dropFiller more text := by
  induction steps generalizing more text with
  | zero => omega
  | succ steps ih =>
    obtain ⟨less, rfl⟩ : ∃ less, more = less + 1 := ⟨more - 1, by omega⟩
    have hblanks : (dropBlanks text).length ≤ text.length := (List.dropWhile_suffix isBlank).length_le
    rw [dropFiller, dropFiller]
    split
    · next rest heq =>
      have hcomment : (rest.dropWhile isPrintable).length ≤ rest.length := (List.dropWhile_suffix _).length_le
      rw [heq, List.length_cons] at hblanks
      exact ih (by omega) (by omega)
    · split
      · next rest hnewline =>
        have hshorter := length_lt_of_spanNewline? hnewline
        exact ih (by omega) (by omega)
      · rfl

/-- A line that says nothing is dropped, and so are those behind it. -/
theorem dropFiller_trail {tail next : List Char} (htail : Behind tail next) (indent : Blanks) (trail : Trail)
    {steps more : ℕ} (hsteps : (indent.text ++ (trail.text ++ tail)).length < steps) (hmore : next.length < more) :
    dropFiller steps (indent.text ++ (trail.text ++ tail)) = dropFiller more next := by
  have hnext : ∀ steps, tail.length < steps → dropFiller steps tail = dropFiller more next := by
    intro steps hsteps
    obtain ⟨before, rfl⟩ : ∃ before, steps = before + 1 := ⟨steps - 1, by omega⟩
    obtain ⟨less, rfl⟩ : ∃ less, more = less + 1 := ⟨more - 1, by omega⟩
    cases htail with
    | nothing => rfl
    | lines next =>
      rw [dropFiller, dropBlanks_cons (by decide)]
      exact dropFiller_eq (by simpa using hsteps) hmore
  obtain ⟨before, rfl⟩ : ∃ before, steps = before + 1 := ⟨steps - 1, by omega⟩
  have hdrop : dropBlanks (indent.text ++ (trail.text ++ tail)) =
      dropBlanks (commentText trail.comment ++ tail) := by
    rw [dropBlanks_append, Trail.text, List.append_assoc, dropBlanks_append]
  simp only [Trail.text, List.length_append] at hsteps
  cases hcomment : trail.comment with
  | none =>
    have hsame : dropFiller (before + 1) (indent.text ++ (trail.text ++ tail)) = dropFiller (before + 1) tail := by
      rw [dropFiller, hdrop, hcomment, commentText, List.nil_append, ← dropFiller]
    rw [hsame]
    exact hnext _ (by omega)
  | some comment =>
    rw [hcomment, commentText, List.length_cons] at hsteps
    rw [dropFiller, hdrop, hcomment, commentText, List.cons_append, dropBlanks_cons (by decide)]
    split
    · next behind heq =>
      obtain rfl := (List.cons.inj heq).2
      rw [dropWhile_isPrintable htail comment]
      exact hnext _ (by omega)
    · next hnone => exact absurd rfl (hnone _)

/-- Nothing but blanks is dropped in front of a line that says something. -/
theorem dropFiller_indent (indent : Blanks) {c : Char} {rest : List Char} (hc : c = '[' ∨ isBare c = true)
    (steps : ℕ) : dropFiller (steps + 1) (indent.text ++ c :: rest) = c :: rest := by
  have hstands : isBlank c = false ∧ c ≠ '#' ∧ c ≠ '\n' ∧ c ≠ '\r' := by
    obtain rfl | hbare := hc
    · decide
    · have hne : ∀ {d : Char}, isBare d = false → c ≠ d := by
        rintro d hd rfl
        rw [hbare] at hd
        contradiction
      exact ⟨isBlank_of_isBare hbare, hne (by decide), hne (by decide), hne (by decide)⟩
  obtain ⟨hblank, hcomment, hnewline, hreturn⟩ := hstands
  have hnone : spanNewline? (c :: rest) = none := by
    unfold spanNewline?
    split
    · next heq => exact absurd (List.cons.inj heq).1 hnewline
    · next heq => exact absurd (List.cons.inj heq).1 hreturn
    · rfl
  rw [dropFiller, dropBlanks_append, dropBlanks_cons hblank]
  split
  · next heq => exact absurd (List.cons.inj heq).1 hcomment
  · rw [hnone]

end Filler

section Lines

variable {tail next : List Char}

/-- The text of a line that says something starts with a bracket or with a key. -/
theorem Content.exists_text_eq {content : Content} (h : content ≠ .nothing) :
    ∃ c rest, content.text = c :: rest ∧ (c = '[' ∨ isBare c = true) := by
  cases content with
  | nothing => contradiction
  | header key => exact ⟨'[', _, rfl, .inl rfl⟩
  | element key => exact ⟨'[', _, rfl, .inl rfl⟩
  | entry key before behind text value denotes =>
    obtain ⟨c, rest, hkey, hbare⟩ := exists_keyText_eq key.front key.last
    exact ⟨c, rest ++ (before.text ++ '=' :: (behind.text ++ text)), by rw [Content.text, BareKey.text, hkey]; rfl,
      .inr hbare⟩

/-- The text of a key does not start with a bracket. -/
theorem text_append_ne_bracket (key : BareKey) (behind rest : List Char) : key.text ++ behind ≠ '[' :: rest := by
  obtain ⟨c, more, hkey, hbare⟩ := exists_keyText_eq key.front key.last
  rw [BareKey.text, hkey, List.cons_append]
  intro heq
  rw [(List.cons.inj heq).1] at hbare
  exact absurd hbare (by decide)

/-- A header opens its table. -/
theorem spanLine?_header (htail : Behind tail next) (draft : Draft) (key : BareKey) (trail : Trail) :
    draft.spanLine? ((Content.header key).text ++ (trail.text ++ tail)) =
      (draft.openTable? key.path key.last.text).map (·, next) := by
  have hpath := spanPath?_text key .none (by decide : isKeyEnd ']' = true) (trail.text ++ tail)
  have htext : (Content.header key).text ++ (trail.text ++ tail) =
      '[' :: (key.text ++ (Blanks.none.text ++ ']' :: (trail.text ++ tail))) := by
    simp [Content.text, Blanks.none]
  rw [htext]
  unfold Draft.spanLine?
  split
  · next heq => exact absurd (List.cons.inj heq).2 (text_append_ne_bracket key _ _)
  · next heq =>
    obtain rfl := (List.cons.inj heq).2
    rw [hpath]
    change (draft.openTable? key.path key.last.text).bind (fun opened =>
      (endLine? (trail.text ++ tail)).bind fun rest => some (opened, rest)) = _
    rw [endLine?_text htail trail]
    cases draft.openTable? key.path key.last.text <;> rfl
  · next hnone => exact absurd rfl (hnone _)

/-- A header of a list of tables opens a further one. -/
theorem spanLine?_element (htail : Behind tail next) (draft : Draft) (key : BareKey) (trail : Trail) :
    draft.spanLine? ((Content.element key).text ++ (trail.text ++ tail)) =
      (draft.openElement? key.path key.last.text).map (·, next) := by
  have hpath := spanPath?_text key .none (by decide : isKeyEnd ']' = true) (']' :: (trail.text ++ tail))
  have htext : (Content.element key).text ++ (trail.text ++ tail) =
      '[' :: '[' :: (key.text ++ (Blanks.none.text ++ ']' :: ']' :: (trail.text ++ tail))) := by
    simp [Content.text, Blanks.none]
  rw [htext]
  unfold Draft.spanLine?
  split
  · next heq =>
    obtain rfl := (List.cons.inj (List.cons.inj heq).2).2
    rw [hpath]
    change (draft.openElement? key.path key.last.text).bind (fun opened =>
      (endLine? (trail.text ++ tail)).bind fun rest => some (opened, rest)) = _
    rw [endLine?_text htail trail]
    cases draft.openElement? key.path key.last.text <;> rfl
  · next rest hnone heq => exact absurd (List.cons.inj heq).2.symm (hnone _)
  · next hnone _ => exact absurd rfl (hnone _)

/-- A key with a value sets the key to the value. -/
theorem spanLine?_entry (htail : Behind tail next) (draft : Draft) (key : BareKey) (before behind : Blanks)
    {text : List Char} {value : Value} (denotes : Denotes text value) (trail : Trail) :
    draft.spanLine? ((Content.entry key before behind text value denotes).text ++ (trail.text ++ tail)) =
      (draft.assign? key.path key.last.text value).map (·, next) := by
  have hpath := spanPath?_text key before (by decide : isKeyEnd '=' = true)
    (behind.text ++ (text ++ (trail.text ++ tail)))
  have htext : (Content.entry key before behind text value denotes).text ++ (trail.text ++ tail) =
      key.text ++ (before.text ++ '=' :: (behind.text ++ (text ++ (trail.text ++ tail)))) := by
    simp [Content.text]
  have hblanks : dropBlanks (behind.text ++ (text ++ (trail.text ++ tail))) = text ++ (trail.text ++ tail) := by
    obtain ⟨c, rest, hstart, hblank⟩ := denotes.starts
    rw [dropBlanks_append, hstart, List.cons_append, dropBlanks_cons hblank]
  have hvalue := denotes.spans ((behind.text ++ (text ++ (trail.text ++ tail))).length + 1) (trail.text ++ tail)
    (endsValue_text htail trail) (by simp only [List.length_append]; omega)
  rw [htext]
  unfold Draft.spanLine?
  split
  · next heq => exact absurd heq (text_append_ne_bracket key _ _)
  · next heq => exact absurd heq (text_append_ne_bracket key _ _)
  · rw [hpath]
    change (spanValue? ((behind.text ++ (text ++ (trail.text ++ tail))).length + 1) mostNested
      (dropBlanks (behind.text ++ (text ++ (trail.text ++ tail))))).bind (fun found =>
        (draft.assign? key.path key.last.text found.1).bind fun changed =>
          (endLine? found.2).bind fun rest => some (changed, rest)) = _
    rw [hblanks, hvalue, Option.bind_some, endLine?_text htail trail]
    cases draft.assign? key.path key.last.text value <;> rfl

/-- A line that says something does what it says. -/
theorem spanLine?_text (htail : Behind tail next) (draft : Draft) {content : Content} (hfilled : content ≠ .nothing)
    (trail : Trail) :
    draft.spanLine? (content.text ++ (trail.text ++ tail)) = (draft.write? content).map (·, next) := by
  cases content with
  | nothing => contradiction
  | header key => exact spanLine?_header htail draft key trail
  | element key => exact spanLine?_element htail draft key trail
  | entry key before behind text value denotes => exact spanLine?_entry htail draft key before behind denotes trail

/-- The first of some lines is carried out, and then those behind it. -/
theorem readLines?_line (htail : Behind tail next) (draft : Draft) (line : Line) {steps : ℕ}
    (hnext : ∀ steps draft, next.length < steps → Draft.readLines? steps draft next = draft.writeAll? rest)
    (hsteps : (line.text ++ tail).length < steps) :
    draft.readLines? steps (line.text ++ tail) = draft.writeAll? (line :: rest) := by
  obtain ⟨before, rfl⟩ : ∃ before, steps = before + 1 := ⟨steps - 1, by omega⟩
  have htext : line.text ++ tail = line.indent.text ++ (line.content.text ++ (line.trail.text ++ tail)) := by
    simp [Line.text]
  have hshorter : next.length ≤ tail.length := by
    cases htail <;> simp
  rw [htext] at hsteps ⊢
  by_cases hfilled : line.content = .nothing
  · rw [hfilled, Content.text, List.nil_append] at hsteps ⊢
    have hsame : draft.readLines? (before + 1) (line.indent.text ++ (line.trail.text ++ tail)) =
        draft.readLines? (before + 1) next := by
      rw [Draft.readLines?, Draft.readLines?,
        dropFiller_trail htail line.indent line.trail (Nat.lt_succ_self _) (Nat.lt_succ_self next.length)]
    simp only [List.length_append] at hsteps
    rw [hsame, hnext _ _ (by omega), Draft.writeAll?, hfilled]
    rfl
  · obtain ⟨c, more, hcontent, hc⟩ := Content.exists_text_eq hfilled
    have hfiller : ∀ steps, dropFiller (steps + 1)
        (line.indent.text ++ (line.content.text ++ (line.trail.text ++ tail))) =
          line.content.text ++ (line.trail.text ++ tail) := by
      intro steps
      rw [hcontent, List.cons_append]
      exact dropFiller_indent line.indent hc steps
    rw [Draft.readLines?, hfiller]
    split
    · next heq => simp [hcontent] at heq
    · rw [spanLine?_text htail draft hfilled line.trail, Draft.writeAll?]
      simp only [List.length_append, hcontent, List.length_cons] at hsteps
      cases draft.write? line.content with
      | none => rfl
      | some changed => exact hnext _ _ (by omega)

/-- The lines of a document are carried out one after the other. -/
theorem readLines?_documentText (lines : List Line) {steps : ℕ} (draft : Draft)
    (hsteps : (documentText lines).length < steps) :
    draft.readLines? steps (documentText lines) = draft.writeAll? lines := by
  induction lines generalizing steps draft with
  | nil =>
    obtain ⟨before, rfl⟩ : ∃ before, steps = before + 1 := ⟨steps - 1, by omega⟩
    rfl
  | cons line rest ih =>
    cases rest with
    | nil =>
      have htext : documentText [line] = line.text ++ [] := (List.append_nil _).symm
      rw [htext] at hsteps ⊢
      exact readLines?_line .nothing draft line (fun steps draft hsteps => ih draft hsteps) hsteps
    | cons second rest =>
      exact readLines?_line (.lines _) draft line (fun steps draft hsteps => ih draft hsteps) hsteps

/-- No line starts with the mark of an order of bytes. -/
theorem ne_mark_of_mem_head? (htail : Behind tail next) (line : Line) : '\uFEFF' ∉ (line.text ++ tail).head? := by
  intro hmark
  have htext : line.text ++ tail = line.indent.text ++ (line.content.text ++ (line.trail.text ++ tail)) := by
    simp [Line.text]
  rw [htext] at hmark
  cases hindent : line.indent.text with
  | cons blank blanks =>
    rw [hindent] at hmark
    obtain rfl := Option.some.inj hmark
    exact absurd (line.indent.isBlank '\uFEFF' (by rw [hindent]; exact .head _)) (by decide)
  | nil =>
    rw [hindent, List.nil_append] at hmark
    by_cases hfilled : line.content = .nothing
    · rw [hfilled, Content.text, List.nil_append] at hmark
      exact absurd (endsValue_text htail line.trail '\uFEFF' hmark) (by decide)
    · obtain ⟨c, more, hcontent, hc⟩ := Content.exists_text_eq hfilled
      rw [hcontent] at hmark
      obtain rfl := Option.some.inj hmark
      exact absurd hc (by decide)

/-- A document does not start with the mark of an order of bytes. -/
theorem dropMark_documentText (lines : List Line) : dropMark (documentText lines) = documentText lines := by
  have hhead : '\uFEFF' ∉ (documentText lines).head? := by
    match lines with
    | [] => exact nofun
    | [line] =>
      have h := ne_mark_of_mem_head? .nothing line
      rwa [List.append_nil] at h
    | line :: second :: rest => exact ne_mark_of_mem_head? (.lines _) line
  unfold dropMark
  split
  · next rest heq => exact absurd (by rw [heq]; rfl) hhead
  · rfl

end Lines

/-- The entries of a document that is written in lines are those of the tables that its lines build, with moments in
their places. -/
theorem settleEntries?_of_ofText? {lines : List Line} {entries : List (String × Value)}
    (h : Document.ofText? (documentText lines) = some entries) :
    ∃ draft, Draft.blank.writeAll? lines = some draft ∧ settleEntries? (entryValues draft.entries) = some entries := by
  rw [Document.ofText?, dropMark_documentText, readLines?_documentText lines _ (Nat.lt_succ_self _)] at h
  obtain ⟨draft, hdraft, h⟩ := Option.bind_eq_some_iff.1 h
  obtain ⟨root, hroot, h⟩ := Option.bind_eq_some_iff.1 h
  refine ⟨draft, hdraft, ?_⟩
  cases hvalues : entryValues draft.entries with
  | nil =>
    rw [hvalues, Value.settle?] at hroot
    obtain rfl := Option.some.inj hroot
    obtain rfl := Option.some.inj h
    rfl
  | cons first rest =>
    obtain ⟨key, value⟩ := first
    rw [hvalues, Value.settle?] at hroot
    split at hroot
    · -- a table that stands for a moment is none any more
      cases value with
      | text value =>
        obtain ⟨moment, -, rfl⟩ := Option.map_eq_some_iff.1 hroot
        contradiction
      | _ => contradiction
    · obtain ⟨settled, hsettled, hroot⟩ := Option.bind_eq_some_iff.1 hroot
      obtain ⟨others, hothers, hroot⟩ := Option.bind_eq_some_iff.1 hroot
      obtain rfl := Option.some.inj hroot
      obtain rfl := Option.some.inj h
      rw [settleEntries?, hsettled, hothers]
      rfl

end FlightPlanner.Toml
