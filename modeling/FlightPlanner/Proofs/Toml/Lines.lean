import FlightPlanner.Proofs.Config.Numerals

/-!
# Documents written in lines

A document is written line by line: headers of tables and of lists of tables, keys with values, comments and empty
lines. A key consists of parts without quotes, with points between them; a value is anything that a text denotes
wherever a value may end behind it. Reading such a document carries out its lines one after the other, and is at
fault where one of them cannot be carried out.
-/

namespace FlightPlanner.Toml

/-- Whether a text denotes a value in a line of a document. -/
structure Denotes (text : List Char) (value : Value) : Prop where
  /-- It starts with something else than a blank. -/
  starts : ∃ c rest, text = c :: rest ∧ isBlank c = false
  /-- The value is read, and nothing more, wherever it may end behind the text. -/
  spans : ∀ steps rest, EndsValue rest → text.length + rest.length < steps →
    spanValue? steps mostNested (text ++ rest) = some (value, rest)

/-- A numeral denotes its number, if this fits into sixty-four bits with a sign, and nothing else. -/
theorem denotes_numeral_iff {digits : List Char} (h : IsNumeral digits) {value : Value} :
    Denotes digits value ↔
      Decimal.ofDigits digits < 0x8000000000000000 ∧ value = .integer (Decimal.ofDigits digits) := by
  constructor
  · intro hdenotes
    have hread := hdenotes.spans (digits.length + 1) [] (by simp [EndsValue]) (by simp)
    rw [spanValue?_numeral h (by simp [EndsValue])] at hread
    obtain hfits | hlarge := lt_or_ge (Decimal.ofDigits digits) 0x8000000000000000
    · rw [Decimal.within64?_natCast hfits] at hread
      exact ⟨hfits, (Prod.mk.inj (Option.some.inj hread)).1.symm⟩
    · rw [Decimal.within64?_natCast_eq_none hlarge] at hread
      contradiction
  · rintro ⟨hfits, rfl⟩
    refine ⟨?starts, fun steps rest hend hsteps => ?spans⟩
    case starts =>
      obtain ⟨d, tail, rfl⟩ := List.exists_cons_of_ne_nil h.ne_nil
      have hdigit := h.isDigit d (.head _)
      have hspace : d ≠ ' ' := Decimal.ne_of_isDigit hdigit (by decide)
      have htab : d ≠ '\t' := Decimal.ne_of_isDigit hdigit (by decide)
      exact ⟨d, tail, rfl, by simp [isBlank, hspace, htab]⟩
    case spans =>
      obtain ⟨before, rfl⟩ : ∃ before, steps = before + 1 := ⟨steps - 1, by omega⟩
      rw [spanValue?_numeral h hend, Decimal.within64?_natCast hfits]
      rfl

/-- Whether a character stands for itself in a text between double quotes. -/
def isPlain (c : Char) : Bool := isPrintable c && c ≠ '"' && c ≠ '\\'

/-- Characters that stand for themselves are read up to the closing quote. -/
theorem spanBasic?_plain {chars rest : List Char} (hplain : ∀ c ∈ chars, isPlain c = true) {steps : ℕ}
    (hsteps : chars.length < steps) : spanBasic? steps (chars ++ '"' :: rest) = some (chars, rest) := by
  induction chars generalizing steps with
  | nil =>
    obtain ⟨before, rfl⟩ : ∃ before, steps = before + 1 := ⟨steps - 1, by rw [List.length_nil] at hsteps; omega⟩
    rfl
  | cons c chars ih =>
    obtain ⟨before, rfl⟩ : ∃ before, steps = before + 1 := ⟨steps - 1, by omega⟩
    have hc := hplain c (.head _)
    simp only [isPlain, Bool.and_eq_true, decide_eq_true_eq] at hc
    have hrest := ih (fun d hd => hplain d (.tail _ hd)) (Nat.lt_of_succ_lt_succ hsteps)
    rw [List.cons_append, spanBasic?]
    · rw [if_pos hc.1.1, hrest]
      rfl
    · exact hc.1.2
    · exact hc.2

/-- Characters that stand for themselves denote their text, between double quotes. -/
theorem denotes_text {chars : List Char} (hplain : ∀ c ∈ chars, isPlain c = true) :
    Denotes ('"' :: (chars ++ ['"'])) (.text (String.ofList chars)) := by
  refine ⟨⟨'"', _, rfl, by decide⟩, fun steps rest hend hsteps => ?_⟩
  obtain ⟨before, rfl⟩ : ∃ before, steps = before + 1 := ⟨steps - 1, by omega⟩
  have hbasic : spanBasic? ((chars ++ '"' :: rest).length + 1) (chars ++ '"' :: rest) = some (chars, rest) :=
    spanBasic?_plain hplain (by rw [List.length_append]; omega)
  have htext : spanText? ('"' :: (chars ++ '"' :: rest)) = some (chars, rest) := by
    unfold spanText?
    split
    · -- two more quotes could only follow behind an empty text, but a value ends there
      next behind heq =>
      have hquote := (List.cons.inj heq).2
      cases chars with
      | nil =>
        have hrest : rest = '"' :: behind := (List.cons.inj hquote).2
        exact absurd (hend '"' (by rw [hrest]; rfl)) (by decide)
      | cons c chars =>
        obtain ⟨rfl, -⟩ := List.cons.inj hquote
        exact absurd (hplain '"' (.head _)) (by decide)
    · next behind _ heq =>
      obtain rfl := (List.cons.inj heq).2
      exact hbasic
    · next heq => exact absurd (List.cons.inj heq).1 (by decide)
    · next heq => exact absurd (List.cons.inj heq).1 (by decide)
    · next hnone _ _ => exact absurd rfl (hnone _)
  have hsplit : '"' :: (chars ++ ['"']) ++ rest = '"' :: (chars ++ '"' :: rest) := by simp
  rw [hsplit, spanValue?, htext]
  rfl

/-- Whether a text can be a part of a key without quotes. -/
structure IsBareText (text : String) : Prop where
  /-- It is not empty. -/
  ne_nil : text.toList ≠ []
  /-- All its characters may stand without quotes. -/
  isBare : ∀ c ∈ text.toList, isBare c = true

instance (text : String) : Decidable (IsBareText text) :=
  decidable_of_iff (text.toList ≠ [] ∧ text.toList.all Toml.isBare = true)
    ⟨fun ⟨hne, hall⟩ => ⟨hne, List.all_eq_true.1 hall⟩, fun h => ⟨h.ne_nil, List.all_eq_true.2 h.isBare⟩⟩

/-- A part of a key that needs no quotes. -/
structure BarePart where
  /-- Its text. -/
  text : String
  /-- It needs none. -/
  bare : IsBareText text

/-- A key without quotes. -/
structure BareKey where
  /-- The parts but the last. -/
  front : List BarePart
  /-- The last part. -/
  last : BarePart
  /-- There are not too many parts. -/
  few : front.length < mostNested

/-- A key of one part. -/
def BareKey.single (part : BarePart) : BareKey := ⟨[], part, by decide⟩

/-- The parts of a key in a path of tables. -/
def BareKey.path (key : BareKey) : List String := key.front.map BarePart.text

/-- All parts of a key. -/
def BareKey.parts (key : BareKey) : List String := key.path ++ [key.last.text]

/-- The text of some parts and a last one, with points between them. -/
def keyText : List BarePart → BarePart → List Char
  | [], last => last.text.toList
  | part :: front, last => part.text.toList ++ '.' :: keyText front last

/-- The text of a key. -/
def BareKey.text (key : BareKey) : List Char := keyText key.front key.last

/-- Blanks within a line. -/
structure Blanks where
  /-- The blanks. -/
  text : List Char
  /-- They are. -/
  isBlank : ∀ c ∈ text, isBlank c = true

/-- No blanks. -/
def Blanks.none : Blanks := ⟨[], nofun⟩

/-- A single space. -/
def Blanks.space : Blanks := ⟨[' '], List.all_eq_true.1 rfl⟩

/-- What a line of a document says. -/
inductive Content where
  /-- Nothing: the line is empty but for blanks and a comment. -/
  | nothing
  /-- That a table comes next. -/
  | header (key : BareKey)
  /-- That a further table of a list comes next. -/
  | element (key : BareKey)
  /-- That a key has a value; `before` and `behind` stand around the equals sign. -/
  | entry (key : BareKey) (before behind : Blanks) (text : List Char) (value : Value) (denotes : Denotes text value)

/-- The text of what a line says. -/
def Content.text : Content → List Char
  | .nothing => []
  | .header key => '[' :: (key.text ++ [']'])
  | .element key => '[' :: '[' :: (key.text ++ [']', ']'])
  | .entry key before behind text _ _ => key.text ++ (before.text ++ '=' :: (behind.text ++ text))

/-- A comment, up to the end of its line. -/
structure Comment where
  /-- The characters behind the mark. -/
  text : List Char
  /-- They are printable. -/
  isPrintable : ∀ c ∈ text, isPrintable c = true

/-- The text of a comment, if there is one. -/
def commentText : Option Comment → List Char
  | none => []
  | some comment => '#' :: comment.text

/-- The end of a line: blanks and perhaps a comment. -/
structure Trail where
  /-- The blanks. -/
  blanks : Blanks
  /-- The comment. -/
  comment : Option Comment

/-- The text of the end of a line. -/
def Trail.text (trail : Trail) : List Char := trail.blanks.text ++ commentText trail.comment

/-- A line of a document. -/
structure Line where
  /-- The blanks in front. -/
  indent : Blanks
  /-- What it says. -/
  content : Content
  /-- What stands behind. -/
  trail : Trail

/-- The text of a line. -/
def Line.text (line : Line) : List Char := line.indent.text ++ (line.content.text ++ line.trail.text)

/-- A line without blanks around what it says, nor a comment. -/
def Line.of (content : Content) : Line := ⟨.none, content, ⟨.none, none⟩⟩

/-- A line with a key and a numeral, with a space on either side of the equals sign. -/
def Line.ofNumeral (key : BareKey) (digits : List Char) (h : IsNumeral digits)
    (hfits : Decimal.ofDigits digits < 0x8000000000000000) : Line :=
  .of (.entry key .space .space digits (.integer (Decimal.ofDigits digits))
    ((denotes_numeral_iff h).2 ⟨hfits, rfl⟩))

/-- A line with a key and a text between double quotes, with a space on either side of the equals sign. -/
def Line.ofText (key : BareKey) (chars : List Char) (h : ∀ c ∈ chars, isPlain c = true) : Line :=
  .of (.entry key .space .space ('"' :: (chars ++ ['"'])) (.text (String.ofList chars)) (denotes_text h))

/-- The text of a document, with an end of line between each two lines. -/
def documentText : List Line → List Char
  | [] => []
  | [line] => line.text
  | line :: next :: rest => line.text ++ '\n' :: documentText (next :: rest)

/-- What a line does to a document of which the lines before it have been read, by what it says. -/
def Draft.write? (draft : Draft) : Content → Option Draft
  | .nothing => some draft
  | .header key => draft.openTable? key.path key.last.text
  | .element key => draft.openElement? key.path key.last.text
  | .entry key _ _ _ value _ => draft.assign? key.path key.last.text value

/-- What some lines do, one after the other. -/
def Draft.writeAll? (draft : Draft) : List Line → Option Draft
  | [] => some draft
  | line :: rest => (draft.write? line.content).bind (·.writeAll? rest)

end FlightPlanner.Toml
