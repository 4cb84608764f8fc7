import FlightPlanner.Json.Node

/-!
# Written texts are read back

Every character of a text is written as itself or as one escape, and read as one piece: as itself, or as a unit when
it is a control without a short escape. Joined again, the pieces are the characters. The closing quote is the first
one that is not escaped, so that whatever follows the text is left as it is.
-/

namespace FlightPlanner.Json

/-- The character whose escape in one letter is written for a character, if there is one. -/
def letterOf? (c : Char) : Option Char :=
  if c = '"' then some '"'
  else if c = '\\' then some '\\'
  else if c = '\x08' then some 'b'
  else if c = '\x0c' then some 'f'
  else if c = '\n' then some 'n'
  else if c = '\r' then some 'r'
  else if c = '\t' then some 't'
  else none

/-- The piece that is read where a character was written. -/
def pieceOf (c : Char) : Piece := if (letterOf? c).isNone && c.toNat < 0x20 then .unit c.toNat else .char c

/-- A letter stands for the character it was written for. -/
theorem shortEscape?_of_letterOf? {c letter : Char} (h : letterOf? c = some letter) :
    shortEscape? letter = some c ∧ letter ≠ 'u' := by
  unfold letterOf? at h
  repeat' split at h
  all_goals first | contradiction | (subst_vars; cases h; decide)

/-- A character is written behind a backslash, as its number or as itself. -/
theorem writeChar_eq (c : Char) :
    writeChar c = match letterOf? c with
      | some letter => ['\\', letter]
      | none => if c.toNat < 0x20 then controlEscape c else [c] := by
  grind [writeChar, letterOf?]

/-- Two hexadecimal digits behind two zeros are the number they were written for. -/
theorem hexNumber?_control : ∀ n < 0x20,
    Text.hexNumber? ['0', '0', Nat.digitChar (n / 16), Nat.digitChar (n % 16)] = some n := by decide

/-- A written character is read as its piece. -/
theorem pieces_writeChar (c : Char) (rest : List Char) :
    pieces (writeChar c ++ rest) = consPiece (pieceOf c) (pieces rest) := by
  rw [writeChar_eq, pieceOf]
  cases hletter : letterOf? c with
  | some letter =>
    obtain ⟨hshort, hne⟩ := shortEscape?_of_letterOf? hletter
    simp [pieces, hshort, hne]
  | none =>
    by_cases hcontrol : c.toNat < 0x20
    · simp [hcontrol, controlEscape, pieces, hexNumber?_control]
    · have hquote : c ≠ '"' := by rintro rfl; simp [letterOf?] at hletter
      have hbackslash : c ≠ '\\' := by rintro rfl; simp [letterOf?] at hletter
      simp only [hcontrol, if_false, Option.isNone_none, Bool.true_and, decide_false, Bool.false_eq_true,
        List.singleton_append]
      rw [pieces]
      · rw [if_neg hcontrol]
      all_goals simp_all

/-- A written text is read as the pieces of its characters, up to the quote that closes it. -/
theorem pieces_write (text rest : List Char) :
    pieces (text.flatMap writeChar ++ '"' :: rest) = (text.map pieceOf, .ok rest) := by
  induction text with
  | nil => simp [pieces]
  | cons c text ih => rw [List.flatMap_cons, List.append_assoc, pieces_writeChar, ih]; rfl

/-- A piece in front of others is joined to them as the character it was written for. -/
theorem joinPieces_pieceOf (c : Char) (last : Except Fault Unit) (rest : List Piece) :
    joinPieces last (pieceOf c :: rest) = (joinPieces last rest).map (c :: ·) := by
  unfold pieceOf
  split
  · next h =>
    -- a control is neither the first nor the second unit of a pair
    have hcontrol : c.toNat < 0x20 := by simp_all
    have hleading : isLeading c.toNat = false := by simp [isLeading]; omega
    have htrailing : isTrailing c.toNat = false := by simp [isTrailing]; omega
    have hc : Char.ofNat c.toNat = c := Char.ofNat_toNat c
    match rest with
    | [] => cases last <;> simp [joinPieces, hleading, htrailing, hc, Except.map]
    | .char d :: rest => simp [joinPieces, hleading, htrailing, hc]
    | .unit code :: rest => simp [joinPieces, hleading, htrailing, hc]
  · rw [joinPieces]

/-- The pieces of a text are joined to its characters. -/
theorem joinPieces_map_pieceOf (text : List Char) : joinPieces (.ok ()) (text.map pieceOf) = .ok text := by
  induction text with
  | nil => rfl
  | cons c text ih => rw [List.map_cons, joinPieces_pieceOf, ih]; rfl

/-- A written text is read back behind its opening quote, whatever follows it. -/
theorem textContent_write (text rest : List Char) :
    textContent (text.flatMap writeChar ++ '"' :: rest) = .ok (String.ofList text) := by
  simp only [textContent, pieces_write]
  exact congrArg (Except.map String.ofList) (joinPieces_map_pieceOf text)

/-- The node of a written text, and what follows it. -/
theorem spanText_write (text rest : List Char) :
    spanText (text.flatMap writeChar ++ '"' :: rest) = (.text (.ok (String.ofList text)), some rest) := by
  simp only [spanText, pieces_write, textContent_write]

end FlightPlanner.Json
