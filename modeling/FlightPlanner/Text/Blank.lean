/-!
# Blank characters

The white space of Unicode: the twenty-five characters that separate words and lines. It contains the white
space of ASCII, to which core's class is limited.
-/

namespace FlightPlanner.Text

/-- Whether a character is white space: tabulator, line feed, vertical tabulator, form feed, carriage return,
space, next line, no-break space, and the spaces and separators of the general blocks. -/
def isBlank (c : Char) : Bool :=
  let n := c.toNat
  (9 ≤ n && n ≤ 13) || n = 0x20 || n = 0x85 || n = 0xA0 || n = 0x1680 || (0x2000 ≤ n && n ≤ 0x200A) ||
    n = 0x2028 || n = 0x2029 || n = 0x202F || n = 0x205F || n = 0x3000

/-- The white space of core's class is blank. -/
theorem isBlank_of_isWhitespace {c : Char} (h : c.isWhitespace = true) : isBlank c = true := by
  simp only [Char.isWhitespace, Bool.or_eq_true, decide_eq_true_eq] at h
  rcases h with ((rfl | rfl) | rfl) | rfl <;> decide

/-- A digit is no blank. -/
theorem isBlank_of_isDigit {c : Char} (h : c.isDigit = true) : isBlank c = false := by
  have hrange : 48 ≤ c.toNat ∧ c.toNat ≤ 57 := by
    simp [Char.isDigit] at h
    exact ⟨h.1, h.2⟩
  unfold isBlank
  simp
  omega

/-- A text without the blanks in front of it. -/
def trimStart (text : List Char) : List Char := text.dropWhile isBlank

/-- Nothing is trimmed in front of a character that is no blank. -/
theorem trimStart_cons {c : Char} (h : isBlank c = false) (rest : List Char) : trimStart (c :: rest) = c :: rest := by
  simp [trimStart, h]

/-- Blanks in front of a text are trimmed. -/
theorem trimStart_append {blanks : List Char} (h : ∀ c ∈ blanks, isBlank c = true) (text : List Char) :
    trimStart (blanks ++ text) = trimStart text := List.dropWhile_append_of_pos h

/-- A text without the blanks behind it. -/
def trimEnd (text : List Char) : List Char := (text.reverse.dropWhile isBlank).reverse

/-- A text without the blanks on either side. -/
def trim (text : List Char) : List Char := trimEnd (trimStart text)

end FlightPlanner.Text
