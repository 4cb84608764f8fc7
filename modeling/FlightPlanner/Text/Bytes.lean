/-!
# Places in a text

A place in a text is given by the number of bytes in front of it. Cutting a text at a place loses nothing,
and a place between two characters is where the cut is made. A place that was found by looking for a character
is one of these.
-/

namespace FlightPlanner.Text

/-- The number of bytes in which a text is held. -/
def byteCount : List Char → Nat
  | [] => 0
  | c :: rest => c.utf8Size + byteCount rest

/-- What stands behind a place in a text. -/
def behind : (place : Nat) → List Char → List Char
  | 0, text => text
  | _, [] => []
  | place + 1, c :: rest => behind (place + 1 - c.utf8Size) rest

/-- What stands in front of a place in a text. -/
def before : (place : Nat) → List Char → List Char
  | 0, _ => []
  | _, [] => []
  | place + 1, c :: rest => c :: before (place + 1 - c.utf8Size) rest

/-- What stands between two places in a text. -/
def between (first last : Nat) (text : List Char) : List Char := before (last - first) (behind first text)

/-- The place of the first character of a kind. -/
def placeOf? (kind : Char → Bool) : List Char → Option Nat
  | [] => none
  | c :: rest => if kind c then some 0 else (placeOf? kind rest).map (c.utf8Size + ·)

/-- What stands in front of a place, if this is no place within a character or behind the end of the text. -/
def upTo? : (place : Nat) → List Char → Option (List Char)
  | 0, _ => some []
  | _, [] => none
  | place + 1, c :: rest =>
    if c.utf8Size ≤ place + 1 then (upTo? (place + 1 - c.utf8Size) rest).map (c :: ·) else none

/-- The bytes of two texts are those of their join. -/
theorem byteCount_append (left right : List Char) :
    byteCount (left ++ right) = byteCount left + byteCount right := by
  induction left with
  | nil => simp [byteCount]
  | cons c rest ih => simp only [List.cons_append, byteCount, ih]; omega

/-- Cutting a text loses nothing. -/
theorem before_append_behind (place : Nat) (text : List Char) :
    before place text ++ behind place text = text := by
  induction text generalizing place with
  | nil => cases place <;> rfl
  | cons c rest ih => cases place <;> simp [before, behind, ih]

/-- Behind the last byte of a text stands what follows it. -/
theorem behind_append (left right : List Char) : behind (byteCount left) (left ++ right) = right := by
  induction left with
  | nil => simp [byteCount, behind]
  | cons c rest ih =>
    have hc := c.utf8Size_pos
    obtain ⟨n, hn⟩ : ∃ n, c.utf8Size + byteCount rest = n + 1 := ⟨c.utf8Size + byteCount rest - 1, by omega⟩
    have hr : n + 1 - c.utf8Size = byteCount rest := by omega
    simp only [List.cons_append, byteCount, hn, behind, hr, ih]

/-- In front of the last byte of a text stands the text itself. -/
theorem before_append (left right : List Char) : before (byteCount left) (left ++ right) = left := by
  have h := before_append_behind (byteCount left) (left ++ right)
  rw [behind_append] at h
  exact List.append_cancel_right h

/-- A text can be cut at the first character of a kind, or at its end where it has none, and what stands in front are
the characters before. -/
theorem upTo?_placeOf? (kind : Char → Bool) (text : List Char) :
    upTo? ((placeOf? kind text).getD (byteCount text)) text = some (text.takeWhile (!kind ·)) := by
  induction text with
  | nil => rfl
  | cons c rest ih =>
    unfold placeOf?
    split
    · next hkind => simp [upTo?, hkind]
    · next hkind =>
      have hplace : ((placeOf? kind rest).map (c.utf8Size + ·)).getD (byteCount (c :: rest)) =
          c.utf8Size + (placeOf? kind rest).getD (byteCount rest) := by
        cases placeOf? kind rest <;> rfl
      have hc := c.utf8Size_pos
      obtain ⟨place, hsucc⟩ : ∃ place, c.utf8Size + (placeOf? kind rest).getD (byteCount rest) = place + 1 :=
        ⟨c.utf8Size + (placeOf? kind rest).getD (byteCount rest) - 1, by omega⟩
      have hrest : place + 1 - c.utf8Size = (placeOf? kind rest).getD (byteCount rest) := by omega
      have hfits : c.utf8Size ≤ place + 1 := by omega
      rw [hplace, hsucc, upTo?, if_pos hfits, hrest, ih]
      simp [hkind]

/-- The place of the first character of a kind is the front only if there is nothing before. -/
theorem placeOf?_eq_zero_iff (kind : Char → Bool) (text : List Char) :
    (placeOf? kind text).getD (byteCount text) = 0 ↔ text.takeWhile (!kind ·) = [] := by
  cases text with
  | nil => simp [placeOf?, byteCount]
  | cons c rest =>
    have hc := c.utf8Size_pos
    unfold placeOf?
    split
    · next hkind => simp [hkind]
    · next hkind =>
      have hne : ((placeOf? kind rest).map (c.utf8Size + ·)).getD (byteCount (c :: rest)) ≠ 0 := by
        cases placeOf? kind rest <;> simp [byteCount] <;> omega
      simp [hkind, hne]

end FlightPlanner.Text
