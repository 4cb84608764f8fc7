/-!
# Hexadecimal digits

Numbers and characters written in base sixteen, with letters of either case.
-/

namespace FlightPlanner.Text

/-- A number in hexadecimal digits, the letters small. -/
def hexadecimal (n : Nat) : String := String.ofList (Nat.toDigits 16 n)

/-- The value of a hexadecimal digit. -/
def hexValue? (c : Char) : Option Nat :=
  if c.isDigit then some (c.toNat - '0'.toNat)
  else if 'a' ≤ c ∧ c ≤ 'f' then some (c.toNat - 'a'.toNat + 10)
  else if 'A' ≤ c ∧ c ≤ 'F' then some (c.toNat - 'A'.toNat + 10)
  else none

/-- The number of some hexadecimal digits. -/
def hexNumber? (digits : List Char) : Option Nat :=
  digits.foldlM (fun n c => (hexValue? c).map (16 * n + ·)) 0

/-- The character with the given number, if there is one. -/
def charOf? (n : Nat) : Option Char :=
  if h : n.isValidChar then some (Char.ofNatAux n h) else none

/-- The character whose number stands in so many digits in front of a text, and the rest. -/
def spanNumbered? (width : Nat) (text : List Char) : Option (Char × List Char) :=
  if text.length < width then none
  else do
    let c ← charOf? (← hexNumber? (text.take width))
    some (c, text.drop width)

/-- A character has its own number. -/
theorem charOf?_toNat (c : Char) : charOf? c.toNat = some c := by
  have h : c.toNat.isValidChar := c.valid
  exact dif_pos h

end FlightPlanner.Text
