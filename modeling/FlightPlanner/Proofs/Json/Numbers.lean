import FlightPlanner.Json.Number
import FlightPlanner.Proofs.Binary64.Views
import FlightPlanner.Proofs.Decimal.Digits

/-!
# Written numbers are read back

A number in digits, with or without digits after a point and a power of ten, is spanned to its last character: what
follows it must not go on with a number. The written forms of whole numbers and of finite doubles are such numbers,
and the literals that they are read as are named here.
-/

namespace FlightPlanner.Json

open Decimal

/-- The written form of the digits after the point. -/
def fractionText : Option (List Char) → List Char
  | some digits => '.' :: digits
  | none => []

/-- The written form of the power of ten. -/
def powerText : Option Int → List Char
  | some power => 'e' :: (if power < 0 then '-' else '+') :: Nat.toDigits 10 power.natAbs
  | none => []

/-- The written form of a number. -/
def Literal.write (n : Literal) : List Char :=
  (if n.negative then ['-'] else []) ++ (n.whole ++ (fractionText n.fraction ++ powerText n.power))

/-- What the parts of a written number are like. -/
structure Literal.IsProper (n : Literal) : Prop where
  /-- Only digits stand before the point. -/
  whole : ∀ c ∈ n.whole, c.isDigit = true
  /-- There is one. -/
  whole_ne : n.whole ≠ []
  /-- A zero in front stands alone. -/
  zero : n.whole.head? = some '0' → n.whole = ['0']
  /-- Only digits stand after the point. -/
  fraction : ∀ digits ∈ n.fraction, ∀ c ∈ digits, c.isDigit = true
  /-- There is one, if there is a point. -/
  fraction_ne : ∀ digits ∈ n.fraction, digits ≠ []

/-- What follows a number: nothing with which a number could go on. -/
def EndsNumber (rest : List Char) : Prop :=
  ∀ c ∈ rest.head?, c.isDigit = false ∧ c ≠ '.' ∧ c ≠ 'e' ∧ c ≠ 'E'

variable {rest : List Char}

/-- Digits before the point are spanned, if no digit follows and a zero in front stands alone. -/
theorem spanWhole_append {digits : List Char} (hdigits : ∀ c ∈ digits, c.isDigit = true) (hne : digits ≠ [])
    (hzero : digits.head? = some '0' → digits = ['0']) (hrest : ∀ c ∈ rest.head?, c.isDigit = false) :
    spanWhole (digits ++ rest) = .ok (digits, rest) := by
  cases digits with
  | nil => exact absurd rfl hne
  | cons c digits =>
    by_cases hc : c = '0'
    · subst hc
      obtain rfl : digits = [] := by simpa using hzero rfl
      cases rest with
      | nil => rfl
      | cons d rest =>
        have hd : d.isDigit = false := hrest d rfl
        simp [spanWhole, hd]
    · have hspan := spanDigits_append hdigits hrest
      rw [List.cons_append] at hspan ⊢
      unfold spanWhole
      split
      · next heq => exact absurd (List.cons.inj heq).1 hc
      · simp [hspan]

/-- Digits behind a point are spanned, if no digit follows; without a point there are none. -/
theorem spanFraction_append {fraction : Option (List Char)}
    (hdigits : ∀ digits ∈ fraction, ∀ c ∈ digits, c.isDigit = true) (hne : ∀ digits ∈ fraction, digits ≠ [])
    (hrest : ∀ c ∈ rest.head?, c.isDigit = false ∧ c ≠ '.') :
    spanFraction (fractionText fraction ++ rest) = .ok (fraction, rest) := by
  cases fraction with
  | none =>
    cases rest with
    | nil => rfl
    | cons c rest =>
      have hc := (hrest c rfl).2
      simp [fractionText, spanFraction, hc]
  | some digits =>
    have hspan := spanDigits_append (hdigits digits rfl) fun c hc => (hrest c hc).1
    have hdigit : digits.isEmpty = false := by simpa using hne digits rfl
    simp [fractionText, spanFraction, hspan, hdigit]

/-- A power of ten behind its mark is spanned, if no digit follows; without a mark there is none. -/
theorem spanPower_append (power : Option Int) (hrest : EndsNumber rest) :
    spanPower (powerText power ++ rest) = .ok (power, rest) := by
  cases power with
  | none =>
    cases rest with
    | nil => rfl
    | cons c rest =>
      have hc := hrest c rfl
      simp [powerText, spanPower, hc]
  | some power =>
    have hdigits : ∀ c ∈ Nat.toDigits 10 power.natAbs, c.isDigit = true := fun _ => isDigit_toDigits
    have hspan := spanDigits_append hdigits fun c hc => (hrest c hc).1
    have hdigit : (Nat.toDigits 10 power.natAbs).isEmpty = false := by simp
    by_cases hneg : power < 0
    · obtain ⟨n, rfl⟩ := Int.exists_eq_neg_ofNat (Int.le_of_lt hneg)
      rw [Int.natAbs_neg, Int.natAbs_natCast] at hspan hdigit
      have hpos : 0 < n := by omega
      simp [powerText, spanPower, spanSign, hpos, hspan, hdigit]
    · have hpower : (power.natAbs : Int) = power := by omega
      simp [powerText, spanPower, spanSign, hneg, hspan, hdigit, hpower]

/-- A number with its parts is spanned to its end. -/
theorem Literal.span_write {n : Literal} (h : n.IsProper) (hrest : EndsNumber rest) :
    Literal.span (n.write ++ rest) = .ok (n, rest) := by
  have hpower : ∀ c ∈ (powerText n.power ++ rest).head?, c.isDigit = false ∧ c ≠ '.' := by
    cases hn : n.power with
    | none => exact fun c hc => ⟨(hrest c hc).1, (hrest c hc).2.1⟩
    | some power => simp [powerText]
  have hfraction : ∀ c ∈ (fractionText n.fraction ++ (powerText n.power ++ rest)).head?, c.isDigit = false := by
    cases hn : n.fraction with
    | none => exact fun c hc => (hpower c hc).1
    | some digits => simp [fractionText]
  have hwhole := spanWhole_append h.whole h.whole_ne h.zero hfraction
  have hparts := spanFraction_append h.fraction h.fraction_ne hpower
  have hlast := spanPower_append n.power hrest
  obtain ⟨negative, whole, fraction, power⟩ := n
  cases negative with
  | true => simp [Literal.write, Literal.span, hwhole, hparts, hlast, bind, Except.bind]
  | false =>
    -- a digit in front is no sign
    cases whole with
    | nil => exact absurd rfl h.whole_ne
    | cons c digits =>
      have hc : c ≠ '-' := by
        rintro rfl
        exact absurd (h.whole '-' (by simp)) (by decide)
      rw [List.cons_append] at hwhole
      simp [Literal.write, Literal.span, hc, hwhole, hparts, hlast, bind, Except.bind]

/-- The literal that a whole number is written as. -/
def integerLiteral (value : Int) : Literal := ⟨value < 0, Nat.toDigits 10 value.natAbs, none, none⟩

/-- A whole number is written as its literal. -/
theorem write_integerLiteral (value : Int) : (integerLiteral value).write = (toString value).toList := by
  cases value with
  | ofNat n =>
    have htext : toString (Int.ofNat n) = toString n := rfl
    have hsign : ¬ Int.ofNat n < 0 := Int.not_lt.2 (Int.natCast_nonneg n)
    rw [htext, toList_toString]
    simp [integerLiteral, Literal.write, fractionText, powerText]
  | negSucc n =>
    have htext : toString (Int.negSucc n) = "-" ++ toString (n + 1) := rfl
    rw [htext, String.toList_append, toList_toString]
    simp [integerLiteral, Literal.write, fractionText, powerText]

/-- The digits of a number are proper digits before a point. -/
theorem toDigits_zero {n : Nat} (h : (Nat.toDigits 10 n).head? = some '0') : Nat.toDigits 10 n = ['0'] := by
  obtain rfl | hpos := Nat.eq_zero_or_pos n
  · rfl
  · exact absurd h (head?_toDigits_ne hpos)

/-- The literal of a whole number is proper. -/
theorem isProper_integerLiteral (value : Int) : (integerLiteral value).IsProper where
  whole _ := isDigit_toDigits
  whole_ne := Nat.toDigits_ne_nil
  zero := toDigits_zero
  fraction := by simp [integerLiteral]
  fraction_ne := by simp [integerLiteral]

/-- The literal of a whole number denotes it, if eight bytes hold it. -/
theorem value_integerLiteral {value : Int} (hlow : -0x8000000000000000 ≤ value) (hhigh : value ≤ 0xFFFFFFFFFFFFFFFF) :
    (integerLiteral value).value = .ok (.whole value) := by
  unfold Literal.value
  by_cases hneg : value < 0
  · obtain ⟨n, rfl⟩ := Int.exists_eq_neg_ofNat (Int.le_of_lt hneg)
    have hpos : 0 < n := by omega
    have hfits : n ≤ 0x8000000000000000 := by omega
    simp [integerLiteral, hpos, hfits]
  · have hvalue : (value.natAbs : Int) = value := by omega
    have hfits : value.natAbs ≤ greatestSignificand := by
      unfold greatestSignificand
      omega
    simp [integerLiteral, hneg, hfits, hvalue]

/-- The literal of digits and a power of ten in the form of data files. -/
def dataLiteral (negative : Bool) (found : Digits) : Literal :=
  let digits := Nat.toDigits 10 found.digits
  let power := found.exponent + digits.length - 1
  let places := (-found.exponent).toNat
  if power < -5 || 15 < power then
    ⟨negative, digits.take 1, if (digits.drop 1).isEmpty then none else some (digits.drop 1), some power⟩
  else if 0 ≤ found.exponent then ⟨negative, digits ++ List.replicate found.exponent.toNat '0', some ['0'], none⟩
  else if digits.length ≤ places then
    ⟨negative, ['0'], some (List.replicate (places - digits.length) '0' ++ digits), none⟩
  else ⟨negative, digits.take (digits.length - places), some (digits.drop (digits.length - places)), none⟩

/-- The literal that a finite double is written as. -/
def realLiteral (x : Float) : Literal :=
  match Binary64.view x with
  | .finite negative mantissa exponent =>
    if mantissa = 0 then ⟨negative, ['0'], some ['0'], none⟩
    else dataLiteral negative (shortest .even mantissa exponent)
  | _ => ⟨false, ['0'], none, none⟩

/-- The sign in front of a number. -/
theorem toList_minus (negative : Bool) : (minus negative).toList = if negative then ['-'] else [] := by
  cases negative <;> rfl

/-- Digits and a power of ten are written in the form of data files as their literal. -/
theorem write_dataLiteral (negative : Bool) (found : Digits) :
    (dataLiteral negative found).write =
      (minus negative ++ (if found.exponent + (toString found.digits).length - 1 < -5 ||
          15 < found.exponent + (toString found.digits).length - 1 then
        writeScaled (toString found.digits) (found.exponent + (toString found.digits).length - 1)
      else Layout.data.writeOut (toString found.digits) found.exponent)).toList := by
  have hlength : (toString found.digits).length = (Nat.toDigits 10 found.digits).length := by
    rw [← String.length_toList, toList_toString]
  rw [String.toList_append, toList_minus, hlength]
  unfold dataLiteral
  simp only
  split
  · generalize found.exponent + ((Nat.toDigits 10 found.digits).length : Int) - 1 = power
    have hpoint : ".".toList = ['.'] := rfl
    have hdown : "e-".toList = ['e', '-'] := rfl
    have hup : "e+".toList = ['e', '+'] := rfl
    unfold writeScaled
    simp only [toList_toString]
    generalize (Nat.toDigits 10 found.digits).drop 1 = fraction
    cases fraction <;> by_cases hneg : power < 0 <;>
      simp [Literal.write, powerText, fractionText, hneg, hpoint, hdown, hup]
  · have hpoint : ".".toList = ['.'] := rfl
    have hzero : "0.".toList = ['0', '.'] := rfl
    have hwhole : ".0".toList = ['.', '0'] := rfl
    unfold Layout.writeOut
    simp only [hlength]
    split
    · simp [Literal.write, powerText, fractionText, zeros, Layout.data, hwhole]
    · split <;> simp [Literal.write, powerText, fractionText, zeros, hpoint, hzero]

/-- Zeros are digits. -/
theorem isDigit_of_mem_zeros {count : Nat} {c : Char} (h : c ∈ List.replicate count '0') : c.isDigit = true := by
  rw [List.eq_of_mem_replicate h]
  rfl

/-- What starts like some digits does not start with a zero when they do not. -/
theorem take_leading {digits : List Char} (hne : digits ≠ []) (hhead : digits.head? ≠ some '0') {count : Nat}
    (hcount : 0 < count) : digits.take count ≠ [] ∧ (digits.take count).head? ≠ some '0' := by
  obtain ⟨c, rest, rfl⟩ := List.exists_cons_of_ne_nil hne
  obtain ⟨count, rfl⟩ := Nat.exists_eq_succ_of_ne_zero (Nat.ne_of_gt hcount)
  exact ⟨by simp, by simpa using hhead⟩

/-- The literal of digits that are not none is proper. -/
theorem isProper_dataLiteral (negative : Bool) {found : Digits} (h : 0 < found.digits) :
    (dataLiteral negative found).IsProper := by
  have hdigits : ∀ c ∈ Nat.toDigits 10 found.digits, c.isDigit = true := fun _ => isDigit_toDigits
  have hne : Nat.toDigits 10 found.digits ≠ [] := Nat.toDigits_ne_nil
  have hhead := head?_toDigits_ne h
  unfold dataLiteral
  generalize Nat.toDigits 10 found.digits = digits at hdigits hne hhead ⊢
  have htake : ∀ count, ∀ c ∈ digits.take count, c.isDigit = true := fun _ c hc => hdigits c (List.mem_of_mem_take hc)
  have hdrop : ∀ count, ∀ c ∈ digits.drop count, c.isDigit = true := fun _ c hc => hdigits c (List.mem_of_mem_drop hc)
  simp only
  split
  · obtain ⟨hfirst, hzero⟩ := take_leading hne hhead (by decide : 0 < 1)
    refine ⟨htake 1, hfirst, fun h => absurd h hzero, ?_, ?_⟩
    · intro fraction hfraction
      split at hfraction
      · contradiction
      · obtain rfl := Option.some.inj hfraction
        exact hdrop 1
    · intro fraction hfraction
      split at hfraction
      · contradiction
      · next hrest =>
        obtain rfl := Option.some.inj hfraction
        simpa using hrest
  · split
    · refine ⟨?_, by simp [hne], fun h => absurd h ?_, by simp, by simp⟩
      · intro c hc
        obtain hc | hc := List.mem_append.1 hc
        · exact hdigits c hc
        · exact isDigit_of_mem_zeros hc
      · obtain ⟨c, rest, rfl⟩ := List.exists_cons_of_ne_nil hne
        exact hhead
    · split
      · refine ⟨by simp, by simp, fun _ => rfl, ?_, ?_⟩
        · rintro fraction ⟨rfl⟩ c hc
          obtain hc | hc := List.mem_append.1 hc
          · exact isDigit_of_mem_zeros hc
          · exact hdigits c hc
        · rintro fraction ⟨rfl⟩
          simp [hne]
      · next hlong =>
        have hcount : 0 < digits.length - (-found.exponent).toNat := by omega
        obtain ⟨hwhole, hzero⟩ := take_leading hne hhead hcount
        refine ⟨htake _, hwhole, fun h => absurd h hzero, ?_, ?_⟩
        · rintro fraction ⟨rfl⟩
          exact hdrop _
        · rintro fraction ⟨rfl⟩
          simp
          omega

/-- A finite double is written in the form of data files as its literal. -/
theorem write_realLiteral {x : Float} (h : x.isFinite = true) :
    (realLiteral x).write = (Layout.data.write x).toList := by
  obtain ⟨negative, mantissa, exponent, hview⟩ := Binary64.exists_view_of_isFinite h
  simp only [realLiteral, Layout.write, hview]
  split
  · cases negative <;> rfl
  · exact write_dataLiteral _ _

end FlightPlanner.Json
