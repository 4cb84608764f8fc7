import FlightPlanner.Flight.Duration
import FlightPlanner.Proofs.Binary64.Nearest
import FlightPlanner.Proofs.Decimal.Digits

/-!
# The numbers that durations start with

A duration has a magnitude just when it starts with a number: blanks, at most one sign, and a digit. The magnitude is
that of the longest run of digits, correctly rounded, and nothing else in the label plays a role. The digits can always
be cut off behind their last byte, because the place was found between two characters.
-/

namespace FlightPlanner.Duration

open Binary64 Decimal

/-- What may stand in front of the digits. -/
inductive Sign where
  /-- No sign at all. -/
  | absent
  /-- A plus sign. -/
  | plus
  /-- A minus sign. -/
  | minus
deriving DecidableEq

/-- The written form of a sign. -/
def Sign.text : Sign → List Char
  | .absent => []
  | .plus => ['+']
  | .minus => ['-']

/-- Whether a sign makes a number negative. -/
def Sign.negative : Sign → Bool
  | .minus => true
  | _ => false

/-- A label that starts with a number, in its parts. -/
structure LeadingNumber where
  /-- The white space in front. -/
  blanks : List Char
  /-- The sign. -/
  sign : Sign
  /-- The digits. -/
  digits : List Char
  /-- Whatever follows them. -/
  rest : List Char
  /-- In front there is white space only. -/
  blank : ∀ c ∈ blanks, Text.isBlank c = true
  /-- The digits are digits. -/
  digit : ∀ c ∈ digits, c.isDigit = true
  /-- There is one at least. -/
  nonempty : digits ≠ []
  /-- All of them are taken: what follows does not start with another one. -/
  longest : ∀ c ∈ rest.head?, c.isDigit = false

/-- A text has a sign in front, or none, and is split behind it. -/
theorem spanSign_cases (text : List Char) :
    ∃ (sign : Sign) (rest : List Char), text = sign.text ++ rest ∧ spanSign text = (sign.negative, rest) := by
  unfold spanSign
  split
  · next rest => exact ⟨.minus, rest, rfl, rfl⟩
  · next rest => exact ⟨.plus, rest, rfl, rfl⟩
  · exact ⟨.absent, text, rfl, rfl⟩

/-- A sign is split off what does not start with one. -/
theorem spanSign_append (sign : Sign) {rest : List Char} (h : ∀ c ∈ rest.head?, c ≠ '-' ∧ c ≠ '+') :
    spanSign (sign.text ++ rest) = (sign.negative, rest) := by
  cases sign with
  | absent => exact spanSign_of_head h
  | plus => rfl
  | minus => rfl

namespace LeadingNumber

/-- The label. -/
def label (n : LeadingNumber) : String := String.ofList (n.blanks ++ (n.sign.text ++ (n.digits ++ n.rest)))

/-- The double of the digits, with the sign in front of it. -/
def value (n : LeadingNumber) : Float := Decimal.signed n.sign.negative (ofNat (ofDigits n.digits))

/-- Behind the blanks and the sign of the label stand the digits. -/
theorem spanSign_trimStart (n : LeadingNumber) :
    spanSign (Text.trimStart n.label.toList) = (n.sign.negative, n.digits ++ n.rest) := by
  obtain ⟨c, digits, hdigits⟩ := List.exists_cons_of_ne_nil n.nonempty
  have hdigit : c.isDigit = true := n.digit c (hdigits ▸ List.mem_cons_self)
  have htrim : Text.trimStart (n.sign.text ++ (n.digits ++ n.rest)) = n.sign.text ++ (n.digits ++ n.rest) := by
    cases n.sign with
    | absent =>
      rw [hdigits]
      exact Text.trimStart_cons (Text.isBlank_of_isDigit hdigit) _
    | plus => exact Text.trimStart_cons (by decide) _
    | minus => exact Text.trimStart_cons (by decide) _
  rw [label, String.toList_ofList, Text.trimStart_append n.blank, htrim]
  refine spanSign_append _ ?_
  rw [hdigits]
  rintro d ⟨rfl⟩
  exact ne_sign_of_isDigit hdigit

/-- The label has the magnitude that its digits and its sign give. -/
theorem magnitude?_label (n : LeadingNumber) : magnitude? n.label = some n.value := by
  have hspan := congrArg Prod.fst (spanDigits_append n.digit n.longest)
  have hne : n.digits.isEmpty = false := List.isEmpty_eq_false_iff.mpr n.nonempty
  simp only [spanDigits] at hspan
  have hminus := (isRounding_ofNat (ofDigits n.digits)).mul_sign.2
  simp only [magnitude?, leadingNumber?, n.spanSign_trimStart, hspan, hne, Bool.false_eq_true, if_false, value,
    Decimal.signed, hminus]

/-- A label with a magnitude starts with a number. -/
theorem exists_of_magnitude? {label : String} {magnitude : Float} (h : magnitude? label = some magnitude) :
    ∃ n : LeadingNumber, n.label = label := by
  obtain ⟨sign, behind, htext, hspan⟩ := spanSign_cases (Text.trimStart label.toList)
  have hblank : ∀ c ∈ label.toList.takeWhile Text.isBlank, Text.isBlank c = true := by
    intro c hc
    exact List.mem_takeWhile_imp hc
  have hdigit : ∀ c ∈ behind.takeWhile Char.isDigit, c.isDigit = true := by
    intro c hc
    exact List.mem_takeWhile_imp hc
  have hlongest : ∀ c ∈ (behind.dropWhile Char.isDigit).head?, c.isDigit = false := by
    intro c hc
    have hhead := List.head?_dropWhile_not Char.isDigit behind
    rw [hc] at hhead
    simpa using hhead
  simp only [magnitude?, leadingNumber?, hspan, Option.ite_none_left_eq_some, Bool.not_eq_true,
    List.isEmpty_eq_false_iff] at h
  refine ⟨⟨_, sign, _, _, hblank, hdigit, h.1, hlongest⟩, ?_⟩
  rw [LeadingNumber.label, List.takeWhile_append_dropWhile, ← htext]
  simp [Text.trimStart]

/-- Whether a double is what the digits are rounded to, with the sign in front of it. -/
def Denotes (n : LeadingNumber) (magnitude : Float) : Prop :=
  ∃ x, IsRounding x (ofDigits n.digits) ∧ magnitude = Decimal.signed n.sign.negative x

/-- The digits are rounded to one double only. -/
theorem denotes_iff (n : LeadingNumber) (magnitude : Float) : n.Denotes magnitude ↔ magnitude = n.value := by
  constructor
  · rintro ⟨x, hround, rfl⟩
    rw [hround.eq (isRounding_ofNat _), value]
  · intro h
    exact ⟨_, isRounding_ofNat _, h⟩

/-- Zeros put in front of the digits. -/
def withZeros (n : LeadingNumber) (count : ℕ) : LeadingNumber where
  blanks := n.blanks
  sign := n.sign
  digits := List.replicate count '0' ++ n.digits
  rest := n.rest
  blank := n.blank
  digit := by
    intro c hc
    obtain hzero | hdigit := List.mem_append.mp hc
    · rw [List.eq_of_mem_replicate hzero]
      rfl
    · exact n.digit c hdigit
  nonempty := List.append_ne_nil_of_right_ne_nil _ n.nonempty
  longest := n.longest

/-- They do not count. -/
theorem value_withZeros (n : LeadingNumber) (count : ℕ) : (n.withZeros count).value = n.value := by
  have hdigits : ofDigits (n.withZeros count).digits = ofDigits n.digits := by
    rw [withZeros, ofDigits_append, ofDigits_zeros, Nat.zero_mul, Nat.zero_add]
  rw [value, hdigits]
  rfl

/-- Another text behind the digits. -/
def withRest (n : LeadingNumber) (rest : List Char) (h : ∀ c ∈ rest.head?, c.isDigit = false) : LeadingNumber :=
  { n with rest := rest, longest := h }

end LeadingNumber

/-- A label has a magnitude just when it starts with a number. -/
theorem isSome_magnitude?_iff (label : String) :
    (magnitude? label).isSome = true ↔ ∃ n : LeadingNumber, n.label = label := by
  constructor
  · intro h
    obtain ⟨magnitude, hmagnitude⟩ := Option.isSome_iff_exists.mp h
    exact LeadingNumber.exists_of_magnitude? hmagnitude
  · rintro ⟨n, rfl⟩
    rw [n.magnitude?_label, Option.isSome_some]

/-- A label has a magnitude when it starts with a number, and then it has the one that this number denotes. -/
theorem magnitude?_eq_some_iff (label : String) (magnitude : Float) :
    magnitude? label = some magnitude ↔ ∃ n : LeadingNumber, n.label = label ∧ n.Denotes magnitude := by
  constructor
  · intro h
    obtain ⟨n, rfl⟩ := LeadingNumber.exists_of_magnitude? h
    rw [n.magnitude?_label] at h
    exact ⟨n, rfl, (n.denotes_iff magnitude).mpr (Option.some.inj h).symm⟩
  · rintro ⟨n, rfl, hdenotes⟩
    rw [n.magnitude?_label, (n.denotes_iff magnitude).mp hdenotes]

/-- Blanks in front do not count. -/
theorem magnitude?_blanks {blanks : List Char} (h : ∀ c ∈ blanks, Text.isBlank c = true) (text : List Char) :
    magnitude? (String.ofList (blanks ++ text)) = magnitude? (String.ofList text) := by
  simp only [magnitude?, String.toList_ofList, Text.trimStart_append h]

/-- A plus sign does not count where no other sign and no blank follows. -/
theorem magnitude?_plus {text : List Char} (h : ∀ c ∈ text.head?, Text.isBlank c = false ∧ c ≠ '-' ∧ c ≠ '+') :
    magnitude? (String.ofList ('+' :: text)) = magnitude? (String.ofList text) := by
  have hplus : Text.trimStart ('+' :: text) = '+' :: text := Text.trimStart_cons (by decide) text
  have htrim : Text.trimStart text = text := by
    cases text with
    | nil => rfl
    | cons c text => exact Text.trimStart_cons (h c rfl).1 text
  have hsign : spanSign text = (false, text) := spanSign_of_head fun c hc => (h c hc).2
  simp only [magnitude?, String.toList_ofList, hplus, htrim, leadingNumber?, hsign]
  rfl

/-- Digits are always cut off without fail, and then they are read as before. -/
theorem magnitudeByPlace?_eq (label : String) : magnitudeByPlace? label = some (magnitude? label) := by
  obtain ⟨sign, behind, -, hspan⟩ := spanSign_cases (Text.trimStart label.toList)
  have hcut := Text.upTo?_placeOf? (!Char.isDigit ·) behind
  have hfront := Text.placeOf?_eq_zero_iff (!Char.isDigit ·) behind
  simp only [Bool.not_not] at hcut hfront
  simp only [magnitudeByPlace?, leadingNumberByPlace?, magnitude?, leadingNumber?, hspan, hcut, hfront]
  have hdigits : ∀ c ∈ behind.takeWhile Char.isDigit, c.isDigit = true := fun c hc => List.mem_takeWhile_imp hc
  generalize behind.takeWhile Char.isDigit = digits at hdigits
  cases digits with
  | nil => rfl
  | cons c digits =>
    have hsign : spanSign (String.ofList (c :: digits)).toList = (false, c :: digits) := by
      rw [String.toList_ofList]
      refine spanSign_of_head ?_
      rintro d ⟨rfl⟩
      exact ne_sign_of_isDigit (hdigits c List.mem_cons_self)
    have hread := readReal?_of_digits hsign (List.cons_ne_nil _ _) hdigits
    obtain ⟨hone, hminus⟩ := (isRounding_ofNat (ofDigits (c :: digits))).mul_sign
    simp only [hread, ofDecimal_zero, reduceCtorEq, if_false, List.isEmpty_cons, Bool.false_eq_true, Option.map_some]
    cases sign.negative with
    | true => rfl
    | false => exact congrArg (fun x => some (some x)) hone

/-- A duration has a magnitude just when it starts with a number, and cutting the digits off never fails. The magnitude
is what the digits are rounded to, with the sign in front; blanks before it, a plus sign, zeros before the digits and
whatever follows them make no difference. -/
theorem magnitude?_grammar (label : String) :
    magnitudeByPlace? label = some (magnitude? label) ∧
      ((magnitude? label).isSome = true ↔ ∃ n : LeadingNumber, n.label = label) ∧
      (∀ magnitude, magnitude? label = some magnitude ↔
        ∃ n : LeadingNumber, n.label = label ∧ n.Denotes magnitude) ∧
      (∀ blanks : List Char, (∀ c ∈ blanks, Text.isBlank c = true) →
        magnitude? (String.ofList blanks ++ label) = magnitude? label) ∧
      (∀ blanks text : List Char, label = String.ofList (blanks ++ text) → (∀ c ∈ blanks, Text.isBlank c = true) →
        (∀ c ∈ text.head?, Text.isBlank c = false ∧ c ≠ '-' ∧ c ≠ '+') →
        magnitude? (String.ofList (blanks ++ '+' :: text)) = magnitude? label) ∧
      ∀ n : LeadingNumber, n.label = label →
        (∀ count, magnitude? (n.withZeros count).label = magnitude? label) ∧
          ∀ rest h, magnitude? (n.withRest rest h).label = magnitude? label := by
  refine ⟨magnitudeByPlace?_eq label, isSome_magnitude?_iff label, magnitude?_eq_some_iff label, ?_, ?_, ?_⟩
  · intro blanks hblanks
    have hjoin : String.ofList blanks ++ label = String.ofList (blanks ++ label.toList) := by simp
    rw [hjoin, magnitude?_blanks hblanks, String.ofList_toList]
  · rintro blanks text rfl hblanks htext
    rw [magnitude?_blanks hblanks, magnitude?_blanks hblanks, magnitude?_plus htext]
  · rintro n rfl
    refine ⟨fun count => ?_, fun rest h => ?_⟩
    · rw [LeadingNumber.magnitude?_label, LeadingNumber.magnitude?_label, n.value_withZeros]
    · rw [LeadingNumber.magnitude?_label, LeadingNumber.magnitude?_label]
      rfl

/-- A no-break space in front, and a plus sign, leave five hours five hours. -/
theorem magnitude?_grammar_five_hours :
    magnitude? "5h 15m" = some 5 ∧ magnitude? "\u00A0 5h 15m" = magnitude? "5h 15m" ∧
      magnitude? " +5h 15m" = magnitude? " 5h 15m" := by
  obtain ⟨-, -, -, hblanks, -, -⟩ := magnitude?_grammar "5h 15m"
  obtain ⟨-, -, -, -, hplus, -⟩ := magnitude?_grammar " 5h 15m"
  have hspaces : ∀ c ∈ ['\u00A0', ' '], Text.isBlank c = true :=
    List.forall_mem_cons.mpr ⟨by decide, List.forall_mem_singleton.mpr (by decide)⟩
  have hspace : ∀ c ∈ [' '], Text.isBlank c = true := List.forall_mem_singleton.mpr (by decide)
  have hdigit : ∀ c ∈ "5h 15m".toList.head?, Text.isBlank c = false ∧ c ≠ '-' ∧ c ≠ '+' := by
    rintro c ⟨rfl⟩
    decide
  exact ⟨by decide +kernel, hblanks _ hspaces, hplus [' '] "5h 15m".toList rfl hspace hdigit⟩

end FlightPlanner.Duration
