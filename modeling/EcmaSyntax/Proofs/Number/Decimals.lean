import EcmaSyntax.Number.Literal
import EcmaSyntax.Proofs.Number.ReadBack
import EcmaSyntax.Proofs.Text.Numerals
import Mathlib.Tactic.Tauto

/-! The texts that are read as decimal numbers: digits with a fraction or an exponent, which a sign may
precede. The names of infinity and of NaN are read as numbers too, but have characters of no literal.
-/

namespace EcmaSyntax

-----------------------------------------------------------------------------------------
-- Digits have values
-----------------------------------------------------------------------------------------

/-- Digits of the radix have a value if there are any. -/
theorem Text.isSome_digitsValue? {radix : Nat} {digits : List Char} (present : digits ≠ [])
    (valued : ∀ c ∈ digits, (digitValue? radix c).isSome)
    : (digitsValue? radix digits).isSome := by
  have folded (value : Nat) : (foldDigits? radix value digits).isSome := by
    clear present
    induction digits generalizing value with
    | nil => rfl
    | cons c rest ih =>
        obtain ⟨first, valued⟩ := List.forall_mem_cons.mp valued
        obtain ⟨digit, found⟩ := Option.isSome_iff_exists.mp first
        rw [foldDigits?, found, Option.bind_some]
        exact ih valued _
  rw [digitsValue?_of_ne_nil present]
  exact folded 0

/-- What has a value in a radix are its digits, one at least. -/
theorem Text.isSome_digitsValue?_iff {radix : Nat} {digits : List Char}
    : (digitsValue? radix digits).isSome
      ↔ digits ≠ [] ∧ ∀ c ∈ digits, (digitValue? radix c).isSome := by
  refine ⟨fun valued => ?_, fun ⟨present, valued⟩ => isSome_digitsValue? present valued⟩
  obtain ⟨value, valued⟩ := Option.isSome_iff_exists.mp valued
  have present : digits ≠ [] := by
    rintro rfl
    cases valued
  rw [digitsValue?_of_ne_nil present] at valued
  exact ⟨present, digit_of_foldDigits? valued⟩

/-- Digits of the radix add up to a magnitude if there are any. -/
theorem Magnitude.isSome_ofDigits? {radix : Nat} {digits : List Char} (present : digits ≠ [])
    (valued : ∀ c ∈ digits, (Text.digitValue? radix c).isSome)
    : (ofDigits? radix digits).isSome := by
  have appended (magnitude : Magnitude) : (appendDigits? radix magnitude digits).isSome := by
    clear present
    induction digits generalizing magnitude with
    | nil => rfl
    | cons c rest ih =>
        obtain ⟨first, valued⟩ := List.forall_mem_cons.mp valued
        obtain ⟨digit, found⟩ := Option.isSome_iff_exists.mp first
        rw [appendDigits?, found, Option.bind_some]
        exact ih valued _
  rw [ofDigits?, if_neg (by simpa using present)]
  exact appended zero

/-- What adds to a magnitude are digits of the radix. -/
theorem Magnitude.digit_of_appendDigits? {radix : Nat} {digits : List Char}
    {magnitude result : Magnitude} (appended : appendDigits? radix magnitude digits = some result)
    : ∀ c ∈ digits, (Text.digitValue? radix c).isSome := by
  induction digits generalizing magnitude with
  | nil => simp
  | cons c digits ih =>
      obtain ⟨digit, valued, appended⟩ := Option.bind_eq_some_iff.mp appended
      exact List.forall_mem_cons.mpr ⟨Option.isSome_of_eq_some valued, ih appended⟩

/-- What sums up to a magnitude are digits, at least one. -/
theorem Magnitude.digits_of_ofDigits? {radix : Nat} {digits : List Char}
    (summed : (ofDigits? radix digits).isSome)
    : digits ≠ [] ∧ ∀ c ∈ digits, (Text.digitValue? radix c).isSome := by
  rw [ofDigits?] at summed
  split at summed
  next => cases summed
  next present =>
    obtain ⟨magnitude, summed⟩ := Option.isSome_iff_exists.mp summed
    exact ⟨by simpa using present, digit_of_appendDigits? summed⟩

-----------------------------------------------------------------------------------------
-- The parts of decimal numbers
-----------------------------------------------------------------------------------------

theorem Number.isLiteralChar_of_isDigit {c : Char} (digit : Text.isDigit c) : isLiteralChar c := by
  simp [isLiteralChar, digit]

/-- The text is a fraction with the digits, behind a point, or there is no fraction. -/
inductive Text.IsFraction : List Char → List Char → Prop
  | none : IsFraction [] []
  | point {places : List Char} (digits : ∀ c ∈ places, isDigit c) : IsFraction ('.' :: places) places

/-- The text is an exponent, or there is none. -/
inductive Text.IsExponent : List Char → Prop
  | none : IsExponent []
  | marked {marker : Char} {sign digits : List Char} (marks : marker = 'e' ∨ marker = 'E')
    (signs : sign = [] ∨ sign = ['+'] ∨ sign = ['-']) (present : digits ≠ [])
    (valued : ∀ c ∈ digits, isDigit c)
    : IsExponent (marker :: (sign ++ digits))

namespace Text

variable {text places : List Char}

theorem IsFraction.characters (fraction : IsFraction text places)
    : ∀ c ∈ text, Number.isLiteralChar c := by
  cases fraction with
  | none => nofun
  | point digits =>
      exact List.forall_mem_cons.mpr
        ⟨by decide, fun c member => Number.isLiteralChar_of_isDigit (digits c member)⟩

theorem IsExponent.characters (ends : IsExponent text) : ∀ c ∈ text, Number.isLiteralChar c := by
  cases ends with
  | none => nofun
  | marked marks signs _ valued =>
      refine List.forall_mem_cons.mpr ⟨by rcases marks with rfl | rfl <;> decide, ?_⟩
      refine List.forall_mem_append.mpr ⟨?_, fun c member => ?_⟩
      · rcases signs with rfl | rfl | rfl <;> simp [Number.isLiteralChar]
      · exact Number.isLiteralChar_of_isDigit (valued c member)

/-- An exponent begins neither with a digit nor with a point. -/
theorem IsExponent.head (ends : IsExponent text) : ∀ c ∈ text.head?, isDigit c = false ∧ c ≠ '.' := by
  cases ends with
  | none => nofun
  | marked marks =>
      rintro c ⟨⟩
      rcases marks with rfl | rfl <;> decide

end Text

namespace Decimal

variable {text sign digits : List Char}

/-- Reading a sign takes nothing else away. -/
theorem exists_sign (text : List Char)
    : ∃ sign, text = sign ++ (readSign text).2 ∧ (sign = [] ∨ sign = ['+'] ∨ sign = ['-']) := by
  unfold readSign
  split
  · exact ⟨['+'], rfl, .inr (.inl rfl)⟩
  · exact ⟨['-'], rfl, .inr (.inr rfl)⟩
  · exact ⟨[], rfl, .inl rfl⟩

/-- A sign in front of digits is taken away. -/
theorem exists_readSign (signs : sign = [] ∨ sign = ['+'] ∨ sign = ['-']) (present : digits ≠ [])
    (valued : ∀ c ∈ digits, Text.isDigit c)
    : ∃ negative, readSign (sign ++ digits) = (negative, digits) := by
  rcases signs with rfl | rfl | rfl
  · obtain ⟨first, rest, rfl⟩ := List.exists_cons_of_ne_nil present
    exact ⟨false, readSign_of_isDigit (valued first List.mem_cons_self)⟩
  · exact ⟨false, rfl⟩
  · exact ⟨true, rfl⟩

/-- What is read as an exponent is one. -/
theorem isExponent_iff : Text.IsExponent text ↔ (readExponent? text).isSome := by
  constructor
  · intro isExponent
    cases isExponent with
    | none => rfl
    | @marked marker sign digits marks signs present valued =>
        obtain ⟨value, written⟩ := Option.isSome_iff_exists.mp (Text.isSome_digitsValue? present valued)
        obtain ⟨negative, signed⟩ := exists_readSign signs present valued
        simp only [readExponent?, Bool.or_eq_true, decide_eq_true_eq]
        rw [if_pos marks, signed]
        simp [written]
  · intro read
    cases text with
    | nil => exact .none
    | cons marker rest =>
        rw [readExponent?] at read
        split_ifs at read with marks
        · dsimp only at read
          rw [Option.isSome_map] at read
          obtain ⟨power, read⟩ := Option.isSome_iff_exists.mp read
          obtain ⟨value, valued, _⟩ := Option.bind_eq_some_iff.mp read
          obtain ⟨present, digits⟩ := Text.isSome_digitsValue?_iff.mp (Option.isSome_of_eq_some valued)
          obtain ⟨sign, same, signs⟩ := exists_sign rest
          rw [same]
          exact .marked (by simpa using marks) signs present digits
        · cases read

-----------------------------------------------------------------------------------------
-- Decimal numbers without sign
-----------------------------------------------------------------------------------------

/-- Digits, perhaps with a point before, between or after them, and perhaps an exponent. -/
def IsUnsigned (text : List Char) : Prop :=
  ∃ whole fraction places exponent,
    text = whole ++ (fraction ++ exponent)
    ∧ (∀ c ∈ whole, Text.isDigit c)
    ∧ Text.IsFraction fraction places
    ∧ whole ++ places ≠ []
    ∧ Text.IsExponent exponent

variable {whole fraction places exponent : List Char}

/-- What begins with no digit is left where digits are read. -/
theorem takeWhile_isDigit (outside : ∀ c ∈ text.head?, Text.isDigit c = false)
    : text.takeWhile Text.isDigit = [] ∧ text.dropWhile Text.isDigit = text := by
  cases text with
  | nil => exact ⟨rfl, rfl⟩
  | cons c rest => simp [outside c rfl]

/-- The digits in front of a fraction and an exponent are those that the text begins with. -/
theorem takeWhile_parts (digits : ∀ c ∈ whole, Text.isDigit c)
    (isFraction : Text.IsFraction fraction places) (isExponent : Text.IsExponent exponent)
    : (whole ++ (fraction ++ exponent)).takeWhile Text.isDigit = whole
      ∧ (whole ++ (fraction ++ exponent)).dropWhile Text.isDigit = fraction ++ exponent := by
  have outside : ∀ c ∈ (fraction ++ exponent).head?, Text.isDigit c = false := by
    cases isFraction with
    | none => exact fun c first => (isExponent.head c first).1
    | point =>
        rintro c ⟨⟩
        decide
  obtain ⟨taken, left⟩ := takeWhile_isDigit outside
  rw [List.takeWhile_append_of_pos digits, List.dropWhile_append_of_pos digits, taken, left,
    List.append_nil]
  exact ⟨rfl, rfl⟩

/-- Digits, perhaps with a fraction or an exponent, write a number. -/
theorem isSome_ofUnsignedText? (digits : ∀ c ∈ whole, Text.isDigit c)
    (isFraction : Text.IsFraction fraction places) (isExponent : Text.IsExponent exponent)
    (present : whole ++ places ≠ [])
    : (ofUnsignedText? (whole ++ (fraction ++ exponent))).isSome := by
  obtain ⟨taken, left⟩ := takeWhile_parts digits isFraction isExponent
  have afterFraction := takeWhile_isDigit fun c first => (isExponent.head c first).1
  have valued : ∀ c ∈ whole ++ places, Text.isDigit c := by
    cases isFraction with
    | none => simpa using digits
    | point inner => exact List.forall_mem_append.mpr ⟨digits, inner⟩
  obtain ⟨value, written⟩ := Option.isSome_iff_exists.mp (Text.isSome_digitsValue? present valued)
  obtain ⟨power, read⟩ := Option.isSome_iff_exists.mp (isExponent_iff.mp isExponent)
  simp only [ofUnsignedText?, taken, left]
  cases isFraction with
  | none =>
      split
      next rest same => exact absurd rfl (isExponent.head '.' (by simp_all)).2
      next => simp_all
  | point inner =>
      simp [List.takeWhile_append_of_pos inner, List.dropWhile_append_of_pos inner, afterFraction,
        written, read]

/-- What is read as a number without sign has the parts of one. -/
theorem isUnsigned_iff : IsUnsigned text ↔ (ofUnsignedText? text).isSome := by
  constructor
  · rintro ⟨whole, fraction, places, exponent, rfl, digits, isFraction, present, isExponent⟩
    exact isSome_ofUnsignedText? digits isFraction isExponent present
  · intro read
    have digits : ∀ c ∈ text.takeWhile Text.isDigit, Text.isDigit c := fun c => List.mem_takeWhile_imp
    have split := List.takeWhile_append_dropWhile (p := Text.isDigit) (l := text)
    obtain ⟨decimal, read⟩ := Option.isSome_iff_exists.mp read
    obtain ⟨value, valued, read⟩ := Option.bind_eq_some_iff.mp read
    obtain ⟨power, read, _⟩ := Option.map_eq_some_iff.mp read
    have parts := And.intro (Text.isSome_digitsValue?_iff.mp (Option.isSome_of_eq_some valued)).1
      (isExponent_iff.mpr (Option.isSome_of_eq_some read))
    split at parts
    next rest point =>
      obtain ⟨present, isExponent⟩ := parts
      have places := List.takeWhile_append_dropWhile (p := Text.isDigit) (l := rest)
      refine ⟨_, '.' :: rest.takeWhile Text.isDigit, _, _, ?_, digits,
        .point fun c => List.mem_takeWhile_imp, present, isExponent⟩
      rw [List.cons_append, places, ← point, split]
    next => exact ⟨_, [], [], _, split.symm, digits, .none, parts.1, parts.2⟩

/-- A decimal number without a sign has only characters that literals may have. -/
theorem IsUnsigned.characters (isUnsigned : IsUnsigned text) : ∀ c ∈ text, Number.isLiteralChar c := by
  obtain ⟨whole, fraction, places, exponent, rfl, digits, isFraction, _, isExponent⟩ := isUnsigned
  refine List.forall_mem_append.mpr ⟨fun c member => ?_, List.forall_mem_append.mpr ?_⟩
  · exact Number.isLiteralChar_of_isDigit (digits c member)
  · exact ⟨isFraction.characters, isExponent.characters⟩

/-- A number without sign begins with a digit or with a point. -/
theorem IsUnsigned.opens (isUnsigned : IsUnsigned text)
    : ∃ first rest, text = first :: rest ∧ (Text.isDigit first ∨ first = '.') := by
  obtain ⟨whole, fraction, places, exponent, rfl, digits, isFraction, present, _⟩ := isUnsigned
  cases whole with
  | cons first whole => exact ⟨first, _, rfl, .inl (digits first List.mem_cons_self)⟩
  | nil =>
      cases isFraction with
      | none => exact absurd rfl present
      | point => exact ⟨'.', _, rfl, .inr rfl⟩

/-- A point that a number begins with has a digit behind it. -/
theorem IsUnsigned.digit_of_point {rest : List Char} (isUnsigned : IsUnsigned ('.' :: rest))
    : rest.head?.any Text.isDigit := by
  obtain ⟨whole, fraction, places, exponent, same, digits, isFraction, present, _⟩ := isUnsigned
  cases whole with
  | cons first whole =>
      obtain ⟨rfl, _⟩ := List.cons.inj same
      exact absurd (digits '.' List.mem_cons_self) (by decide)
  | nil =>
      cases isFraction with
      | none => exact absurd rfl present
      | @point places inner =>
          obtain ⟨first, more, rfl⟩ := List.exists_cons_of_ne_nil present
          obtain ⟨_, rfl⟩ := List.cons.inj same
          simpa using inner first List.mem_cons_self

/-- A text that opens with a digit or a point has no sign to be read. -/
theorem readSign_of_opens {first : Char} {rest : List Char}
    (opens : Text.isDigit first ∨ first = '.')
    : readSign (first :: rest) = (false, first :: rest) := by
  rcases opens with digit | rfl
  · exact readSign_of_isDigit digit
  · rfl

end Decimal

-----------------------------------------------------------------------------------------
-- Numbers with and without sign
-----------------------------------------------------------------------------------------

namespace Number

/-- The words for numbers are those of infinity and of NaN. -/
theorem isSome_ofWord?_iff {negative : Bool} {name : List Char}
    : (ofWord? negative (String.ofList name)).isSome
      ↔ name ∈ ["inf".toList, "infinity".toList, "nan".toList] := by
  have same (other : String) : String.ofList name = other ↔ name = other.toList := by
    rw [← String.toList_inj, String.toList_ofList]
  unfold ofWord?
  simp only [Bool.or_eq_true, decide_eq_true_eq, same, List.mem_cons, List.not_mem_nil, or_false]
  split_ifs with infinite nan
  · simp only [Option.isSome_some, true_iff]
    tauto
  · simp [nan]
  · simp
    tauto

/-- What begins with a digit or with a point is no name. -/
theorem ofWord?_of_opens {negative : Bool} {first : Char} {rest : List Char}
    (opens : Text.isDigit first ∨ first = '.')
    : ofWord? negative (String.ofList ((first :: rest).map Char.toLower)) = none := by
  have lower : first.toLower = first ∧ first ≠ 'i' ∧ first ≠ 'n' := by
    rcases opens with digit | rfl
    · have range := Text.isDigit_iff.mp digit
      have ne {other : Char} (letter : 57 < other.toNat) : first ≠ other := by
        rintro rfl
        omega
      refine ⟨?_, ne (by decide), ne (by decide)⟩
      unfold Char.toLower
      rw [dif_neg]
      intro letter
      have : 'A'.toNat ≤ first.toNat := letter.1
      have : 'A'.toNat = 65 := rfl
      omega
    · decide
  rw [← Option.not_isSome_iff_eq_none, isSome_ofWord?_iff, List.map_cons, lower.1]
  simp [lower.2]

/-- The characters of literals spell no name, since every name has an n in it. -/
theorem ofWord?_of_characters {negative : Bool} {word : List Char}
    (characters : ∀ c ∈ word, isLiteralChar c)
    : ofWord? negative (String.ofList (word.map Char.toLower)) = none := by
  rw [← Option.not_isSome_iff_eq_none, isSome_ofWord?_iff]
  intro listed
  have names : ∀ name ∈ ["inf".toList, "infinity".toList, "nan".toList], 'n' ∈ name := by decide
  obtain ⟨c, member, lower⟩ := List.mem_map.mp (names _ listed)
  have literal := characters c member
  have code : c.toLower.toNat = 110 := by rw [lower]; rfl
  rw [Text.toNat_toLower] at code
  simp only [isLiteralChar, Bool.or_eq_true, decide_eq_true_eq, or_assoc] at literal
  rcases literal with digit | rfl | rfl | rfl | rfl | rfl
  · have range := Text.isDigit_iff.mp digit
    split at code <;> omega
  all_goals exact absurd code (by decide)

/-- Behind a minus stands a decimal number or a word for a number. -/
theorem isSome_ofText?_minus {rest : List Char}
    : (ofText? ('-' :: rest)).isSome
      ↔ Decimal.IsUnsigned rest
        ∨ rest.map Char.toLower ∈ ["inf".toList, "infinity".toList, "nan".toList] := by
  rw [Decimal.isUnsigned_iff, ← @isSome_ofWord?_iff true]
  simp only [ofText?, Decimal.readSign]
  cases Decimal.ofUnsignedText? rest <;> simp

/-- What opens with a digit or a point is read only as a decimal number. -/
theorem isSome_ofText?_of_opens {first : Char} {rest : List Char}
    (opens : Text.isDigit first ∨ first = '.')
    : (ofText? (first :: rest)).isSome ↔ Decimal.IsUnsigned (first :: rest) := by
  rw [Decimal.isUnsigned_iff]
  simp only [ofText?, Decimal.readSign_of_opens opens, ofWord?_of_opens opens]
  cases Decimal.ofUnsignedText? (first :: rest) <;> simp

/-- The characters of literals are read as a number if they write one, with or without a sign. -/
theorem isSome_ofText?_of_characters {text : List Char} (characters : ∀ c ∈ text, isLiteralChar c)
    : (ofText? text).isSome ↔ Decimal.IsUnsigned (Decimal.readSign text).2 := by
  obtain ⟨sign, same, _⟩ := Decimal.exists_sign text
  rw [Decimal.isUnsigned_iff, ofText?]
  generalize Decimal.readSign text = signed at same ⊢
  obtain ⟨negative, rest⟩ := signed
  have inner : ∀ c ∈ rest, isLiteralChar c :=
    fun c member => characters c (by rw [same]; exact List.mem_append_right sign member)
  simp only [ofWord?_of_characters inner]
  cases Decimal.ofUnsignedText? rest <;> simp

end Number

end EcmaSyntax
