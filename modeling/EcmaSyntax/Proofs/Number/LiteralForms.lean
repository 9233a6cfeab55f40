import EcmaSyntax.Proofs.Number.Decimals

/-! The forms of number literals. Every literal has a value in its form. Texts of two more kinds are given values:
decimal numbers with a sign in front, and octal numbers that go on with a fraction or with an exponent.
-/

namespace EcmaSyntax

/-- The forms of number literals. -/
inductive NumberForm where
  | hexadecimal
  | octal
  | decimal
  deriving DecidableEq, Repr

/-- The number literals of each form. A decimal literal does not begin like an octal one. -/
inductive Text.IsNumber : NumberForm → List Char → Prop
  | hexadecimal {marker : Char} {digits : List Char} (marked : marker = 'x' ∨ marker = 'X')
    (present : digits ≠ []) (valued : ∀ c ∈ digits, isHexDigit c)
    : IsNumber .hexadecimal ('0' :: marker :: digits)
  | octal {text : List Char} (isOctal : isLegacyOctal text) : IsNumber .octal text
  | decimal {text : List Char} (isUnsigned : Decimal.IsUnsigned text)
    (noOctal : isLegacyOctal (text.takeWhile isDigit) = false)
    : IsNumber .decimal text

/-- Texts with values that are no literals. -/
inductive Text.IsLooseNumber : List Char → Prop
  | signed {sign : Char} {text : List Char} (signs : sign = '+' ∨ sign = '-')
    (isUnsigned : Decimal.IsUnsigned text)
    : IsLooseNumber (sign :: text)
  | octal {front fraction places exponent : List Char} (isOctal : isLegacyOctal front)
    (isFraction : IsFraction fraction places) (isExponent : IsExponent exponent)
    (more : fraction ++ exponent ≠ [])
    : IsLooseNumber (front ++ (fraction ++ exponent))

/-- The value of a literal that is read in the form. -/
def NumberForm.value? : NumberForm → List Char → Option Magnitude
  | hexadecimal, literal => Magnitude.ofDigits? 16 (literal.drop 2)
  | octal, literal => Magnitude.ofDigits? 8 (literal.drop 1)
  | decimal, literal => (Decimal.ofUnsignedText? literal).map Decimal.toMagnitude

-----------------------------------------------------------------------------------------
-- Octal digits
-----------------------------------------------------------------------------------------

/-- An old octal literal is a zero with octal digits behind it. -/
theorem isLegacyOctal_iff {text : List Char}
    : isLegacyOctal text = true
      ↔ ∃ digits, text = '0' :: digits ∧ digits ≠ [] ∧ ∀ c ∈ digits, Text.isOctalDigit c := by
  unfold isLegacyOctal
  split
  next digits => simp
  next other =>
    simp only [Bool.false_eq_true, false_iff]
    rintro ⟨digits, rfl, _⟩
    exact other digits rfl

theorem digits_of_isLegacyOctal {text : List Char} (isOctal : isLegacyOctal text)
    : text ≠ [] ∧ ∀ c ∈ text, Text.isDigit c := by
  obtain ⟨digits, rfl, _, valued⟩ := isLegacyOctal_iff.mp isOctal
  refine ⟨List.cons_ne_nil _ _, List.forall_mem_cons.mpr ⟨by decide, fun c member => ?_⟩⟩
  have range := Text.isOctalDigit_iff.mp (valued c member)
  exact Text.isDigit_iff.mpr (by omega)

/-- An octal literal is nothing but digits. -/
theorem takeWhile_of_isLegacyOctal {text : List Char} (isOctal : isLegacyOctal text)
    : text.takeWhile Text.isDigit = text :=
  List.takeWhile_eq_self_iff.mpr (digits_of_isLegacyOctal isOctal).2

-----------------------------------------------------------------------------------------
-- How literals are evaluated
-----------------------------------------------------------------------------------------

namespace Number

variable {text : List Char}

/-- The characters of decimal literals do not open a hexadecimal one. -/
theorem ne_marked_of_characters (characters : ∀ c ∈ text, isLiteralChar c) {marker : Char}
    (marked : marker = 'x' ∨ marker = 'X') (digits : List Char)
    : text ≠ '0' :: marker :: digits := by
  rintro rfl
  have literal := characters marker (by simp)
  rcases marked with rfl | rfl <;> exact absurd literal (by decide)

/-- What has the characters of decimal literals and is not octal is read as a decimal number. -/
theorem ofLiteral?_of_characters (present : text ≠ []) (characters : ∀ c ∈ text, isLiteralChar c)
    (noOctal : isLegacyOctal text = false)
    : ofLiteral? text = ofText? text := by
  rw [ofLiteral?]
  · rw [if_neg (by simp [noOctal]), if_neg (by simpa [present] using characters)]
  · exact ne_marked_of_characters characters (.inl rfl)
  · exact ne_marked_of_characters characters (.inr rfl)

/-- Behind a marker of hexadecimal digits a literal is the sum of these. -/
theorem ofLiteral?_hexadecimal {marker : Char} (marked : marker = 'x' ∨ marker = 'X')
    (digits : List Char)
    : ofLiteral? ('0' :: marker :: digits) = (Magnitude.ofDigits? 16 digits).map (signed false) := by
  rcases marked with rfl | rfl <;> rfl

theorem characters_of_isLegacyOctal (isOctal : isLegacyOctal text) : ∀ c ∈ text, isLiteralChar c :=
  fun c member => isLiteralChar_of_isDigit ((digits_of_isLegacyOctal isOctal).2 c member)

/-- An old octal literal is the sum of its digits behind the zero. -/
theorem ofLiteral?_of_octal (isOctal : isLegacyOctal text)
    : ofLiteral? text = (Magnitude.ofDigits? 8 (text.drop 1)).map (signed false) := by
  have characters := characters_of_isLegacyOctal isOctal
  rw [ofLiteral?, if_pos isOctal, List.drop_one]
  · exact ne_marked_of_characters characters (.inl rfl)
  · exact ne_marked_of_characters characters (.inr rfl)

end Number

namespace Text

variable {form : NumberForm} {text : List Char}

-----------------------------------------------------------------------------------------
-- Literals have values
-----------------------------------------------------------------------------------------

/-- A literal begins with a digit, or with a point and a digit. -/
theorem IsNumber.opens (isNumber : IsNumber form text)
    : ∃ first rest, text = first :: rest ∧ (isDigit first ∨ first = '.' ∧ rest.head?.any isDigit) := by
  cases isNumber with
  | hexadecimal => exact ⟨'0', _, rfl, .inl (by decide)⟩
  | octal isOctal =>
      obtain ⟨digits, rfl, _⟩ := isLegacyOctal_iff.mp isOctal
      exact ⟨'0', digits, rfl, .inl (by decide)⟩
  | decimal isUnsigned =>
      obtain ⟨first, rest, rfl, digit | rfl⟩ := isUnsigned.opens
      · exact ⟨first, rest, rfl, .inl digit⟩
      · exact ⟨'.', rest, rfl, .inr ⟨rfl, isUnsigned.digit_of_point⟩⟩

/-- What begins like a hexadecimal literal is one, if it is a literal. -/
theorem IsNumber.hexadecimal_iff (isNumber : IsNumber form text)
    : form = .hexadecimal
      ↔ ∃ marker digits, (marker = 'x' ∨ marker = 'X') ∧ text = '0' :: marker :: digits := by
  have other (decimal : form ≠ .hexadecimal) (characters : ∀ c ∈ text, Number.isLiteralChar c)
      : form = .hexadecimal
        ↔ ∃ marker digits, (marker = 'x' ∨ marker = 'X') ∧ text = '0' :: marker :: digits := by
    refine iff_of_false decimal ?_
    rintro ⟨marker, digits, marked, same⟩
    exact Number.ne_marked_of_characters characters marked digits same
  cases isNumber with
  | hexadecimal marked => exact iff_of_true rfl ⟨_, _, marked, rfl⟩
  | octal isOctal => exact other nofun (Number.characters_of_isLegacyOctal isOctal)
  | decimal isUnsigned => exact other nofun isUnsigned.characters

/-- Only octal literals are a zero and octal digits behind it. -/
theorem IsNumber.octal_iff (isNumber : IsNumber form text) : form = .octal ↔ isLegacyOctal text := by
  cases isNumber with
  | hexadecimal marked =>
      refine iff_of_false nofun fun isOctal => ?_
      exact Number.ne_marked_of_characters (Number.characters_of_isLegacyOctal isOctal) marked _ rfl
  | octal isOctal => exact iff_of_true rfl isOctal
  | decimal _ noOctal =>
      refine iff_of_false nofun fun isOctal => ?_
      rw [takeWhile_of_isLegacyOctal isOctal, isOctal] at noOctal
      cases noOctal

/-- A literal has a value in its form, and that is its value. -/
theorem IsNumber.exists_value (isNumber : IsNumber form text)
    : ∃ magnitude,
        form.value? text = some magnitude
        ∧ Number.ofLiteral? text = some (.signed false magnitude) := by
  cases isNumber with
  | @hexadecimal marker digits marked present valued =>
      have digital : (Magnitude.ofDigits? 16 digits).isSome := Magnitude.isSome_ofDigits? present valued
      obtain ⟨magnitude, summed⟩ := Option.isSome_iff_exists.mp digital
      refine ⟨magnitude, summed, ?_⟩
      rw [Number.ofLiteral?_hexadecimal marked, summed, Option.map_some]
  | octal isOctal =>
      obtain ⟨digits, rfl, present, valued⟩ := isLegacyOctal_iff.mp isOctal
      have digital : (Magnitude.ofDigits? 8 digits).isSome := Magnitude.isSome_ofDigits? present valued
      obtain ⟨magnitude, summed⟩ := Option.isSome_iff_exists.mp digital
      refine ⟨magnitude, summed, ?_⟩
      rw [Number.ofLiteral?_of_octal isOctal, List.drop_one, List.tail_cons, summed, Option.map_some]
  | decimal isUnsigned noOctal =>
      obtain ⟨value, read⟩ := Option.isSome_iff_exists.mp (Decimal.isUnsigned_iff.mp isUnsigned)
      obtain ⟨first, rest, rfl, opens⟩ := isUnsigned.opens
      have decimal : isLegacyOctal (first :: rest) = false := by
        simpa using IsNumber.octal_iff (.decimal isUnsigned noOctal)
      refine ⟨value.toMagnitude, by rw [NumberForm.value?, read, Option.map_some], ?_⟩
      rw [Number.ofLiteral?_of_characters (List.cons_ne_nil _ _) isUnsigned.characters decimal]
      simp [Number.ofText?, Decimal.readSign_of_opens opens, read]

-----------------------------------------------------------------------------------------
-- The other texts with values
-----------------------------------------------------------------------------------------

section Octal

variable {front fraction places exponent : List Char} (isOctal : isLegacyOctal front)
  (isFraction : IsFraction fraction places) (isExponent : IsExponent exponent)

include isOctal isFraction isExponent

theorem isUnsigned_of_isLegacyOctal : Decimal.IsUnsigned (front ++ (fraction ++ exponent)) := by
  obtain ⟨present, digits⟩ := digits_of_isLegacyOctal isOctal
  exact ⟨front, fraction, places, exponent, rfl, digits, isFraction, by simp [present], isExponent⟩

/-- An octal literal goes no further than its digits. -/
theorem isLegacyOctal_append_iff
    : isLegacyOctal (front ++ (fraction ++ exponent)) ↔ fraction ++ exponent = [] := by
  constructor
  · intro whole
    have taken := takeWhile_of_isLegacyOctal whole
    rw [(Decimal.takeWhile_parts (digits_of_isLegacyOctal isOctal).2 isFraction isExponent).1] at taken
    exact List.self_eq_append_right.mp taken
  · intro nothing
    rwa [nothing, List.append_nil]

end Octal

/-- The other texts with values are evaluated as decimal numbers. -/
theorem IsLooseNumber.isSome_ofLiteral? (isLoose : IsLooseNumber text)
    : (Number.ofLiteral? text).isSome := by
  cases isLoose with
  | @signed sign text signs isUnsigned =>
      have characters : ∀ c ∈ sign :: text, Number.isLiteralChar c :=
        List.forall_mem_cons.mpr
          ⟨by rcases signs with rfl | rfl <;> decide, isUnsigned.characters⟩
      have read : (Decimal.readSign (sign :: text)).2 = text := by rcases signs with rfl | rfl <;> rfl
      rw [Number.ofLiteral?_of_characters (List.cons_ne_nil _ _) characters,
        Number.isSome_ofText?_of_characters characters, read]
      · exact isUnsigned
      · rcases signs with rfl | rfl <;> rfl
  | octal isOctal isFraction isExponent more =>
      have isUnsigned := isUnsigned_of_isLegacyOctal isOctal isFraction isExponent
      have decimal := (isLegacyOctal_append_iff isOctal isFraction isExponent).not.mpr more
      obtain ⟨first, rest, same, opens⟩ := isUnsigned.opens
      rw [same] at isUnsigned decimal ⊢
      rw [Number.ofLiteral?_of_characters (List.cons_ne_nil _ _) isUnsigned.characters
          (by simpa using decimal),
        Number.isSome_ofText?_of_opens opens]
      exact isUnsigned

/-- No literal has a sign in front, and no octal one goes on with a fraction or with an exponent. -/
theorem IsLooseNumber.not_isNumber (isLoose : IsLooseNumber text) : ¬IsNumber form text := by
  intro isNumber
  cases isLoose with
  | @signed sign text signs =>
      obtain ⟨first, rest, same, opens⟩ := isNumber.opens
      obtain ⟨rfl, _⟩ := List.cons.inj same
      rcases signs with rfl | rfl
      · exact absurd (opens.imp_right And.left) (by decide)
      · exact absurd (opens.imp_right And.left) (by decide)
  | octal isOctal isFraction isExponent more =>
      have isUnsigned := isUnsigned_of_isLegacyOctal isOctal isFraction isExponent
      cases form with
      | hexadecimal =>
          obtain ⟨marker, digits, marked, same⟩ := isNumber.hexadecimal_iff.mp rfl
          exact Number.ne_marked_of_characters isUnsigned.characters marked digits same
      | octal =>
          exact more ((isLegacyOctal_append_iff isOctal isFraction isExponent).mp (isNumber.octal_iff.mp rfl))
      | decimal =>
          cases isNumber with
          | decimal _ noOctal =>
              have digits := (digits_of_isLegacyOctal isOctal).2
              rw [(Decimal.takeWhile_parts digits isFraction isExponent).1, isOctal] at noOctal
              cases noOctal

/-- A decimal number that begins like an octal literal goes on behind it, unless it is that literal. -/
theorem isNumber_or_isLooseNumber_of_isUnsigned (isUnsigned : Decimal.IsUnsigned text)
    : (∃ form, IsNumber form text) ∨ IsLooseNumber text := by
  cases begins : isLegacyOctal (text.takeWhile isDigit) with
  | false => exact .inl ⟨.decimal, .decimal isUnsigned begins⟩
  | true =>
      obtain ⟨whole, fraction, places, exponent, rfl, digits, isFraction, _, isExponent⟩ := isUnsigned
      rw [(Decimal.takeWhile_parts digits isFraction isExponent).1] at begins
      by_cases more : fraction ++ exponent = []
      · rw [more, List.append_nil]
        exact .inl ⟨.octal, .octal begins⟩
      · exact .inr (.octal begins isFraction isExponent more)

/-- What has a value is a literal or one of the other texts with values. -/
theorem isNumber_or_isLooseNumber (valued : (Number.ofLiteral? text).isSome)
    : (∃ form, IsNumber form text) ∨ IsLooseNumber text := by
  have marked {marker : Char} {digits : List Char} (marks : marker = 'x' ∨ marker = 'X')
      (summed : ((Magnitude.ofDigits? 16 digits).map (Number.signed false)).isSome)
      : ∃ form, IsNumber form ('0' :: marker :: digits) := by
    rw [Option.isSome_map] at summed
    obtain ⟨present, valued⟩ := Magnitude.digits_of_ofDigits? summed
    exact ⟨.hexadecimal, .hexadecimal marks present valued⟩
  unfold Number.ofLiteral? at valued
  split at valued
  next => exact .inl (marked (.inl rfl) valued)
  next => exact .inl (marked (.inr rfl) valued)
  next lower upper =>
    split_ifs at valued with isOctal malformed
    · exact .inl ⟨.octal, .octal isOctal⟩
    · cases valued
    · have characters : ∀ c ∈ text, Number.isLiteralChar c := by simp_all
      have isUnsigned := (Number.isSome_ofText?_of_characters characters).mp valued
      obtain ⟨sign, same, rfl | rfl | rfl⟩ := Decimal.exists_sign text
      · rw [List.nil_append] at same
        rw [← same] at isUnsigned
        exact isNumber_or_isLooseNumber_of_isUnsigned isUnsigned
      · rw [same]
        exact .inr (.signed (.inl rfl) isUnsigned)
      · rw [same]
        exact .inr (.signed (.inr rfl) isUnsigned)

end Text

end EcmaSyntax
