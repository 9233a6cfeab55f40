import EcmaSyntax.Proofs.Number.LiteralForms
import EcmaSyntax.Proofs.Token.Tiling

/-! Numbers as the lexer goes over them. It decides on the form of a literal by its first characters, before it
has seen all of it. What it finds is a literal of that form, and a literal that stands alone is found whole.
-/

namespace EcmaSyntax

/-- The form in which a number is gone over, told by the beginning of the text. -/
def NumberForm.ofText : List Char → NumberForm
  | '0' :: 'x' :: _ => hexadecimal
  | '0' :: 'X' :: _ => hexadecimal
  | text => if isLegacyOctal (text.takeWhile Text.isDigit) then octal else decimal

/-- How a number is gone over in the form. An octal number stops behind its first digits. -/
def NumberForm.scan : NumberForm → List Char → Scan
  | hexadecimal, text => Scan.hexNumber (text.drop 2)
  | octal, text => Scan.numberEnd (text.dropWhile Text.isDigit)
  | decimal, text =>
      match text.dropWhile Text.isDigit with
      | '.' :: fraction => Scan.numberExponent (fraction.dropWhile Text.isDigit)
      | rest => Scan.numberExponent rest

namespace Scan

variable {kind : Kind} {mode : LexMode} {whole text rest : List Char} {c : Char}

-----------------------------------------------------------------------------------------
-- Which form is gone over
-----------------------------------------------------------------------------------------

theorem ofText_hexadecimal {marker : Char} (marked : marker = 'x' ∨ marker = 'X') (digits : List Char)
    : NumberForm.ofText ('0' :: marker :: digits) = .hexadecimal := by
  rcases marked with rfl | rfl <;> rfl

/-- Without a marker the first digits tell octal numbers from decimal ones. -/
theorem ofText_of_unmarked (decimal : c = '0' → whole.head? ≠ some 'x' ∧ whole.head? ≠ some 'X')
    : NumberForm.ofText (c :: whole)
      = if isLegacyOctal ((c :: whole).takeWhile Text.isDigit) then .octal else .decimal := by
  rw [NumberForm.ofText]
  · rintro digits same
    obtain ⟨rfl, rfl⟩ := List.cons.inj same
    exact (decimal rfl).1 rfl
  · rintro digits same
    obtain ⟨rfl, rfl⟩ := List.cons.inj same
    exact (decimal rfl).2 rfl

/-- The scanner of numbers goes over each in the form that its first digits tell. -/
theorem number_eq_scan (text : List Char)
    : number text
      = NumberForm.scan (if isLegacyOctal (text.takeWhile Text.isDigit) then .octal else .decimal) text := by
  unfold number
  dsimp only
  split
  · rfl
  · rfl

/-- A number literal is hexadecimal by its first two characters, or begins with a digit or with a point in front
of one.
-/
theorem opens_of_literalNumber (scanned : token mode whole = found .literalNumber rest)
    : (∃ marker digits, (marker = 'x' ∨ marker = 'X') ∧ whole = '0' :: marker :: digits)
      ∨ ∃ c tail,
          whole = c :: tail
          ∧ OpensNumber c tail
          ∧ (c = '0' → tail.head? ≠ some 'x' ∧ tail.head? ≠ some 'X') := by
  cases foundBy_of_token scanned with
  | hexNumber marked => exact .inl ⟨_, _, marked, rfl⟩
  | number opens decimal => exact .inr ⟨_, _, rfl, opens, decimal⟩
  | word _ named => exact absurd named (by decide)
  | punctuator spelled => cases spelled

/-- A number literal is gone over in the form told by its beginning. -/
theorem token_eq_scan (scanned : token mode whole = found .literalNumber rest)
    : token mode whole = (NumberForm.ofText whole).scan whole := by
  rcases opens_of_literalNumber scanned with
    ⟨marker, digits, marked, rfl⟩ | ⟨c, tail, rfl, opens, decimal⟩
  · rw [ofText_hexadecimal marked, (Scans.hexNumber marked).eq_token]
    rfl
  · rw [ofText_of_unmarked decimal, (Scans.number opens decimal).eq_token, number_eq_scan]

-----------------------------------------------------------------------------------------
-- What is found is a literal
-----------------------------------------------------------------------------------------

/-- What is passed over as an exponent is one, or nothing. -/
theorem numberExponent_isExponent (scanned : numberExponent whole = found kind rest)
    : ∃ exponent, whole = exponent ++ rest ∧ Text.IsExponent exponent := by
  unfold numberExponent at scanned
  split at scanned
  next marker tail =>
    split at scanned
    next marks =>
      dsimp only at scanned
      split at scanned
      next => exact absurd scanned failed_ne_found
      next present =>
        have digits := List.takeWhile_append_dropWhile (p := Text.isDigit) (l := (Decimal.readSign tail).2)
        rw [(numberEnd_eq_found scanned).1] at digits
        obtain ⟨sign, same, signs⟩ := Decimal.exists_sign tail
        refine ⟨marker :: (sign ++ (Decimal.readSign tail).2.takeWhile Text.isDigit), ?_,
          .marked (by simpa using marks) signs (by simpa using present) fun c => List.mem_takeWhile_imp⟩
        rw [List.cons_append, List.append_assoc, digits, ← same]
    next => exact ⟨[], (numberEnd_eq_found scanned).1, .none⟩
  next => exact ⟨[], (numberEnd_eq_found scanned).1, .none⟩

/-- What is gone over as a decimal number is one, and begins with all the digits that are there. -/
theorem isUnsigned_of_decimal (opens : OpensNumber c whole)
    (scanned : NumberForm.decimal.scan (c :: whole) = found kind rest)
    : ∃ text,
        c :: whole = text ++ rest
        ∧ Decimal.IsUnsigned text
        ∧ text.takeWhile Text.isDigit = (c :: whole).takeWhile Text.isDigit := by
  have pointed : Text.isDigit '.' = false := by decide
  have split := List.takeWhile_append_dropWhile (p := Text.isDigit) (l := c :: whole)
  have digits : ∀ d ∈ (c :: whole).takeWhile Text.isDigit, Text.isDigit d :=
    fun d => List.mem_takeWhile_imp
  have assembled {fraction places exponent : List Char}
      (behind : (c :: whole).dropWhile Text.isDigit = fraction ++ (exponent ++ rest))
      (isFraction : Text.IsFraction fraction places) (isExponent : Text.IsExponent exponent)
      (present : (c :: whole).takeWhile Text.isDigit ++ places ≠ [])
      : ∃ text,
          c :: whole = text ++ rest
          ∧ Decimal.IsUnsigned text
          ∧ text.takeWhile Text.isDigit = (c :: whole).takeWhile Text.isDigit := by
    refine ⟨_, ?_, ⟨_, fraction, places, exponent, rfl, digits, isFraction, present, isExponent⟩,
      (Decimal.takeWhile_parts digits isFraction isExponent).1⟩
    rw [List.append_assoc, List.append_assoc, ← behind, split]
  unfold NumberForm.scan at scanned
  dsimp only at scanned
  split at scanned
  next fraction point =>
    obtain ⟨exponent, same, isExponent⟩ := numberExponent_isExponent scanned
    have places := List.takeWhile_append_dropWhile (p := Text.isDigit) (l := fraction)
    rw [same] at places
    have inner : ∀ d ∈ fraction.takeWhile Text.isDigit, Text.isDigit d := fun d => List.mem_takeWhile_imp
    refine assembled ?_ (.point inner) isExponent ?_
    · rw [point, List.cons_append, places]
    · rcases opens with digit | ⟨rfl, digit⟩
      · simp [digit]
      · obtain rfl : whole = fraction := by simpa [pointed] using point
        cases whole with
        | nil => cases digit
        | cons first tail => simp [show Text.isDigit first from digit]
  next noPoint =>
    obtain ⟨exponent, same, isExponent⟩ := numberExponent_isExponent scanned
    refine assembled same .none isExponent ?_
    rcases opens with digit | ⟨rfl, _⟩
    · simp [digit]
    · exact absurd (by simp [pointed]) (noPoint whole)

/-- What is found is a literal of the form in which it is gone over. -/
theorem token_isNumber (scanned : token mode whole = found .literalNumber rest)
    : ∃ text, whole = text ++ rest ∧ Text.IsNumber (NumberForm.ofText whole) text := by
  have gone := token_eq_scan scanned
  rw [scanned] at gone
  rcases opens_of_literalNumber scanned with
    ⟨marker, digits, marked, rfl⟩ | ⟨c, tail, rfl, opens, decimal⟩
  · rw [ofText_hexadecimal marked] at gone ⊢
    have gone : hexNumber digits = found .literalNumber rest := gone.symm
    unfold hexNumber at gone
    split at gone
    next => exact absurd gone failed_ne_found
    next present =>
      have parts := List.takeWhile_append_dropWhile (p := Text.isHexDigit) (l := digits)
      rw [(numberEnd_eq_found gone).1] at parts
      refine ⟨'0' :: marker :: digits.takeWhile Text.isHexDigit, ?_, ?_⟩
      · rw [List.cons_append, List.cons_append, parts]
      · exact .hexadecimal marked (by simpa using present) fun c => List.mem_takeWhile_imp
  · rw [ofText_of_unmarked decimal] at gone ⊢
    cases begins : isLegacyOctal ((c :: tail).takeWhile Text.isDigit) with
    | true =>
        have parts := List.takeWhile_append_dropWhile (p := Text.isDigit) (l := c :: tail)
        rw [begins, if_pos rfl] at gone
        rw [(numberEnd_eq_found gone.symm).1] at parts
        exact ⟨_, parts.symm, .octal begins⟩
    | false =>
        rw [begins, if_neg (by simp)] at gone
        obtain ⟨text, same, isUnsigned, digits⟩ := isUnsigned_of_decimal opens gone.symm
        exact ⟨text, same, .decimal isUnsigned (by rw [digits, begins])⟩

-----------------------------------------------------------------------------------------
-- Literals are found
-----------------------------------------------------------------------------------------

/-- An exponent that stands alone is passed over whole. -/
theorem numberExponent_of_isExponent {exponent : List Char} (isExponent : Text.IsExponent exponent)
    : numberExponent exponent = found .literalNumber [] := by
  cases isExponent with
  | none => rfl
  | @marked marker sign digits marks signs present valued =>
      obtain ⟨negative, signed⟩ := Decimal.exists_readSign signs present valued
      have taken := List.takeWhile_eq_self_iff.mpr valued
      have left := List.dropWhile_eq_nil_iff.mpr valued
      simp [numberExponent, signed, taken, left, present, marks, numberEnd]

/-- A literal is gone over in its form up to its end. -/
theorem scan_of_isNumber {form : NumberForm} (isNumber : Text.IsNumber form text)
    : form.scan text = found .literalNumber [] := by
  cases isNumber with
  | hexadecimal _ present valued =>
      have taken := List.takeWhile_eq_self_iff.mpr valued
      have left := List.dropWhile_eq_nil_iff.mpr valued
      simp [NumberForm.scan, hexNumber, taken, left, present, numberEnd]
  | octal isOctal =>
      have left := List.dropWhile_eq_nil_iff.mpr (digits_of_isLegacyOctal isOctal).2
      rw [NumberForm.scan, left, numberEnd]
  | decimal isUnsigned =>
      obtain ⟨whole, fraction, places, exponent, rfl, digits, isFraction, _, isExponent⟩ := isUnsigned
      simp only [NumberForm.scan, (Decimal.takeWhile_parts digits isFraction isExponent).2]
      cases isFraction with
      | none =>
          split
          next point =>
            rw [List.nil_append] at point
            exact absurd rfl (isExponent.head '.' (by rw [point]; rfl)).2
          next => exact numberExponent_of_isExponent isExponent
      | point inner =>
          have left := (Decimal.takeWhile_isDigit fun c first => (isExponent.head c first).1).2
          simp [List.dropWhile_append_of_pos inner, left, numberExponent_of_isExponent isExponent]

/-- A literal that stands alone is found, and nothing is left of it. -/
theorem token_of_isNumber {form : NumberForm} (mode : LexMode) (isNumber : Text.IsNumber form text)
    : token mode text = found .literalNumber [] := by
  have unmarked {marker : Char} {digits : List Char} (marked : marker = 'x' ∨ marker = 'X')
      (same : text = '0' :: marker :: digits)
      : form = .hexadecimal :=
    isNumber.hexadecimal_iff.mpr ⟨marker, digits, marked, same⟩
  have scanned (decimal : form ≠ .hexadecimal) : token mode text = number text := by
    obtain ⟨first, rest, rfl, opens⟩ := isNumber.opens
    refine (Scans.number opens ?_).eq_token
    rintro rfl
    constructor
    · intro marker
      obtain ⟨digits, rfl⟩ := List.head?_eq_some_iff.mp marker
      exact decimal (unmarked (.inl rfl) rfl)
    · intro marker
      obtain ⟨digits, rfl⟩ := List.head?_eq_some_iff.mp marker
      exact decimal (unmarked (.inr rfl) rfl)
  rw [← scan_of_isNumber isNumber]
  cases isNumber with
  | hexadecimal marked => exact (Scans.hexNumber marked).eq_token
  | octal isOctal => rw [scanned nofun, number_eq_scan, takeWhile_of_isLegacyOctal isOctal, if_pos isOctal]
  | decimal _ noOctal => rw [scanned nofun, number_eq_scan, if_neg (by simp [noOctal])]

end Scan

end EcmaSyntax
