import EcmaSyntax.Form.Printer
import EcmaSyntax.Form.Reader
import EcmaSyntax.Proofs.Number.ReadBack
import EcmaSyntax.Proofs.Text.Cutting
import EcmaSyntax.Proofs.Text.Units

/-! How the scalars of forms are read back. Words end only at blanks, commas and brackets, so that names
and numbers are read as they are written; a quoted text is read back unit by unit, through its escapes.
-/

namespace EcmaSyntax.Form

-----------------------------------------------------------------------------------------
-- Quoted texts
-----------------------------------------------------------------------------------------

/-- Four hexadecimal digits stand for each control character. -/
theorem signedHexValue?_hexUnit {code : Nat} (small : code < 0xA0)
    : Text.signedHexValue? (hexUnit code) = some code
      ∧ Text.size (hexUnit code) = 4
      ∧ (hexUnit code).length = 4 := by
  have all
      : ∀ code < 0xA0,
          Text.signedHexValue? (hexUnit code) = some code
          ∧ Text.size (hexUnit code) = 4
          ∧ (hexUnit code).length = 4 := by
    decide +kernel
  exact all code small

/-- The characters of an escape that was read are skipped. -/
theorem quotedUnits_skip (quote : Char) (skipped rest : List Char)
    : quotedUnits quote skipped.length (skipped ++ rest) = quotedUnits quote 0 rest := by
  induction skipped with
  | nil => rfl
  | cons c skipped ih => simpa [quotedUnits] using ih

/-- A long escape is read as the unit that it writes. -/
theorem quotedUnits_hexUnit {c : Char} (control : Text.isControl c) (rest : List Char)
    : quotedUnits '"' 0 ('\\' :: 'u' :: (hexUnit c.toNat ++ rest))
      = (quotedUnits '"' 0 rest).map fun (units, rest) => (Text.unitsOfChar c ++ units, rest) := by
  have small : c.toNat < 0xA0 := by
    simp only [Text.isControl, Text.inIntervals, List.any_cons, List.any_nil, Bool.or_false,
      Bool.or_eq_true, Bool.and_eq_true, decide_eq_true_eq] at control
    omega
  obtain ⟨value, size_eq, length_eq⟩ := signedHexValue?_hexUnit small
  have taken : Text.take? 4 (hexUnit c.toNat ++ rest) = some (hexUnit c.toNat) := by
    rw [← size_eq]
    exact Text.take?_size_append _ _
  have skipped := quotedUnits_skip '"' ('u' :: hexUnit c.toNat) rest
  rw [List.length_cons, List.cons_append, Nat.add_comm] at skipped
  have units : Text.unitsOfChar c = [c.toNat.toUInt16] := by
    rw [Text.unitsOfChar, if_pos (by omega)]
  simp [quotedUnits, taken, value, skipped, units]

/-- A character within quotes is read as its units. -/
theorem quotedUnits_quotedChar (c : Char) (rest : List Char)
    : quotedUnits '"' 0 (quotedChar c ++ rest)
      = (quotedUnits '"' 0 rest).map fun (units, rest) => (Text.unitsOfChar c ++ units, rest) := by
  unfold quotedChar
  split_ifs with isQuote isBackslash isNewline isReturn isTab control
  · subst isQuote
    rfl
  · subst isBackslash
    rfl
  · subst isNewline
    rfl
  · subst isReturn
    rfl
  · subst isTab
    rfl
  · exact quotedUnits_hexUnit control rest
  · simp only [List.singleton_append, quotedUnits.eq_def _ 0 (c :: rest), if_neg isQuote,
      if_neg isBackslash]

/-- A quoted text is read as its units, and nothing more. -/
theorem quotedUnits_quoted (text rest : List Char)
    : quotedUnits '"' 0 (text.flatMap quotedChar ++ '"' :: rest)
      = .ok (Text.encodeUnits text, rest) := by
  induction text with
  | nil => simp [quotedUnits.eq_def, Text.encodeUnits]
  | cons c text ih =>
      rw [List.flatMap_cons, List.append_assoc, quotedUnits_quotedChar, ih]
      simp [Except.map, Text.encodeUnits]

-----------------------------------------------------------------------------------------
-- Words
-----------------------------------------------------------------------------------------

/-- A word ends before the text, which is empty or begins with a blank, a comma or a bracket. -/
def EndsWord (rest : List Char) : Prop :=
  ∀ c ∈ rest.head?, isDelimiter c = true

/-- A word is read up to where it ends. -/
theorem wordOf_append {word rest : List Char} (plain : ∀ c ∈ word, isDelimiter c = false)
    (ends : EndsWord rest)
    : wordOf (word ++ rest) = word ∧ afterWord (word ++ rest) = rest := by
  have within : ∀ c ∈ word, (!isDelimiter c) = true := fun c member => by simp [plain c member]
  rw [wordOf, afterWord, List.takeWhile_append_of_pos within, List.dropWhile_append_of_pos within]
  cases rest with
  | nil => simp
  | cons c rest =>
      have delimits : isDelimiter c = true := ends c rfl
      simp [delimits]

-----------------------------------------------------------------------------------------
-- Numbers
-----------------------------------------------------------------------------------------

/-- A character that does not end a word and begins no value that is more than a word. -/
def IsPlain (c : Char) : Prop :=
  isDelimiter c = false ∧ c ≠ ':' ∧ c ≠ '"' ∧ c ≠ '\''

instance (c : Char) : Decidable (IsPlain c) :=
  inferInstanceAs (Decidable (_ ∧ _))

theorem isPlain_of_all {text : List Char} (all : text.all fun c => decide (IsPlain c))
    : ∀ c ∈ text, IsPlain c :=
  fun c member => of_decide_eq_true (List.all_eq_true.mp all c member)

/-- Digits and capital letters. -/
theorem isPlain_of_range {c : Char}
    (range : (48 ≤ c.toNat ∧ c.toNat ≤ 57) ∨ (65 ≤ c.toNat ∧ c.toNat ≤ 90))
    : IsPlain c := by
  have ne {other : Char}
      (outside : other.toNat < 48 ∨ (57 < other.toNat ∧ other.toNat < 65) ∨ 90 < other.toNat)
      : c ≠ other := by
    rintro rfl
    omega
  have visible : Text.isWhiteSpace c = false := by
    simp only [Text.isWhiteSpace, Text.inIntervals, Text.whiteSpaceTable, List.any_cons,
      List.any_nil, Bool.or_false, Bool.or_eq_false_iff, Bool.and_eq_false_iff,
      decide_eq_false_iff_not]
    omega
  have noMark : c ≠ ',' ∧ c ≠ '[' ∧ c ≠ ']' :=
    ⟨ne (by decide), ne (by decide), ne (by decide)⟩
  exact ⟨by simp [isDelimiter, visible, noMark], ne (by decide), ne (by decide), ne (by decide)⟩

/-- Digits neither end words nor begin longer values. -/
theorem isPlain_of_isDigit {c : Char} (digit : Text.isDigit c) : IsPlain c :=
  isPlain_of_range (.inl (Text.isDigit_iff.mp digit))

/-- There is one magnitude without bounds. -/
theorem eq_infinity {magnitude : Magnitude} (infinite : magnitude.isInfinite = true)
    : magnitude = Magnitude.infinity :=
  Fin.ext (of_decide_eq_true infinite)

/-- A number is written as one word. -/
theorem isPlain_text (value : Number) : ∀ c ∈ value.text, IsPlain c := by
  cases value with
  | nan => exact isPlain_of_all (by decide)
  | signed negative magnitude =>
      cases infinite : magnitude.isInfinite with
      | true =>
          rw [eq_infinity infinite]
          cases negative <;> exact isPlain_of_all (by decide)
      | false =>
          have digital : ∀ c ∈ magnitude.text, IsPlain c := by
            intro c member
            rcases (magnitude.isDigital_text infinite).2 c member with digit | rfl
            · exact isPlain_of_isDigit digit
            · decide
          rw [show (Number.signed negative magnitude).text
            = if negative && magnitude.val != 0 then '-' :: magnitude.text else magnitude.text from rfl]
          split
          · exact List.forall_mem_cons.mpr ⟨by decide, digital⟩
          · exact digital

/-- A word that begins as a decimal number does is read as one, unless it is a word without digits. -/
theorem numberOfWord?_of_digital {text : List Char} (digital : Text.IsDigital text) (minus : Bool)
    : numberOfWord? (if minus then '-' :: text else text)
      = Number.ofText? (if minus then '-' :: text else text) := by
  obtain ⟨⟨first, rest, rfl, digit⟩, _⟩ := digital
  have ne {other : Char} (letter : Text.isDigit other = false) : first ≠ other := by
    rintro rfl
    rw [digit] at letter
    cases letter
  have notN := ne (show Text.isDigit 'N' = false by decide)
  have notI := ne (show Text.isDigit 'I' = false by decide)
  have notMinus := ne (show Text.isDigit '-' = false by decide)
  cases minus <;> simp [numberOfWord?, notN, notI, notMinus, digit]

/-- What is written of a number is read as the number. -/
theorem numberOfWord?_text (value : Number) : numberOfWord? value.text = some value.written := by
  cases value with
  | nan => rfl
  | signed negative magnitude =>
      cases infinite : magnitude.isInfinite with
      | true =>
          rw [eq_infinity infinite]
          cases negative <;> decide
      | false =>
          have digital := magnitude.isDigital_text infinite
          exact (numberOfWord?_of_digital digital _).trans (Number.ofText?_text infinite)

end EcmaSyntax.Form
