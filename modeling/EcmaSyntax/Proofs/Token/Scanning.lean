import EcmaSyntax.Proofs.Text.Classes
import EcmaSyntax.Proofs.Token.LongestMatch
import EcmaSyntax.Token.Lexeme
import Mathlib.Data.List.Infix
import Mathlib.Tactic.SplitIfs

/-! What every scanner of the lexer has in common: it leaves a proper suffix of its text, and only a
slash is scanned differently in the two modes.
-/

namespace EcmaSyntax.Scan

-----------------------------------------------------------------------------------------
-- Scanners leave a suffix
-----------------------------------------------------------------------------------------

@[simp]
theorem rest_found (kind : Kind) (rest : List Char) : (found kind rest).rest = rest := rfl

@[simp]
theorem rest_failed (cause : Cause) (rest : List Char) : (failed cause rest).rest = rest := rfl

/-- Behind an escape a suffix of the text is left. -/
theorem escapeStop_suffix (text : List Char) : escapeStop text <:+ text := by
  unfold escapeStop
  split
  · exact (List.drop_suffix _ _).trans ⟨['\\', 'u'], rfl⟩
  · exact List.suffix_cons _ _
  · exact List.suffix_refl _

/-- Behind an identifier a suffix of the text is left, by induction on the text. -/
theorem identifierTail_suffix (escaped : Nat) (text : List Char)
    : (identifierTail escaped text).rest <:+ text := by
  fun_induction identifierTail escaped text with
  | case1 => exact List.suffix_refl _
  | case2 escaped c rest ih | case3 rest part found inner ih | case6 c rest other inner ih =>
      exact ih.trans (List.suffix_cons _ _)
  | case4 rest part found inner => exact (List.drop_suffix 5 rest).trans (List.suffix_cons _ _)
  | case5 rest none => exact escapeStop_suffix _
  | case7 => exact List.suffix_refl _

@[simp]
theorem rest_numberEnd (text : List Char) : (numberEnd text).rest = text := by
  unfold numberEnd
  split
  · split <;> rfl
  · rfl

theorem readSign_suffix (text : List Char) : (Decimal.readSign text).2 <:+ text := by
  unfold Decimal.readSign
  split
  · exact List.suffix_cons _ _
  · exact List.suffix_cons _ _
  · exact List.suffix_refl _

theorem numberExponent_suffix (text : List Char) : (numberExponent text).rest <:+ text := by
  unfold numberExponent
  split
  next c rest =>
    have sign : (Decimal.readSign rest).2 <:+ c :: rest :=
      (readSign_suffix rest).trans (List.suffix_cons _ _)
    split
    · dsimp only
      split
      · exact sign
      · rw [rest_numberEnd]
        exact (List.dropWhile_suffix _).trans sign
    · simp
  next => simp

theorem hexNumber_suffix (digits : List Char) : (hexNumber digits).rest <:+ digits := by
  unfold hexNumber
  split
  · exact List.suffix_refl _
  · simpa using List.dropWhile_suffix _

/-- Behind a string a suffix of the text is left, by the recursion of the scanner. -/
theorem string_suffix (quote : Char) (text : List Char) : (string quote text).rest <:+ text := by
  fun_induction string quote text with
  | case1 => exact List.suffix_refl _
  | case2 rest ih => exact ih.trans ⟨['\\', '\r', '\n'], rfl⟩
  | case3 c rest other ih => exact ih.trans ⟨['\\', c], rfl⟩
  | case4 => exact List.nil_suffix
  | case5 rest => exact List.suffix_cons _ _
  | case6 => exact List.suffix_refl _
  | case7 c rest _ _ _ _ _ ih => exact ih.trans (List.suffix_cons _ _)

/-- Behind a regular expression a suffix of the text is left, by the recursion of the scanner. -/
theorem regex_suffix (inClass : Bool) (text : List Char) : (regex inClass text).rest <:+ text := by
  fun_induction regex inClass text with
  | case1 => exact List.suffix_refl _
  | case2 inClass c rest => exact List.suffix_cons _ _
  | case3 inClass c rest _ ih => exact ih.trans ⟨['\\', c], rfl⟩
  | case4 => exact List.nil_suffix
  | case5 => exact List.suffix_refl _
  | case6 inClass c rest => exact (List.dropWhile_suffix _).trans (List.suffix_cons _ _)
  | case7 inClass c rest _ _ _ _ ih => exact ih.trans (List.suffix_cons _ _)

-----------------------------------------------------------------------------------------
-- Which scanner reads a text
-----------------------------------------------------------------------------------------

/-- A number begins with the character, given the text after it. -/
def OpensNumber (c : Char) (rest : List Char) : Prop :=
  Text.isDigit c ∨ c = '.' ∧ rest.head?.any Text.isDigit

/-- The scanners, each with the texts that it reads. A number that opens like a hexadecimal one is
read as such, and a slash is the beginning of a regular expression in one mode only.
-/
inductive Scans (mode : LexMode) : List Char → Scan → Prop
  | nothing : Scans mode [] (found .endOfInput [])
  | hexNumber {marker : Char} {rest : List Char} (marked : marker = 'x' ∨ marker = 'X')
    : Scans mode ('0' :: marker :: rest) (hexNumber rest)
  | escape {rest : List Char} : Scans mode ('\\' :: rest) (escapedIdentifier ('\\' :: rest))
  | word {c : Char} {rest : List Char} (start : Text.isIdentifierStart c)
    : Scans mode (c :: rest) (word (c :: rest))
  | number {c : Char} {rest : List Char} (opens : OpensNumber c rest)
    (decimal : c = '0' → rest.head? ≠ some 'x' ∧ rest.head? ≠ some 'X')
    : Scans mode (c :: rest) (number (c :: rest))
  | string {quote : Char} {rest : List Char} (quotes : quote = '"' ∨ quote = '\'')
    : Scans mode (quote :: rest) (string quote rest)
  | regex {rest : List Char} (operand : mode = .regex) : Scans mode ('/' :: rest) (regex false rest)
  | punctuator {c : Char} {rest : List Char} (noEscape : c ≠ '\\')
    (noStart : ¬Text.isIdentifierStart c) (noNumber : ¬OpensNumber c rest)
    (noQuote : c ≠ '"' ∧ c ≠ '\'') (noRegex : c = '/' → mode ≠ .regex)
    : Scans mode (c :: rest) (punctuator (c :: rest))

/-- Every text is read by one of the scanners. -/
theorem scans_token (mode : LexMode) (text : List Char) : Scans mode text (token mode text) := by
  unfold token
  split
  · exact .nothing
  · exact .hexNumber (.inl rfl)
  · exact .hexNumber (.inr rfl)
  next c rest lower upper =>
    split_ifs with escape start opens quotes slash
    · subst escape
      exact .escape
    · exact .word start
    · refine .number (by simpa [OpensNumber] using opens) ?_
      rintro rfl
      exact ⟨fun marked => by cases rest <;> simp_all, fun marked => by cases rest <;> simp_all⟩
    · exact .string (by simpa using quotes)
    · simp only [Bool.and_eq_true, decide_eq_true_eq] at slash
      obtain ⟨rfl, operand⟩ := slash
      exact .regex operand
    · refine .punctuator escape start (by simpa [OpensNumber] using opens) (by simpa using quotes) ?_
      simpa using slash

/-- Unless a hexadecimal number opens the text, its first character tells which scanner reads it. -/
theorem token_cons {mode : LexMode} {c : Char} {rest : List Char}
    (decimal : c = '0' → rest.head? ≠ some 'x' ∧ rest.head? ≠ some 'X')
    : token mode (c :: rest)
      = if c = '\\' then escapedIdentifier (c :: rest)
        else if Text.isIdentifierStart c then word (c :: rest)
        else if Text.isDigit c || c = '.' && rest.head?.any Text.isDigit then number (c :: rest)
        else if c = '"' || c = '\'' then string c rest
        else if c = '/' && mode = .regex then regex false rest
        else punctuator (c :: rest) := by
  rw [token]
  · rintro tail rfl rfl
    exact (decimal rfl).1 rfl
  · rintro tail rfl rfl
    exact (decimal rfl).2 rfl

/-- The scanner of a text is the only one. -/
theorem Scans.eq_token {mode : LexMode} {text : List Char} {scan : Scan}
    (scans : Scans mode text scan)
    : token mode text = scan := by
  cases scans with
  | nothing => rfl
  | hexNumber marked => rcases marked with rfl | rfl <;> rfl
  | escape => rfl
  | @word c rest start =>
      have notZero : c ≠ '0' := by
        rintro rfl
        exact absurd start (by decide)
      have notEscape : c ≠ '\\' := by
        rintro rfl
        exact absurd start (by decide)
      rw [token_cons (fun zero => absurd zero notZero), if_neg notEscape, if_pos start]
  | @number c rest opens decimal =>
      have notEscape : c ≠ '\\' := by
        rintro rfl
        exact absurd opens (by simp [OpensNumber]; decide)
      have notStart : ¬Text.isIdentifierStart c := by
        rcases opens with digit | ⟨rfl, _⟩
        · exact Text.not_isIdentifierStart_of_digit digit
        · decide
      rw [token_cons decimal, if_neg notEscape, if_neg notStart, if_pos (by simpa [OpensNumber] using opens)]
  | string quotes => rcases quotes with rfl | rfl <;> rfl
  | regex operand => subst operand; rfl
  | @punctuator c rest noEscape noStart noNumber noQuote noRegex =>
      have notZero : c ≠ '0' := by
        rintro rfl
        exact noNumber (.inl (by decide))
      rw [token_cons (fun zero => absurd zero notZero), if_neg noEscape, if_neg noStart,
        if_neg (by simpa [OpensNumber] using noNumber), if_neg (by simpa using noQuote),
        if_neg (by simpa using noRegex)]

-----------------------------------------------------------------------------------------
-- Scanners make progress
-----------------------------------------------------------------------------------------

theorem escapeStop_suffix_tail (text : List Char) : escapeStop ('\\' :: text) <:+ text := by
  unfold escapeStop
  split
  next rest same =>
    cases same
    exact (List.drop_suffix _ _).trans (List.suffix_cons _ _)
  next rest same =>
    cases same
    exact List.suffix_refl _
  next other =>
    exact absurd rfl (other text)

/-- Inside of an escape, or at one, an identifier passes over a character at least. -/
theorem identifierTail_suffix_tail {escaped : Nat} {c : Char} (text : List Char)
    (inner : escaped ≠ 0 ∨ c = '\\')
    : (identifierTail escaped (c :: text)).rest <:+ text := by
  cases escaped with
  | succ escaped => exact identifierTail_suffix escaped text
  | zero =>
      obtain rfl : c = '\\' := by simpa using inner
      rw [identifierTail, if_pos rfl]
      split
      · split
        · exact identifierTail_suffix 5 text
        · exact List.drop_suffix 5 text
      · exact escapeStop_suffix_tail text

theorem escapedIdentifier_suffix_tail (text : List Char)
    : (escapedIdentifier ('\\' :: text)).rest <:+ text := by
  unfold escapedIdentifier
  split
  · split
    · exact identifierTail_suffix_tail text (.inr rfl)
    · exact List.drop_suffix 5 text
  · exact escapeStop_suffix_tail text

/-- A word passes over its first character at least. -/
theorem word_suffix_tail {c : Char} (text : List Char) (start : Text.isIdentifierStart c)
    : (word (c :: text)).rest <:+ text := by
  have tail := List.dropWhile_suffix (l := text) Text.isIdentifierPart
  unfold word
  rw [List.dropWhile_cons_of_pos (Text.isIdentifierPart_of_start start)]
  dsimp only
  split
  · exact (identifierTail_suffix 0 _).trans tail
  · exact tail
  · exact tail

/-- A number passes over its first character at least. -/
theorem number_suffix_tail {c : Char} {text : List Char} (opens : OpensNumber c text)
    : (number (c :: text)).rest <:+ text := by
  by_cases digit : Text.isDigit c
  · have digits := List.dropWhile_suffix (l := text) Text.isDigit
    unfold number
    rw [List.dropWhile_cons_of_pos digit]
    dsimp only
    split
    · simpa using digits
    · split
      next fraction point =>
        rw [point] at digits
        exact (numberExponent_suffix _).trans
          ((List.dropWhile_suffix _).trans ((List.suffix_cons _ _).trans digits))
      next => exact (numberExponent_suffix _).trans digits
  · obtain ⟨rfl, _⟩ := opens.resolve_left digit
    unfold number
    rw [List.dropWhile_cons_of_neg digit, List.takeWhile_cons_of_neg digit]
    exact (numberExponent_suffix _).trans (List.dropWhile_suffix _)

/-- Even where no punctuator is found, a character is passed over. -/
theorem punctuator_suffix_tail (c : Char) (text : List Char)
    : (punctuator (c :: text)).rest <:+ text := by
  unfold punctuator
  split
  next kind spelling found =>
    have opens := longestPunctuator?_eq_some.mp found
    obtain ⟨count, length⟩ := Nat.exists_eq_succ_of_ne_zero
      (List.length_pos_iff.mpr (spelling_ne_nil _ opens.member)).ne'
    simp only [String.length_toList] at length
    rw [rest_found, length]
    exact List.drop_suffix count text
  next => exact List.suffix_refl _

/-- The first token of a text takes up at least its first character. -/
theorem token_suffix_tail (mode : LexMode) (c : Char) (text : List Char)
    : (token mode (c :: text)).rest <:+ text := by
  generalize same : token mode (c :: text) = scan
  have scans := scans_token mode (c :: text)
  rw [same] at scans
  cases scans with
  | @hexNumber marker rest => exact (hexNumber_suffix rest).trans (List.suffix_cons _ _)
  | escape => exact escapedIdentifier_suffix_tail text
  | word start => exact word_suffix_tail text start
  | number opens => exact number_suffix_tail opens
  | string => exact string_suffix c text
  | regex => exact regex_suffix false text
  | punctuator => exact punctuator_suffix_tail c text

/-- Every scanner leaves a suffix of its text. -/
theorem token_suffix (mode : LexMode) (text : List Char) : (token mode text).rest <:+ text := by
  cases text with
  | nil => exact List.suffix_refl _
  | cons c text => exact (token_suffix_tail mode c text).trans (List.suffix_cons _ _)

-----------------------------------------------------------------------------------------
-- The modes differ at slashes only
-----------------------------------------------------------------------------------------

/-- A text that begins with anything but a slash begins with the same token in both modes. -/
theorem token_mode (mode other : LexMode) {text : List Char} (noSlash : text.head? ≠ some '/')
    : token mode text = token other text := by
  symm
  apply Scans.eq_token
  have scans := scans_token mode text
  generalize token mode text = scan at scans
  cases scans with
  | nothing => exact .nothing
  | hexNumber marked => exact .hexNumber marked
  | escape => exact .escape
  | word start => exact .word start
  | number opens decimal => exact .number opens decimal
  | string quotes => exact .string quotes
  | regex => exact absurd rfl noSlash
  | punctuator noEscape noStart noNumber noQuote =>
      refine .punctuator noEscape noStart noNumber noQuote ?_
      rintro rfl
      exact absurd rfl noSlash

end EcmaSyntax.Scan
