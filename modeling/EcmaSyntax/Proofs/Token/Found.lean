import EcmaSyntax.Proofs.Token.Modes
import EcmaSyntax.Proofs.Token.Replacing

/-! What is found by which scanner. The kind of a token tells by which of them it was found, so that what holds of
the tokens of a kind is proved of one or two scanners.
-/

namespace EcmaSyntax.Scan

variable {kind : Kind} {whole rest : List Char}

-----------------------------------------------------------------------------------------
-- The kinds that a scanner finds
-----------------------------------------------------------------------------------------

theorem identifierTail_verdict {escaped : Nat}
    (scanned : identifierTail escaped whole = found kind rest)
    : kind = .identifier := by
  fun_induction identifierTail escaped whole with
  | case1 | case7 => exact (found_inj scanned).1.symm
  | case2 _ _ _ ih | case3 _ _ _ _ ih | case6 _ _ _ _ ih => exact ih scanned
  | case4 | case5 => exact absurd scanned failed_ne_found

theorem escapedIdentifier_verdict (scanned : escapedIdentifier whole = found kind rest)
    : kind = .identifier := by
  unfold escapedIdentifier at scanned
  split at scanned
  · split at scanned
    · exact identifierTail_verdict scanned
    · exact absurd scanned failed_ne_found
  · exact absurd scanned failed_ne_found

/-- What begins like a name is an identifier or a reserved word. -/
theorem word_verdict (scanned : word whole = found kind rest)
    : kind = .identifier ∨ kind.isWord := by
  have words : ∀ entry ∈ reservedWords, entry.1.isWord := by decide
  unfold word at scanned
  dsimp only at scanned
  split at scanned
  next => exact .inl (identifierTail_verdict scanned)
  next spelled _ =>
    obtain ⟨entry, listed, rfl⟩ := Option.map_eq_some_iff.mp spelled
    rw [← (found_inj scanned).1]
    exact .inr (words entry (List.mem_of_find?_eq_some listed))
  next => exact .inl (found_inj scanned).1.symm

theorem numberExponent_verdict (scanned : numberExponent whole = found kind rest)
    : kind = .literalNumber := by
  unfold numberExponent at scanned
  split at scanned
  · split at scanned
    · dsimp only at scanned
      split at scanned
      · exact absurd scanned failed_ne_found
      · exact (numberEnd_eq_found scanned).2.1
    · exact (numberEnd_eq_found scanned).2.1
  · exact (numberEnd_eq_found scanned).2.1

/-- What begins like a number is a number if it is a token. -/
theorem number_verdict (scanned : number whole = found kind rest) : kind = .literalNumber := by
  unfold number at scanned
  dsimp only at scanned
  split at scanned
  · exact (numberEnd_eq_found scanned).2.1
  · split at scanned
    · exact numberExponent_verdict scanned
    · exact numberExponent_verdict scanned

theorem hexNumber_verdict (scanned : hexNumber whole = found kind rest)
    : kind = .literalNumber := by
  unfold hexNumber at scanned
  split at scanned
  · exact absurd scanned failed_ne_found
  · exact (numberEnd_eq_found scanned).2.1

theorem string_verdict {quote : Char} (scanned : string quote whole = found kind rest)
    : kind = .literalString := by
  fun_induction string quote whole with
  | case1 | case4 | case6 => exact absurd scanned failed_ne_found
  | case2 tail ih | case3 c tail noBreak ih | case7 c tail _ _ _ _ _ ih => exact ih scanned
  | case5 => exact (found_inj scanned).1.symm

/-- Otherwise a token is a punctuator of the table. -/
theorem punctuator_verdict (scanned : punctuator whole = found kind rest)
    : kind.punctuator?.isSome := by
  have spelled : ∀ entry ∈ punctuators, entry.1.punctuator?.isSome := by decide
  unfold punctuator at scanned
  split at scanned
  next longest =>
    obtain ⟨rfl, _⟩ := found_inj scanned
    exact spelled _ (longestPunctuator?_eq_some.mp longest).member
  next => exact absurd scanned failed_ne_found

-----------------------------------------------------------------------------------------
-- The scanners that find a token
-----------------------------------------------------------------------------------------

/-- How a token is found, by one of the scanners. But for words and punctuators, the scanner tells the kind. -/
inductive FoundBy (mode : LexMode) (rest : List Char) : Kind → List Char → Prop
  | nothing : FoundBy mode rest .endOfInput []
  | hexNumber {marker : Char} {digits : List Char} (marked : marker = 'x' ∨ marker = 'X')
    (scanned : hexNumber digits = found .literalNumber rest)
    : FoundBy mode rest .literalNumber ('0' :: marker :: digits)
  | number {c : Char} {tail : List Char} (opens : OpensNumber c tail)
    (decimal : c = '0' → tail.head? ≠ some 'x' ∧ tail.head? ≠ some 'X')
    (scanned : number (c :: tail) = found .literalNumber rest)
    : FoundBy mode rest .literalNumber (c :: tail)
  | escape {tail : List Char} (scanned : escapedIdentifier ('\\' :: tail) = found .identifier rest)
    : FoundBy mode rest .identifier ('\\' :: tail)
  | word {kind : Kind} {c : Char} {tail : List Char} (start : Text.isIdentifierStart c)
    (named : kind = .identifier ∨ kind.isWord) (scanned : word (c :: tail) = found kind rest)
    : FoundBy mode rest kind (c :: tail)
  | string {quote : Char} {tail : List Char} (quotes : quote = '"' ∨ quote = '\'')
    (scanned : string quote tail = found .literalString rest)
    : FoundBy mode rest .literalString (quote :: tail)
  | regex {tail : List Char} (operand : mode = .regex)
    (scanned : regex false tail = found .literalRegex rest)
    : FoundBy mode rest .literalRegex ('/' :: tail)
  | punctuator {kind : Kind} {c : Char} {tail : List Char} (spelled : kind.punctuator?.isSome)
    (scanned : punctuator (c :: tail) = found kind rest)
    : FoundBy mode rest kind (c :: tail)

/-- Every token is found by one of the scanners. -/
theorem foundBy_of_token {mode : LexMode} (scanned : token mode whole = found kind rest)
    : FoundBy mode rest kind whole := by
  have scans := scans_token mode whole
  rw [scanned] at scans
  generalize scan_eq : found kind rest = scan at scans
  cases scans with
  | nothing =>
      obtain ⟨rfl, _⟩ := found_inj scan_eq
      exact .nothing
  | hexNumber marked =>
      obtain rfl := hexNumber_verdict scan_eq.symm
      exact .hexNumber marked scan_eq.symm
  | escape =>
      obtain rfl := escapedIdentifier_verdict scan_eq.symm
      exact .escape scan_eq.symm
  | word start => exact .word start (word_verdict scan_eq.symm) scan_eq.symm
  | number opens decimal =>
      obtain rfl := number_verdict scan_eq.symm
      exact .number opens decimal scan_eq.symm
  | string quotes =>
      obtain rfl := string_verdict scan_eq.symm
      exact .string quotes scan_eq.symm
  | regex operand =>
      obtain rfl := regex_verdict (congrArg Scan.verdict scan_eq.symm)
      exact .regex operand scan_eq.symm
  | punctuator => exact .punctuator (punctuator_verdict scan_eq.symm) scan_eq.symm

end EcmaSyntax.Scan
