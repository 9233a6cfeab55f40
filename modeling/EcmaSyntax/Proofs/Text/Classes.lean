import EcmaSyntax.Text.Blank
import EcmaSyntax.Text.Digit
import EcmaSyntax.Text.Identifier
import Mathlib.Tactic.SplitIfs
import Mathlib.Tactic.Tauto

/-! How the character classes of programs relate: which contain each other and which are disjoint. -/

namespace EcmaSyntax.Text

theorem le_iff_toNat_le {c d : Char} : c ≤ d ↔ c.toNat ≤ d.toNat := by
  rw [Char.le_def, UInt32.le_iff_toNat_le]
  rfl

-----------------------------------------------------------------------------------------
-- Digits
-----------------------------------------------------------------------------------------

/-- The decimal digits are those of ASCII. -/
theorem isDigit_iff {c : Char} : isDigit c = true ↔ 48 ≤ c.toNat ∧ c.toNat ≤ 57 := by
  simp only [isDigit, digitValue?, le_iff_toNat_le, Char.reduceToNat, Option.isSome_filter]
  split_ifs with decimal lower upper
  · simp only [Option.any_some, decide_eq_true_eq]
    omega
  · simp only [Option.any_some, decide_eq_true_eq]
    omega
  · simp only [Option.any_some, decide_eq_true_eq]
    omega
  · simpa using decimal

/-- Hexadecimal digits are letters and digits of ASCII. -/
theorem isHexDigit_iff {c : Char}
    : isHexDigit c = true
      ↔ (48 ≤ c.toNat ∧ c.toNat ≤ 57) ∨ (97 ≤ c.toNat ∧ c.toNat ≤ 102)
        ∨ (65 ≤ c.toNat ∧ c.toNat ≤ 70) := by
  simp only [isHexDigit, digitValue?, le_iff_toNat_le, Char.reduceToNat, Option.isSome_filter]
  split_ifs with decimal lower upper
  · simp only [Option.any_some, decide_eq_true_eq]
    omega
  · simp only [Option.any_some, decide_eq_true_eq]
    omega
  · simp only [Option.any_some, decide_eq_true_eq]
    omega
  · simp only [Option.any_none, Bool.false_eq_true, false_iff]
    omega

/-- The octal digits are those of ASCII. -/
theorem isOctalDigit_iff {c : Char} : isOctalDigit c = true ↔ 48 ≤ c.toNat ∧ c.toNat ≤ 55 := by
  simp only [isOctalDigit, digitValue?, le_iff_toNat_le, Char.reduceToNat, Option.isSome_filter]
  split_ifs with decimal lower upper
  · simp only [Option.any_some, decide_eq_true_eq]
    omega
  · simp only [Option.any_some, decide_eq_true_eq]
    omega
  · simp only [Option.any_some, decide_eq_true_eq]
    omega
  · simp only [Option.any_none, Bool.false_eq_true, false_iff]
    omega

-----------------------------------------------------------------------------------------
-- Identifiers
-----------------------------------------------------------------------------------------

/-- What an identifier begins with it may go on with. -/
theorem isIdentifierPart_of_start {c : Char} (start : isIdentifierStart c = true)
    : isIdentifierPart c = true := by
  unfold isIdentifierStart at start
  unfold isIdentifierPart
  split at start
  next ascii =>
    rw [if_pos ascii]
    simp only [asciiPartSet, CharSet.addInterval, CharSet.contains, inIntervals, List.any_cons,
      Bool.or_eq_true]
    exact .inr start
  next ascii => simp [ascii, start]

/-- No digit begins an identifier. -/
theorem not_isIdentifierStart_of_digit {c : Char} (digit : isDigit c = true)
    : ¬isIdentifierStart c = true := by
  have range := isDigit_iff.mp digit
  have ascii : isAscii c = true := by
    simp only [isAscii, decide_eq_true_eq]
    omega
  simp only [isIdentifierStart, ascii, if_true, asciiStartSet, CharSet.empty, CharSet.addInterval,
    CharSet.contains, inIntervals, List.any_cons, List.any_nil, Char.reduceToNat, Bool.or_false,
    Bool.or_eq_true, Bool.and_eq_true, decide_eq_true_eq]
  omega

-----------------------------------------------------------------------------------------
-- White space
-----------------------------------------------------------------------------------------

/-- Where no two intervals meet, no code point is in both tables. -/
theorem not_inIntervals_of_apart {first second : List (Nat × Nat)} {point : Nat}
    (apart
      : first.all (fun one => second.all fun other => one.2 < other.1 || other.2 < one.1) = true)
    (inside : inIntervals first point)
    : inIntervals second point = false := by
  rw [← Bool.not_eq_true]
  intro both
  obtain ⟨one, listed, bounds⟩ := List.any_eq_true.mp inside
  obtain ⟨other, otherListed, otherBounds⟩ := List.any_eq_true.mp both
  have separate := List.all_eq_true.mp (List.all_eq_true.mp apart one listed) other otherListed
  simp only [Bool.and_eq_true, Bool.or_eq_true, decide_eq_true_eq] at bounds otherBounds separate
  omega

/-- White space and the mark of byte orders stand in no identifier. -/
theorem not_inIntervals_of_part {c : Char} (part : isIdentifierPart c)
    : inIntervals ((0xFEFF, 0xFEFF) :: whiteSpaceTable) c.toNat = false := by
  unfold isIdentifierPart at part
  split at part
  · exact not_inIntervals_of_apart (by decide +kernel) part
  · simp only [isAlphabetic, isNumeric, Bool.or_eq_true, decide_eq_true_eq] at part
    rcases part with (((((low | middle) | high) | top) | numeric) | rfl) | rfl
    · exact not_inIntervals_of_apart (by decide +kernel) low
    · exact not_inIntervals_of_apart (by decide +kernel) middle
    · exact not_inIntervals_of_apart (by decide +kernel) high
    · exact not_inIntervals_of_apart (by decide +kernel) top
    · exact not_inIntervals_of_apart (by decide +kernel) numeric
    · decide
    · decide

/-- No blank is part of an identifier. -/
theorem isWhiteSpace_of_part {c : Char} (part : isIdentifierPart c) : isWhiteSpace c = false :=
  (Bool.or_eq_false_iff.mp (not_inIntervals_of_part part)).2

-----------------------------------------------------------------------------------------
-- Spacing
-----------------------------------------------------------------------------------------

/-- A blank or a line terminator. -/
def isSpacing (c : Char) : Bool :=
  isBlank c || isLineTerminator c

/-- All blanks and line terminators. -/
def spacings : List Char :=
  blanks ++ ['\n', '\r', '\u2028', '\u2029']

/-- The list of blanks and line terminators is complete. -/
theorem mem_spacings {c : Char} (spacing : isSpacing c = true) : c ∈ spacings := by
  simp only [isSpacing, isBlank, isLineTerminator, Bool.or_eq_true, List.contains_iff_mem,
    decide_eq_true_eq] at spacing
  simp only [spacings, List.mem_append, List.mem_cons, List.not_mem_nil, or_false]
  tauto

/-- A character that goes on no word, number or escape. -/
def isOutside (c : Char) : Bool :=
  !isIdentifierPart c && !isHexDigit c && c ≠ '\\' && c ≠ '.' && c ≠ '/'

/-- Spacing goes on no token. -/
theorem isOutside_of_spacing {c : Char} (spacing : isSpacing c = true) : isOutside c = true := by
  have all
      : spacings.all fun c =>
          inIntervals ((0xFEFF, 0xFEFF) :: whiteSpaceTable) c.toNat
          && (!isHexDigit c && c ≠ '\\' && c ≠ '.' && c ≠ '/') := by
    decide
  obtain ⟨separates, noMark⟩ := Bool.and_eq_true_iff.mp <|
    List.all_eq_true.mp all c (mem_spacings spacing)
  have noPart : isIdentifierPart c = false := by
    rw [← Bool.not_eq_true]
    intro part
    rw [not_inIntervals_of_part part] at separates
    cases separates
  simpa [isOutside, noPart] using noMark

end EcmaSyntax.Text
