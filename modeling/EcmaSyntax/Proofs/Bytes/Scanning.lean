import EcmaSyntax.Proofs.Bytes.Cursor
import EcmaSyntax.Proofs.Token.Names
import EcmaSyntax.Proofs.Token.Replacing

/-! The scanners of tokens, by byte offsets. Each of them goes as far as the scanner on characters does
and comes to the same verdict.
-/

namespace EcmaSyntax.Bytes

open Text (size)

namespace Lexing

-----------------------------------------------------------------------------------------
-- Identifiers
-----------------------------------------------------------------------------------------

/-- So many hexadecimal digits, which go on with the number. -/
def escapeDigits : Nat → Nat → Lexing Nat
  | 0, code => return code
  | count + 1, code => do
      match (← peek).bind (Text.digitValue? 16) with
      | none => fail .invalidCharacterEscape
      | some digit => do
          advance 1
          escapeDigits count (16 * code + digit)

/-- The character of an escape. -/
def unicodeEscape : Lexing Char := do
  advance 1
  if (← peek) = some 'u' then
    advance 1
    match Text.charOfCode? (← escapeDigits 4 0) with
    | some c => return c
    | none => fail .invalidCharacterEscape
  else
    fail .invalidCharacterEscape

/-- Passes over an escape, which has to stand for a character of the class. -/
def escapeOf (allowed : Char → Bool) : Lexing Unit := do
  if allowed (← unicodeEscape) then return else fail .invalidCharacterEscape

/-- Passes over another part of an identifier, unless it ends here. -/
def identifierPart : Lexing (Unit ⊕ Kind) := do
  match ← peek with
  | none => return .inr .identifier
  | some c =>
      if c = '\\' then
        escapeOf Text.isIdentifierPart
        return .inl ⟨⟩
      else if !Text.isAscii c && Text.isIdentifierPart c then
        advance c.utf8Size
        return .inl ⟨⟩
      else
        return .inr .identifier

/-- Passes over the ASCII characters of an identifier and another part of it. -/
def identifierStep (_ : Unit) : Lexing (Unit ⊕ Kind) := do
  let width ← widthOf Text.asciiPartSet.contains
  advance width
  identifierPart

/-- An identifier, which an escape or any other character begins. -/
def identifier : Lexing Kind := do
  match ← peek with
  | none => fail .unexpectedEnd
  | some c =>
      if c = '\\' then
        escapeOf Text.isIdentifierStart
        repeating identifierStep ⟨⟩
      else
        advance c.utf8Size
        repeating identifierStep ⟨⟩

-----------------------------------------------------------------------------------------
-- Numbers
-----------------------------------------------------------------------------------------

/-- A number must not run into an identifier or into another digit. -/
def numberEnd : Lexing Kind := do
  match ← peek with
  | none => return .literalNumber
  | some c =>
      if c = '\\' || Text.isDigit c || Text.isIdentifierStart c then
        fail .malformedLiteralNumber
      else
        return .literalNumber

/-- Passes over a sign, if there is one. -/
def sign : Lexing Unit := do
  match ← peek with
  | some '+' | some '-' => advance 1
  | _ => return

/-- Passes over digits of which there has to be one, to the end of the number. -/
def lastDigits (isDigit : Char → Bool) : Lexing Kind := do
  let width ← widthOf isDigit
  advance width
  if width = 0 then fail .malformedLiteralNumber else numberEnd

/-- The exponent of a number, if there is one. -/
def exponent : Lexing Kind := do
  match ← peek with
  | none => numberEnd
  | some c =>
      if c = 'e' || c = 'E' then
        advance 1
        sign
        lastDigits Text.isDigit
      else
        numberEnd

/-- A number that is not hexadecimal. Its first digits tell whether it is octal. -/
def number : Lexing Kind := do
  let start ← offset
  widthOf Text.isDigit >>= advance
  let digits ← since start
  if isLegacyOctal digits then
    numberEnd
  else if (← peek) = some '.' then
    advance 1
    widthOf Text.isDigit >>= advance
    exponent
  else
    exponent

def hexNumber : Lexing Kind := do
  advance 2
  lastDigits Text.isHexDigit

-----------------------------------------------------------------------------------------
-- Strings and regular expressions
-----------------------------------------------------------------------------------------

/-- Passes over the character if it is the next one. -/
def passIf (c : Char) : Lexing Unit := do
  if (← peek) = some c then advance c.utf8Size else return

/-- Passes over an escape of a string; a line feed after a carriage return belongs to it. -/
def stringEscape : Lexing Unit := do
  advance 1
  match ← peek with
  | none => fail .unterminatedString
  | some '\r' => do
      advance 1
      passIf '\n'
  | some escaped => advance escaped.utf8Size

/-- Passes over the quote that ends a string, or over an escape in it. -/
def stringPart : Lexing (Unit ⊕ Kind) := do
  match ← peek with
  | none => fail .unterminatedString
  | some c =>
      if c = '\\' then
        stringEscape
        return .inl ⟨⟩
      else
        advance 1
        return .inr .literalString

/-- Passes over a stretch of a string up to its end or behind an escape. A line terminator in the
stretch is where the string fails. -/
def stringStep (quote : Char) (_ : Unit) : Lexing (Unit ⊕ Kind) := do
  let width ← widthBefore '\\' quote
  let run ← ahead width
  if run.any Text.isLineTerminator then
    advance (size (run.takeWhile fun c => !Text.isLineTerminator c))
    fail .lineTerminatorInString
  else
    advance width
    stringPart

/-- A string, which ends with the character that it begins with. -/
def string : Lexing Kind := do
  match ← peek with
  | none => fail .unexpectedEnd
  | some quote =>
      advance 1
      repeating (stringStep quote) ⟨⟩

/-- Passes over a character of a regular expression, or over an escape. -/
def regexStep (inClass : Bool) : Lexing (Bool ⊕ Unit) := do
  match ← peek with
  | none => fail .unterminatedRegex
  | some c =>
      if Text.isLineTerminator c then
        fail .unterminatedRegex
      else
        advance c.utf8Size
        if c = '\\' then
          match ← peek with
          | none => fail .unterminatedRegex
          | some escaped =>
              if Text.isLineTerminator escaped then
                fail .unterminatedRegex
              else
                advance escaped.utf8Size
                return .inl inClass
        else if c = '/' && !inClass then
          return .inr ⟨⟩
        else
          return .inl (c = '[' || inClass && c != ']')

/-- A regular expression with its flags. -/
def regex : Lexing Kind := do
  advance 1
  repeating regexStep false
  widthOf Text.asciiPartSet.contains >>= advance
  return .literalRegex

end Lexing

/-- The action comes to the verdict of the scanner and goes as far. -/
abbrev Yields (source : List Char) (action : Lexing Kind) (text : List Char) (scan : Scan) : Prop :=
  Gives source action text scan.verdict scan.rest

variable {source text rest : List Char} {c : Char}

-----------------------------------------------------------------------------------------
-- Escapes
-----------------------------------------------------------------------------------------

/-- Digits are passed over up to their number, or up to the first character that is none. -/
theorem escapeDigits_gives (source : List Char) (count code : Nat) (text : List Char)
    : (∃ value,
        count ≤ text.length
        ∧ Text.foldDigits? 16 code (text.take count) = some value
        ∧ Gives source (Lexing.escapeDigits count code) text (.ok value) (text.drop count))
      ∨ ¬(count ≤ text.length ∧ ∀ c ∈ text.take count, Text.isHexDigit c)
        ∧ Gives source (Lexing.escapeDigits count code) text (.error .invalidCharacterEscape)
            (text.drop ((text.take count).takeWhile Text.isHexDigit).length) := by
  induction count generalizing code text with
  | zero => exact .inl ⟨code, Nat.zero_le _, rfl, .pure code text⟩
  | succ count ih =>
      cases text with
      | nil => exact .inr ⟨by simp, (Gives.peek []).bind (.fail _ [])⟩
      | cons c rest =>
          cases value : Text.digitValue? 16 c with
          | none =>
              have noDigit : Text.isHexDigit c = false := by simp [Text.isHexDigit, value]
              refine .inr ⟨by simp [noDigit], (Gives.peek (c :: rest)).bind ?_⟩
              simpa [value, noDigit] using Gives.fail _ (c :: rest)
          | some digit =>
              have isDigit : Text.isHexDigit c = true := by simp [Text.isHexDigit, value]
              have passed {result : Except Cause Nat} {after : List Char}
                  (onward : Gives source (Lexing.escapeDigits count (16 * code + digit)) rest result after)
                  : Gives source (Lexing.escapeDigits (count + 1) code) (c :: rest) result after := by
                refine (Gives.peek (c :: rest)).bind ?_
                simp only [List.head?_cons, Option.bind_some, value]
                exact (Gives.advance_one (Text.utf8Size_of_isHexDigit isDigit) rest).bind onward
              rcases ih (16 * code + digit) rest with ⟨number, fits, folded, gives⟩ | ⟨broken, gives⟩
              · exact .inl ⟨number, by simpa using fits, by simp [Text.foldDigits?, value, folded],
                  passed gives⟩
              · refine .inr ⟨?_, ?_⟩
                · simpa [isDigit] using broken
                · simpa [isDigit] using passed gives

/-- Four hexadecimal digits after `\u` are the code of a character. -/
theorem escapedChar?_eq (rest : List Char)
    : Scan.escapedChar? ('\\' :: 'u' :: rest)
      = if 4 ≤ rest.length then
          (Text.foldDigits? 16 0 (rest.take 4)).bind Text.charOfCode?
        else
          none := by
  match rest with
  | [] | [_] | [_, _] | [_, _, _] => rfl
  | _ :: _ :: _ :: _ :: _ => simp [Scan.escapedChar?, Text.digitsValue?]

/-- Without `u` after the backslash there is no escape. -/
theorem escapedChar?_of_unmarked {text : List Char} (unmarked : text.head? ≠ some 'u')
    : Scan.escapedChar? ('\\' :: text) = none ∧ Scan.escapeStop ('\\' :: text) = text := by
  cases text with
  | nil => exact ⟨rfl, rfl⟩
  | cons c rest =>
      have other : c ≠ 'u' := fun same => unmarked (congrArg some same)
      constructor
      · unfold Scan.escapedChar?
        split
        next same => simp_all
        next => rfl
      · unfold Scan.escapeStop
        split
        next same => simp_all
        next same => exact (List.cons.inj same).2.symm
        next => simp_all

/-- An escape stands for a character, or the scanner stops behind the digits that it has. -/
theorem Gives.unicodeEscape (source text : List Char)
    : (∃ c,
        Scan.escapedChar? ('\\' :: text) = some c
        ∧ Gives source Lexing.unicodeEscape ('\\' :: text) (.ok c) (text.drop 5))
      ∨ Scan.escapedChar? ('\\' :: text) = none
        ∧ Gives source Lexing.unicodeEscape ('\\' :: text) (.error .invalidCharacterEscape)
            (Scan.escapeStop ('\\' :: text)) := by
  by_cases marked : text.head? = some 'u'
  · obtain ⟨rest, rfl⟩ : ∃ rest, text = 'u' :: rest := ⟨_, List.eq_cons_of_mem_head? marked⟩
    have opened {result : Except Cause Char} {after : List Char}
        (onward
          : Gives source
              (Lexing.escapeDigits 4 0 >>= fun code =>
                match Text.charOfCode? code with
                | some c => pure c
                | none => Lexing.fail .invalidCharacterEscape)
              rest result after)
        : Gives source Lexing.unicodeEscape ('\\' :: 'u' :: rest) result after :=
      (Gives.advance ['\\'] _).bind ((Gives.peek _).bind ((Gives.advance ['u'] rest).bind onward))
    rw [escapedChar?_eq]
    rcases escapeDigits_gives source 4 0 rest with ⟨value, fits, folded, digits⟩ | ⟨broken, digits⟩
    · rw [if_pos fits, folded, Option.bind_some]
      cases coded : Text.charOfCode? value with
      | some c =>
          refine .inl ⟨c, rfl, opened (digits.bind ?_)⟩
          rw [coded]
          exact .pure c _
      | none =>
          have all : (rest.take 4).takeWhile Text.isHexDigit = rest.take 4 :=
            List.takeWhile_eq_self_iff.mpr (Text.digit_of_foldDigits? folded)
          have stop : Scan.escapeStop ('\\' :: 'u' :: rest) = rest.drop 4 := by
            simp [Scan.escapeStop, all, fits]
          refine .inr ⟨rfl, opened (digits.bind ?_)⟩
          rw [coded, stop]
          exact .fail _ _
    · refine .inr ⟨?_, opened (digits.bind_error _)⟩
      split
      next fits =>
        cases folded : Text.foldDigits? 16 0 (rest.take 4) with
        | none => rfl
        | some value => exact absurd ⟨fits, Text.digit_of_foldDigits? folded⟩ broken
      next => rfl
  · obtain ⟨none_eq, stop⟩ := escapedChar?_of_unmarked marked
    refine .inr ⟨none_eq, (Gives.advance ['\\'] text).bind ((Gives.peek text).bind ?_)⟩
    rw [if_neg marked, stop]
    exact .fail _ text

/-- An escape is passed over if it stands for a character that is allowed. -/
theorem Gives.escapeOf (source : List Char) (allowed : Char → Bool) (text : List Char)
    : (∃ c,
        Scan.escapedChar? ('\\' :: text) = some c
        ∧ allowed c
        ∧ Gives source (Lexing.escapeOf allowed) ('\\' :: text) (.ok ⟨⟩) (text.drop 5))
      ∨ (∃ c,
          Scan.escapedChar? ('\\' :: text) = some c
          ∧ ¬allowed c
          ∧ Gives source (Lexing.escapeOf allowed) ('\\' :: text) (.error .invalidCharacterEscape)
              (text.drop 5))
      ∨ Scan.escapedChar? ('\\' :: text) = none
        ∧ Gives source (Lexing.escapeOf allowed) ('\\' :: text) (.error .invalidCharacterEscape)
            (Scan.escapeStop ('\\' :: text)) := by
  rcases Gives.unicodeEscape source text with ⟨c, escaped, gives⟩ | ⟨none_eq, gives⟩
  · by_cases isAllowed : allowed c
    · exact .inl ⟨c, escaped, isAllowed, gives.bind (by rw [if_pos isAllowed]; exact .pure _ _)⟩
    · exact .inr (.inl
        ⟨c, escaped, isAllowed, gives.bind (by rw [if_neg isAllowed]; exact .fail _ _)⟩)
  · exact .inr (.inr ⟨none_eq, gives.bind_error _⟩)

-----------------------------------------------------------------------------------------
-- Identifiers
-----------------------------------------------------------------------------------------

theorem identifierTail_drop (escaped : Nat) (text : List Char)
    : Scan.identifierTail escaped text = Scan.identifierTail 0 (text.drop escaped) := by
  induction escaped generalizing text with
  | zero => rfl
  | succ escaped ih =>
      cases text with
      | nil => simp [Scan.identifierTail]
      | cons c rest => rw [Scan.identifierTail, ih, List.drop_succ_cons]

/-- A part of an identifier is passed over. -/
theorem identifierTail_part (part : Text.isIdentifierPart c) (rest : List Char)
    : Scan.identifierTail 0 (c :: rest) = Scan.identifierTail 0 rest := by
  have noEscape : c ≠ '\\' := by
    rintro rfl
    exact absurd part (by decide)
  rw [Scan.identifierTail, if_neg noEscape, if_pos part]

/-- Among ASCII characters, the set decides which ones go on with a name. -/
theorem isIdentifierPart_of_ascii (isAscii : Text.isAscii c)
    : Text.isIdentifierPart c = Text.asciiPartSet.contains c := by
  rw [Text.isIdentifierPart, if_pos isAscii]

theorem isAscii_of_asciiPart (part : Text.asciiPartSet.contains c) : Text.isAscii c := by
  simp [Text.asciiPartSet, Text.asciiStartSet, Text.CharSet.addInterval, Text.CharSet.contains,
    Text.CharSet.empty, Text.inIntervals, Text.isAscii] at part ⊢
  omega

theorem isIdentifierPart_of_asciiPart (part : Text.asciiPartSet.contains c)
    : Text.isIdentifierPart c :=
  (isIdentifierPart_of_ascii (isAscii_of_asciiPart part)).trans part

/-- Characters of an identifier can be passed over at once. -/
theorem identifierTail_dropWhile {among : Char → Bool}
    (parts : ∀ c, among c → Text.isIdentifierPart c) (text : List Char)
    : Scan.identifierTail 0 (text.dropWhile among) = Scan.identifierTail 0 text := by
  induction text with
  | nil => rfl
  | cons c rest ih =>
      rw [List.dropWhile_cons]
      split
      next part => rw [ih, identifierTail_part (parts c part)]
      next => rfl

/-- Behind the ASCII characters an identifier ends, or goes on with an escape or another character. -/
theorem identifierPart_gives (source : List Char) {text : List Char}
    (stops : ∀ c ∈ text.head?, Text.asciiPartSet.contains c = false)
    : (∃ rest,
        rest.length < text.length
        ∧ Scan.identifierTail 0 text = Scan.identifierTail 0 rest
        ∧ Gives source Lexing.identifierPart text (.ok (.inl ⟨⟩)) rest)
      ∨ Gives source Lexing.identifierPart text ((Scan.identifierTail 0 text).verdict.map .inr)
          (Scan.identifierTail 0 text).rest := by
  cases text with
  | nil => exact .inr ((Gives.peek []).bind (.pure _ []))
  | cons c rest =>
      have noAscii := stops c rfl
      by_cases backslash : c = '\\'
      · subst backslash
        rw [Scan.identifierTail, if_pos rfl]
        rcases Gives.escapeOf source Text.isIdentifierPart rest
          with ⟨part, escaped, allowed, gives⟩ | ⟨part, escaped, refused, gives⟩ | ⟨broken, gives⟩
        · refine .inl
            ⟨rest.drop 5, by rw [List.length_drop, List.length_cons]; omega, ?_,
              (Gives.peek _).bind (gives.bind (.pure _ _))⟩
          rw [escaped]
          dsimp only
          rw [if_pos allowed, identifierTail_drop]
        · rw [escaped]
          dsimp only
          rw [if_neg refused]
          exact .inr ((Gives.peek _).bind (gives.bind_error _))
        · rw [broken]
          exact .inr ((Gives.peek _).bind (gives.bind_error _))
      · by_cases inner : Text.isIdentifierPart c
        · have beyond : (!Text.isAscii c && Text.isIdentifierPart c) = true := by
            rw [inner, Bool.and_true, Bool.not_eq_true']
            by_contra ascii
            rw [Bool.not_eq_false] at ascii
            simp [isIdentifierPart_of_ascii ascii, noAscii] at inner
          refine .inl ⟨rest, Nat.lt_succ_self _, identifierTail_part inner rest,
            (Gives.peek _).bind ?_⟩
          rw [List.head?_cons]
          dsimp only
          rw [if_neg backslash, if_pos beyond]
          exact (Gives.advance_char c rest).bind (.pure _ _)
        · rw [Scan.identifierTail, if_neg backslash, if_neg inner]
          refine .inr ((Gives.peek _).bind ?_)
          rw [List.head?_cons]
          dsimp only
          rw [if_neg backslash, if_neg (by simp [inner])]
          exact .pure _ _

/-- The loop over the parts of a name goes as far as the name does, by induction on the text. -/
theorem identifier_loops (source text : List Char)
    : Loops source Lexing.identifierStep ⟨⟩ text (Scan.identifierTail 0 text).verdict
        (Scan.identifierTail 0 text).rest := by
  induction length_eq : text.length using Nat.strong_induction_on generalizing text with
  | h length ih =>
  subst length_eq
  have bound := List.length_dropWhile_le Text.asciiPartSet.contains text
  have stops
      : ∀ c ∈ (text.dropWhile Text.asciiPartSet.contains).head?,
          Text.asciiPartSet.contains c = false := by
    intro c first
    have outside := List.head?_dropWhile_not Text.asciiPartSet.contains text
    rwa [Option.mem_def.mp first] at outside
  rw [← identifierTail_dropWhile (fun _ => isIdentifierPart_of_asciiPart) text]
  have passed {result : Except Cause (Unit ⊕ Kind)} {after : List Char}
      (further
        : Gives source Lexing.identifierPart (text.dropWhile Text.asciiPartSet.contains) result after)
      : Gives source (Lexing.identifierStep ⟨⟩) text result after :=
    (Gives.widthOf _ text).bind ((Gives.advance_takeWhile _ text).bind further)
  rcases identifierPart_gives source stops with ⟨rest, shorter, same, gives⟩ | gives
  · have fewer : rest.length < text.length := Nat.lt_of_lt_of_le shorter bound
    rw [same]
    exact .more (passed gives) fewer (ih _ fewer _ rfl)
  · exact .last (passed gives)

/-- Behind its first character a word goes on as any identifier does. -/
theorem Gives.identifier (noEscape : c ≠ '\\') (rest : List Char)
    : Yields source Lexing.identifier (c :: rest) (Scan.identifierTail 0 rest) := by
  refine (Gives.peek _).bind ?_
  rw [List.head?_cons]
  dsimp only
  rw [if_neg noEscape]
  exact (Gives.advance_char c rest).bind (identifier_loops source rest).gives

/-- A name that begins with an escape is read by bytes as by characters. -/
theorem Gives.escapedIdentifier (rest : List Char)
    : Yields source Lexing.identifier ('\\' :: rest) (Scan.escapedIdentifier ('\\' :: rest)) := by
  refine (Gives.peek _).bind ?_
  unfold Scan.escapedIdentifier
  rcases Gives.escapeOf source Text.isIdentifierStart rest
    with ⟨start, escaped, allowed, gives⟩ | ⟨start, escaped, refused, gives⟩ | ⟨broken, gives⟩
  · rw [escaped]
    dsimp only
    rw [if_pos allowed, identifierTail_drop]
    exact gives.bind (identifier_loops source _).gives
  · rw [escaped]
    dsimp only
    rw [if_neg refused]
    exact gives.bind_error _
  · rw [broken]
    exact gives.bind_error _

-----------------------------------------------------------------------------------------
-- Numbers
-----------------------------------------------------------------------------------------

/-- What stands behind a number is looked at by bytes as by characters. -/
theorem Gives.numberEnd (text : List Char)
    : Yields source Lexing.numberEnd text (Scan.numberEnd text) := by
  refine (Gives.peek text).bind ?_
  cases text with
  | nil => exact .pure _ []
  | cons c rest =>
      dsimp only [List.head?_cons, Scan.numberEnd]
      split
      · exact .fail _ _
      · exact .pure _ _

/-- A sign is passed over if there is one. -/
theorem Gives.sign (text : List Char)
    : Gives source Lexing.sign text (.ok ⟨⟩) (Decimal.readSign text).2 := by
  refine (Gives.peek text).bind ?_
  fun_cases Decimal.readSign text with
  | case1 rest => exact .advance ['+'] rest
  | case2 rest => exact .advance ['-'] rest
  | case3 text noPlus noMinus =>
      cases text with
      | nil => exact .pure _ []
      | cons c rest =>
          have neither : c ≠ '+' ∧ c ≠ '-' := by
            constructor <;> rintro rfl
            · exact noPlus rest rfl
            · exact noMinus rest rfl
          simp only [List.head?_cons]
          split
          next same => exact absurd (Option.some.inj same) neither.1
          next same => exact absurd (Option.some.inj same) neither.2
          next => exact .pure _ _

/-- Of the last digits of a number there is one at least. -/
theorem Gives.lastDigits (isDigit : Char → Bool) (text : List Char)
    : Yields source (Lexing.lastDigits isDigit) text
        (if (text.takeWhile isDigit).isEmpty then Scan.failed .malformedLiteralNumber text
          else Scan.numberEnd (text.dropWhile isDigit)) := by
  refine (Gives.widthOf isDigit text).bind ((Gives.advance_takeWhile isDigit text).bind ?_)
  split
  next none =>
    have empty := Text.size_eq_zero.mp none
    have whole : text.dropWhile isDigit = text := by
      simpa [empty] using List.takeWhile_append_dropWhile (p := isDigit) (l := text)
    rw [if_pos (List.isEmpty_iff.mpr empty), whole]
    exact .fail _ _
  next present =>
    rw [if_neg (mt (fun empty => Text.size_eq_zero.mpr (List.isEmpty_iff.mp empty)) present)]
    exact .numberEnd _

/-- An exponent is read by bytes as by characters, by cases on whether there is one. -/
theorem Gives.exponent (text : List Char)
    : Yields source Lexing.exponent text (Scan.numberExponent text) := by
  refine (Gives.peek text).bind ?_
  cases text with
  | nil => exact .numberEnd []
  | cons c rest =>
      dsimp only [List.head?_cons, Scan.numberExponent]
      split
      next marks =>
        have single : c.utf8Size = 1 := by
          simp only [Bool.or_eq_true, decide_eq_true_eq] at marks
          rcases marks with rfl | rfl <;> rfl
        exact (Gives.advance_one single rest).bind ((Gives.sign rest).bind (.lastDigits _ _))
      next => exact .numberEnd _

/-- A number that is not hexadecimal is read by bytes as by characters. -/
theorem Gives.number (text : List Char)
    : Yields source Lexing.number text (Scan.number text) := by
  intro within
  have whole := List.takeWhile_append_dropWhile (p := Text.isDigit) (l := text)
  have digits
      : Gives source (Lexing.since (offsetOf source text)) (text.dropWhile Text.isDigit)
          (.ok (text.takeWhile Text.isDigit)) (text.dropWhile Text.isDigit) := by
    have slice := Gives.since (text.takeWhile Text.isDigit) (text.dropWhile Text.isDigit)
      (whole.symm ▸ within)
    rwa [whole] at slice
  revert within
  refine (Gives.offset text).bind ((Gives.passOver Text.isDigit text).bind (digits.bind ?_))
  unfold Scan.number
  dsimp only
  split
  next => exact .numberEnd _
  next =>
    generalize text.dropWhile Text.isDigit = rest
    refine (Gives.peek rest).bind ?_
    split
    next point =>
      obtain ⟨fraction, rfl⟩ : ∃ fraction, rest = '.' :: fraction :=
        ⟨_, List.eq_cons_of_mem_head? point⟩
      exact (Gives.advance ['.'] fraction).bind ((Gives.passOver _ _).bind (.exponent _))
    next noPoint =>
      split
      next fraction => exact absurd rfl noPoint
      next => exact .exponent rest

/-- A hexadecimal number is read by bytes as by characters. -/
theorem Gives.hexNumber {marker : Char} (marked : marker = 'x' ∨ marker = 'X') (rest : List Char)
    : Yields source Lexing.hexNumber ('0' :: marker :: rest) (Scan.hexNumber rest) := by
  have opened : Gives source (Lexing.advance 2) ('0' :: marker :: rest) (.ok ⟨⟩) rest := by
    rcases marked with rfl | rfl
    · exact .advance ['0', 'x'] rest
    · exact .advance ['0', 'X'] rest
  exact opened.bind (.lastDigits Text.isHexDigit rest)

-----------------------------------------------------------------------------------------
-- Strings
-----------------------------------------------------------------------------------------

/-- A stretch without escapes and quotes is passed over up to its first line terminator. -/
theorem string_append {quote : Char} {run : List Char}
    (plain : ∀ c ∈ run, c ≠ '\\' ∧ c ≠ quote) (tail : List Char)
    : Scan.string quote (run ++ tail)
      = if run.any Text.isLineTerminator then
          Scan.failed .lineTerminatorInString
            (run.dropWhile (fun c => !Text.isLineTerminator c) ++ tail)
        else
          Scan.string quote tail := by
  induction run with
  | nil => rfl
  | cons c rest ih =>
      obtain ⟨⟨noEscape, noQuote⟩, others⟩ := List.forall_mem_cons.mp plain
      rw [List.cons_append, Scan.string_cons noEscape, if_neg noQuote, ih others]
      cases terminator : Text.isLineTerminator c <;> simp [terminator]

theorem Gives.passIf_cons (c : Char) (rest : List Char)
    : Gives source (Lexing.passIf c) (c :: rest) (.ok ⟨⟩) rest := by
  refine (Gives.peek _).bind ?_
  rw [if_pos (by rfl)]
  exact .advance_char c rest

theorem Gives.passIf_other (other : text.head? ≠ some c)
    : Gives source (Lexing.passIf c) text (.ok ⟨⟩) text := by
  refine (Gives.peek _).bind ?_
  rw [if_neg other]
  exact .pure _ text

/-- Behind the characters of an escape the string goes on. -/
theorem Gives.stringEscape (source : List Char) (quote c : Char) (rest : List Char)
    : ∃ tail,
        tail.length ≤ rest.length
        ∧ Scan.string quote ('\\' :: c :: rest) = Scan.string quote tail
        ∧ Gives source Lexing.stringEscape ('\\' :: c :: rest) (.ok ⟨⟩) tail := by
  have opened {tail : List Char}
      (further
        : Gives source
            (match some c with
              | none => Lexing.fail .unterminatedString
              | some '\r' => Lexing.advance 1 >>= fun _ => Lexing.passIf '\n'
              | some escaped => Lexing.advance escaped.utf8Size)
            (c :: rest) (.ok ⟨⟩) tail)
      : Gives source Lexing.stringEscape ('\\' :: c :: rest) (.ok ⟨⟩) tail :=
    (Gives.advance ['\\'] _).bind ((Gives.peek _).bind further)
  by_cases carriage : c = '\r'
  · subst carriage
    by_cases feed : rest.head? = some '\n'
    · obtain ⟨tail, rfl⟩ : ∃ tail, rest = '\n' :: tail := ⟨_, List.eq_cons_of_mem_head? feed⟩
      exact ⟨tail, Nat.le_succ _, by rw [Scan.string],
        opened ((Gives.advance ['\r'] _).bind (.passIf_cons '\n' tail))⟩
    · refine ⟨rest, Nat.le_refl _, ?_, opened ((Gives.advance ['\r'] _).bind (.passIf_other feed))⟩
      rw [Scan.string]
      rintro tail _ rfl
      exact feed rfl
  · refine ⟨rest, Nat.le_refl _, ?_, opened ?_⟩
    · rw [Scan.string]
      exact fun tail same => absurd same carriage
    · split
      next same => cases same
      next same => exact absurd (Option.some.inj same) carriage
      next same =>
        cases same
        exact .advance_char _ rest

/-- Where a stretch of a string ends, the string ends or goes on behind an escape. -/
theorem stringPart_gives {quote : Char} (isAscii : Text.isAscii quote) (source : List Char)
    {text : List Char} (stops : ∀ c ∈ text.head?, c = '\\' ∨ c = quote)
    : (∃ rest,
        rest.length < text.length
        ∧ Scan.string quote text = Scan.string quote rest
        ∧ Gives source Lexing.stringPart text (.ok (.inl ⟨⟩)) rest)
      ∨ Gives source Lexing.stringPart text ((Scan.string quote text).verdict.map .inr)
          (Scan.string quote text).rest := by
  cases text with
  | nil => exact .inr ((Gives.peek []).bind (.fail _ []))
  | cons c rest =>
      by_cases escape : c = '\\'
      · subst escape
        cases rest with
        | nil =>
            have ended : Gives source Lexing.stringEscape ['\\'] (.error .unterminatedString) [] :=
              (Gives.advance ['\\'] []).bind ((Gives.peek []).bind (.fail _ []))
            exact .inr ((Gives.peek _).bind (ended.bind_error _))
        | cons c rest =>
            obtain ⟨tail, bound, same, gives⟩ := Gives.stringEscape source quote c rest
            refine .inl ⟨tail, ?_, same, (Gives.peek _).bind (gives.bind (.pure _ _))⟩
            simp only [List.length_cons]
            omega
      · obtain rfl : c = quote := (stops c rfl).resolve_left escape
        rw [Scan.string_cons escape, if_pos rfl]
        refine .inr ((Gives.peek _).bind ?_)
        rw [List.head?_cons]
        dsimp only
        rw [if_neg escape]
        exact (Gives.advance_one (utf8Size_of_isAscii isAscii) rest).bind (.pure _ _)

/-- The loop over the parts of a string goes as far as the string does, by induction on the text. -/
theorem string_loops {quote : Char} (isAscii : Text.isAscii quote) (source text : List Char)
    : Loops source (Lexing.stringStep quote) ⟨⟩ text (Scan.string quote text).verdict
        (Scan.string quote text).rest := by
  induction length_eq : text.length using Nat.strong_induction_on generalizing text with
  | h length ih =>
  subst length_eq
  have plain : ∀ c ∈ text.takeWhile (fun c => c ≠ '\\' && c ≠ quote), c ≠ '\\' ∧ c ≠ quote := by
    intro c member
    simpa using List.mem_takeWhile_imp member
  have stops
      : ∀ c ∈ (text.dropWhile fun c => c ≠ '\\' && c ≠ quote).head?, c = '\\' ∨ c = quote := by
    intro c first
    have outside := List.head?_dropWhile_not (fun c => c ≠ '\\' && c ≠ quote) text
    rw [Option.mem_def.mp first] at outside
    by_contra neither
    rw [not_or] at neither
    simp [neither] at outside
  have bothAscii : Text.isAscii '\\' ∧ Text.isAscii quote := ⟨by decide, isAscii⟩
  have width : Gives source _ _ _ _ := Gives.widthBefore bothAscii text
  have whole := List.takeWhile_append_dropWhile (p := fun c => c ≠ '\\' && c ≠ quote) (l := text)
  revert plain stops width whole
  generalize text.takeWhile (fun c => c ≠ '\\' && c ≠ quote) = run
  generalize text.dropWhile (fun c => c ≠ '\\' && c ≠ quote) = tail
  rintro plain stops width rfl
  rw [string_append plain]
  have stepped {result : Except Cause (Unit ⊕ Kind)} {after : List Char}
      (further
        : Gives source
            (if run.any Text.isLineTerminator then do
              Lexing.advance (size (run.takeWhile fun c => !Text.isLineTerminator c))
              Lexing.fail .lineTerminatorInString
            else do
              Lexing.advance (size run)
              Lexing.stringPart)
            (run ++ tail) result after)
      : Gives source (Lexing.stringStep quote ⟨⟩) (run ++ tail) result after :=
    width.bind ((Gives.ahead run tail).bind further)
  split at stepped
  next broken =>
    rw [if_pos broken]
    refine .fail (stepped ?_)
    exact (Gives.advance_takeWhile_append _ run tail).bind (.fail _ _)
  next unbroken =>
    rw [if_neg unbroken]
    rcases stringPart_gives isAscii source stops with ⟨rest, shorter, same, gives⟩ | gives
    · have fewer : rest.length < (run ++ tail).length := by
        rw [List.length_append]
        omega
      rw [same]
      exact .more (stepped ((Gives.advance run tail).bind gives)) fewer (ih _ fewer _ rfl)
    · exact .last (stepped ((Gives.advance run tail).bind gives))

/-- A string is read by bytes as by characters. -/
theorem Gives.string {quote : Char} (isAscii : Text.isAscii quote) (rest : List Char)
    : Yields source Lexing.string (quote :: rest) (Scan.string quote rest) :=
  (Gives.peek _).bind ((Gives.advance_one (utf8Size_of_isAscii isAscii) rest).bind
    (string_loops isAscii source rest).gives)

-----------------------------------------------------------------------------------------
-- Regular expressions
-----------------------------------------------------------------------------------------

/-- Behind a backslash another character is looked at. -/
theorem regexStep_escape {inClass : Bool} {result : Except Cause (Bool ⊕ Unit)}
    (further
      : Gives source
          (Lexing.peek >>= fun next =>
            match next with
            | none => Lexing.fail .unterminatedRegex
            | some escaped =>
                if Text.isLineTerminator escaped then
                  Lexing.fail .unterminatedRegex
                else do
                  Lexing.advance escaped.utf8Size
                  return .inl inClass)
          text result rest)
    : Gives source (Lexing.regexStep inClass) ('\\' :: text) result rest :=
  (Gives.peek _).bind ((Gives.advance ['\\'] text).bind further)

/-- Any other character is passed over, unless it ends the line or the expression. -/
theorem regexStep_plain {inClass : Bool} (noEscape : c ≠ '\\') (rest : List Char)
    : Gives source (Lexing.regexStep inClass) (c :: rest)
        (if Text.isLineTerminator c then .error .unterminatedRegex
          else if c = '/' && !inClass then .ok (.inr ⟨⟩)
          else .ok (.inl (c = '[' || inClass && c != ']')))
        (if Text.isLineTerminator c then c :: rest else rest) := by
  refine (Gives.peek _).bind ?_
  rw [List.head?_cons]
  dsimp only
  split
  next => exact .fail _ _
  next =>
    refine (Gives.advance_char c rest).bind ?_
    split
    next => exact .pure _ _
    next => exact .pure _ _

/-- The loop over the body of a regular expression ends where its flags begin, or where it fails. -/
theorem regex_loops (source : List Char) (inClass : Bool) (text : List Char)
    : ∃ result rest,
        Loops source Lexing.regexStep inClass text result rest
        ∧ Scan.regex inClass text
          = match result with
            | .ok _ => Scan.regexFlags rest
            | .error cause => Scan.failed cause rest := by
  fun_induction Scan.regex inClass text with
  | case1 inClass => exact ⟨.error _, [], .fail ((Gives.peek []).bind (.fail _ [])), rfl⟩
  | case2 inClass c rest terminator =>
      refine ⟨.error _, c :: rest, .fail (regexStep_escape ((Gives.peek _).bind ?_)), rfl⟩
      rw [List.head?_cons]
      dsimp only
      rw [if_pos terminator]
      exact .fail _ _
  | case3 inClass c rest inner ih =>
      obtain ⟨result, after, loops, same⟩ := ih
      refine ⟨result, after, .more (regexStep_escape ((Gives.peek _).bind ?_)) ?_ loops, same⟩
      · rw [List.head?_cons]
        dsimp only
        rw [if_neg inner]
        exact (Gives.advance_char c rest).bind (.pure _ _)
      · simp only [List.length_cons]
        omega
  | case4 inClass =>
      exact ⟨.error _, [], .fail (regexStep_escape ((Gives.peek []).bind (.fail _ []))), rfl⟩
  | case5 inClass c rest noEscape noEnd terminator =>
      have step : Gives source (Lexing.regexStep inClass) (c :: rest) _ _ :=
        regexStep_plain (Scan.plain_of_not_escape noEscape noEnd) rest
      rw [if_pos terminator, if_pos terminator] at step
      exact ⟨.error _, _, .fail step, rfl⟩
  | case6 inClass c rest noEscape noEnd inner closes =>
      have step : Gives source (Lexing.regexStep inClass) (c :: rest) _ _ :=
        regexStep_plain (Scan.plain_of_not_escape noEscape noEnd) rest
      rw [if_neg inner, if_pos closes, if_neg inner] at step
      exact ⟨.ok ⟨⟩, _, .stop step, rfl⟩
  | case7 inClass c rest noEscape noEnd inner goesOn ih =>
      have step : Gives source (Lexing.regexStep inClass) (c :: rest) _ _ :=
        regexStep_plain (Scan.plain_of_not_escape noEscape noEnd) rest
      rw [if_neg inner, if_neg goesOn, if_neg inner] at step
      obtain ⟨result, after, loops, same⟩ := ih
      exact ⟨result, after, .more step (Nat.lt_succ_self _) loops, same⟩

/-- A regular expression is read by bytes as by characters, its flags behind its body. -/
theorem Gives.regex (rest : List Char)
    : Yields source Lexing.regex ('/' :: rest) (Scan.regex false rest) := by
  obtain ⟨result, after, loops, same⟩ := regex_loops source false rest
  have body := loops.gives
  refine (Gives.advance ['/'] rest).bind ?_
  rw [same]
  cases result with
  | error cause => exact body.bind_error _
  | ok _ => exact body.bind ((Gives.passOver _ after).bind (.pure _ _))

end EcmaSyntax.Bytes
