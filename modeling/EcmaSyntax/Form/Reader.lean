import EcmaSyntax.Form.Basic
import EcmaSyntax.Number.Decimal
import EcmaSyntax.Text.Blank
import EcmaSyntax.Text.Size
import EcmaSyntax.Text.Units

/-!
Reading forms from their notation. Blanks may stand around values and commas, strings may stand
in single quotes, and a comma may stand before the end of a list.
-/

namespace EcmaSyntax

/-- Why a text is not a form. -/
inductive ReadCause where
  | unexpectedEnd
  | missingAtomName
  | unterminatedString
  | invalidEscape
  | missingValue
  | unterminatedList
  | missingComma
  | trailingText
  | tooDeep
  deriving DecidableEq, Repr

/-- The wording of a cause. -/
def ReadCause.message : ReadCause → String
  | unexpectedEnd => "unexpected end of input"
  | missingAtomName => "expected atom name"
  | unterminatedString => "unterminated string"
  | invalidEscape => "invalid unicode escape"
  | missingValue => "expected value"
  | unterminatedList => "unterminated list"
  | missingComma => "expected comma or end of list"
  | trailingText => "trailing characters"
  | tooDeep => "nesting too deep"

/-- A cause, and the text from the place of the error on. -/
structure ReadStop where
  cause : ReadCause
  rest : List Char
  deriving DecidableEq, Repr

/-- A cause at a byte offset. -/
structure ReadError where
  cause : ReadCause
  offset : Nat
  deriving DecidableEq, Repr

/-- The error on one line. -/
def ReadError.text (error : ReadError) : String :=
  s!"{error.cause.message} at offset {error.offset}"

namespace Form

/-- A character that a word does not go beyond. -/
def isDelimiter (c : Char) : Bool :=
  Text.isWhiteSpace c || c = ',' || c = '[' || c = ']'

/-- The text without blanks in front. -/
def skipBlanks (text : List Char) : List Char :=
  text.dropWhile Text.isWhiteSpace

/-- The word that a text begins with, which may be empty. -/
def wordOf (text : List Char) : List Char :=
  text.takeWhile fun c => !isDelimiter c

/-- The text after the word that it begins with. -/
def afterWord (text : List Char) : List Char :=
  text.dropWhile fun c => !isDelimiter c

/-- A word that writes a number: one of the three without digits, or a decimal number that begins with
a digit, a minus sign or a point. -/
def numberOfWord? (word : List Char) : Option Number :=
  if word = "NaN".toList then some .nan
  else if word = "Infinity".toList then some (.infinity false)
  else if word = "-Infinity".toList then some (.infinity true)
  else if word.head?.any fun c => Text.isDigit c || c = '-' || c = '.' then Number.ofText? word
  else none

/-- The units of a string up to its closing quote, and the text after it; `escaped` is the number of
characters of an escape still to be passed over. The four bytes after `\u` are hexadecimal digits, or a
plus sign and three of them. -/
def quotedUnits (quote : Char) : Nat → List Char → Except ReadStop (List UInt16 × List Char)
  | _, [] => .error ⟨.unterminatedString, []⟩
  | escaped + 1, _ :: rest => quotedUnits quote escaped rest
  | 0, c :: rest =>
      if c = quote then
        .ok ([], rest)
      else if c = '\\' then
        match rest with
        | [] => .error ⟨.unterminatedString, []⟩
        | 'u' :: after =>
            match (Text.take? 4 after).bind fun digits =>
                (Text.signedHexValue? digits).map fun value => (digits, value) with
            | some (digits, value) =>
                (quotedUnits quote (1 + digits.length) ('u' :: after)).map
                  fun (units, rest) => (value.toUInt16 :: units, rest)
            | none => .error ⟨.invalidEscape, after⟩
        | e :: after =>
            let own :=
              if e = 'n' then [0x0A]
              else if e = 'r' then [0x0D]
              else if e = 't' then [0x09]
              else Text.unitsOfChar e
            (quotedUnits quote 1 (e :: after)).map fun (units, rest) => (own ++ units, rest)
      else
        (quotedUnits quote 0 rest).map fun (units, rest) => (Text.unitsOfChar c ++ units, rest)

mutual

/-- Reads a value; the text after it is left. The number bounds the depth of nesting and the number of
items. -/
def readValue : Nat → List Char → Except ReadStop (Form × List Char)
  | 0, text => .error ⟨.tooDeep, text⟩
  | bound + 1, text =>
      match skipBlanks text with
      | [] => .error ⟨.unexpectedEnd, []⟩
      | '[' :: rest => (readItems bound rest).map fun (items, rest) => (list items, rest)
      | ':' :: rest =>
          if (wordOf rest).isEmpty then
            .error ⟨.missingAtomName, rest⟩
          else
            .ok (atom (String.ofList (wordOf rest)), afterWord rest)
      | '"' :: rest =>
          (quotedUnits '"' 0 rest).map fun (units, rest) =>
            (string (String.ofList (Text.decodeUnits units)), rest)
      | '\'' :: rest =>
          (quotedUnits '\'' 0 rest).map fun (units, rest) =>
            (string (String.ofList (Text.decodeUnits units)), rest)
      | start =>
          if wordOf start = "nil".toList then
            .ok (nil, afterWord start)
          else
            match numberOfWord? (wordOf start) with
            | some value => .ok (number value, afterWord start)
            | none => .error ⟨.missingValue, start⟩

/-- Reads items up to the end of their list. -/
def readItems : Nat → List Char → Except ReadStop (List Form × List Char)
  | 0, text => .error ⟨.tooDeep, text⟩
  | bound + 1, text =>
      match skipBlanks text with
      | ']' :: rest => .ok ([], rest)
      | start => do
          let (item, afterItem) ← readValue bound start
          let rest ←
            match skipBlanks afterItem with
            | ',' :: rest => .ok rest
            | ']' :: rest => .ok (']' :: rest)
            | [] => .error ⟨.unterminatedList, []⟩
            | other => .error ⟨.missingComma, other⟩
          let (items, rest) ← readItems bound rest
          return (item :: items, rest)

end

/-- Reads a text that is one form. Every value and every item takes up a character, so the bound is
never reached. -/
def read (text : List Char) : Except ReadError Form :=
  let outcome : Except ReadStop Form := do
    let (form, rest) ← readValue (2 * text.length + 2) text
    match skipBlanks rest with
    | [] => return form
    | rest => throw ⟨.trailingText, rest⟩
  outcome.mapError fun stop =>
    {
      cause := stop.cause
      offset := Text.size text - Text.size stop.rest
    }

end Form

end EcmaSyntax
