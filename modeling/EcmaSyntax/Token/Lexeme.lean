import EcmaSyntax.Number.Literal
import EcmaSyntax.Text.Size
import EcmaSyntax.Text.Units
import EcmaSyntax.Token.Basic
import EcmaSyntax.Token.Spelling
import EcmaSyntax.Token.Trivia

/-!
The lexer, as functions of the text that is left. Each scanner is given a text that begins with its
token and says which kind it found, or why it found none, and what text follows.
-/

namespace EcmaSyntax

/-- The outcome of a scanner. -/
structure Scan where
  verdict : Except Cause Kind
  rest : List Char

namespace Scan

def found (kind : Kind) (rest : List Char) : Scan :=
  {
    verdict := .ok kind
    rest
  }

def failed (cause : Cause) (rest : List Char) : Scan :=
  {
    verdict := .error cause
    rest
  }

-----------------------------------------------------------------------------------------
-- Identifiers and words
-----------------------------------------------------------------------------------------

/-- The character of an escape: a backslash, `u` and four hexadecimal digits. -/
def escapedChar? : List Char → Option Char
  | '\\' :: 'u' :: first :: second :: third :: fourth :: _ =>
      (Text.digitsValue? 16 [first, second, third, fourth]).bind Text.charOfCode?
  | _ => none

/-- Where the scan of an escape that is none stops: after the backslash, after `u`, or after up to
four hexadecimal digits. -/
def escapeStop : List Char → List Char
  | '\\' :: 'u' :: rest => rest.drop ((rest.take 4).takeWhile Text.isHexDigit).length
  | '\\' :: rest => rest
  | text => text

/-- Goes on with an identifier, `escaped` being the number of characters of an escape still to be
passed over. -/
def identifierTail : Nat → List Char → Scan
  | _, [] => found .identifier []
  | escaped + 1, _ :: rest => identifierTail escaped rest
  | 0, c :: rest =>
      if c = '\\' then
        match escapedChar? (c :: rest) with
        | some part =>
            if Text.isIdentifierPart part then
              identifierTail 5 rest
            else
              failed .invalidCharacterEscape (rest.drop 5)
        | none => failed .invalidCharacterEscape (escapeStop (c :: rest))
      else if Text.isIdentifierPart c then
        identifierTail 0 rest
      else
        found .identifier (c :: rest)

/-- An identifier that begins with an escape. -/
def escapedIdentifier (text : List Char) : Scan :=
  match escapedChar? text with
  | some start =>
      if Text.isIdentifierStart start then
        identifierTail 6 text
      else
        failed .invalidCharacterEscape (text.drop 6)
  | none => failed .invalidCharacterEscape (escapeStop text)

/-- A word without escapes is reserved or an identifier; one with escapes is an identifier. -/
def word (text : List Char) : Scan :=
  let rest := text.dropWhile Text.isIdentifierPart
  match rest, wordKind? (text.takeWhile Text.isIdentifierPart) with
  | '\\' :: _, _ => identifierTail 0 rest
  | _, some kind => found kind rest
  | _, none => found .identifier rest

-----------------------------------------------------------------------------------------
-- Numbers
-----------------------------------------------------------------------------------------

/-- A number must not run into an identifier or into another digit. -/
def numberEnd (text : List Char) : Scan :=
  match text with
  | c :: _ =>
      if c = '\\' || Text.isDigit c || Text.isIdentifierStart c then
        failed .malformedLiteralNumber text
      else
        found .literalNumber text
  | [] => found .literalNumber text

/-- Passes over the exponent of a number, if there is one. -/
def numberExponent : List Char → Scan
  | c :: rest =>
      if c = 'e' || c = 'E' then
        let digits := (Decimal.readSign rest).2
        if (digits.takeWhile Text.isDigit).isEmpty then
          failed .malformedLiteralNumber digits
        else
          numberEnd (digits.dropWhile Text.isDigit)
      else
        numberEnd (c :: rest)
  | [] => numberEnd []

/-- A number that is not hexadecimal. Octal literals have no fraction and no exponent. -/
def number (text : List Char) : Scan :=
  let rest := text.dropWhile Text.isDigit
  if isLegacyOctal (text.takeWhile Text.isDigit) then
    numberEnd rest
  else
    match rest with
    | '.' :: fraction => numberExponent (fraction.dropWhile Text.isDigit)
    | rest => numberExponent rest

/-- The digits of a hexadecimal number. -/
def hexNumber (digits : List Char) : Scan :=
  if (digits.takeWhile Text.isHexDigit).isEmpty then
    failed .malformedLiteralNumber digits
  else
    numberEnd (digits.dropWhile Text.isHexDigit)

-----------------------------------------------------------------------------------------
-- Strings and regular expressions
-----------------------------------------------------------------------------------------

/-- A string after its opening quote. A backslash takes the next character with it, and a line
feed after a carriage return. -/
def string (quote : Char) : List Char → Scan
  | [] => failed .unterminatedString []
  | '\\' :: '\r' :: '\n' :: rest => string quote rest
  | '\\' :: _ :: rest => string quote rest
  | ['\\'] => failed .unterminatedString []
  | c :: rest =>
      if c = quote then found .literalString rest
      else if Text.isLineTerminator c then failed .lineTerminatorInString (c :: rest)
      else string quote rest

/-- Passes over the flags of a regular expression. -/
def regexFlags (text : List Char) : Scan :=
  found .literalRegex (text.dropWhile Text.asciiPartSet.contains)

/-- A regular expression after its opening slash; `inClass` says that a bracketed class is open, where
a slash is an ordinary character. -/
def regex : Bool → List Char → Scan
  | _, [] => failed .unterminatedRegex []
  | inClass, '\\' :: c :: rest =>
      if Text.isLineTerminator c then
        failed .unterminatedRegex (c :: rest)
      else
        regex inClass rest
  | _, ['\\'] => failed .unterminatedRegex []
  | inClass, c :: rest =>
      if Text.isLineTerminator c then failed .unterminatedRegex (c :: rest)
      else if c = '/' && !inClass then regexFlags rest
      else regex (c = '[' || inClass && c != ']') rest

-----------------------------------------------------------------------------------------
-- All tokens
-----------------------------------------------------------------------------------------

/-- A punctuator; if there is none, one character is passed over. -/
def punctuator (text : List Char) : Scan :=
  match longestPunctuator? text with
  | some (kind, spelling) => found kind (text.drop spelling.length)
  | none => failed .unexpectedCharacter text.tail

/-- The token that the text begins with. -/
def token (mode : LexMode) : List Char → Scan
  | [] => found .endOfInput []
  | '0' :: 'x' :: rest => hexNumber rest
  | '0' :: 'X' :: rest => hexNumber rest
  | c :: rest =>
      if c = '\\' then escapedIdentifier (c :: rest)
      else if Text.isIdentifierStart c then word (c :: rest)
      else if Text.isDigit c || c = '.' && rest.head?.any Text.isDigit then number (c :: rest)
      else if c = '"' || c = '\'' then string c rest
      else if c = '/' && mode = .regex then regex false rest
      else punctuator (c :: rest)

end Scan

/-- A token without its place: the bytes of trivia before it, its own bytes, and what it is. -/
structure Lexeme where
  before : Nat
  width : Nat
  kind : Kind
  afterNewline : Bool
  lexical : Option Cause := none
  deriving DecidableEq, Repr

namespace Lexeme

/-- The lexeme that takes up `text` from `body` on up to the rest that a scan leaves. -/
def ofScan (text body : List Char) (afterNewline : Bool) (scan : Scan) : Lexeme :=
  {
    before := Text.size text - Text.size body
    width := Text.size body - Text.size scan.rest
    kind :=
      match scan.verdict with
      | .ok kind => kind
      | .error _ => .invalid
    afterNewline
    lexical :=
      match scan.verdict with
      | .ok _ => none
      | .error cause => some cause
  }

/-- The first lexeme of a text, with the trivia before it. -/
def read (mode : LexMode) (text : List Char) : Lexeme :=
  match Trivia.skip .gap false text with
  | .ended newline body => ofScan text body newline (Scan.token mode body)
  | .unterminated newline comment =>
      ofScan text comment newline (Scan.failed .unterminatedComment [])

/-- The token that a lexeme is, if its trivia begin at the offset. -/
def placedAt (lexeme : Lexeme) (offset : Nat) : Token :=
  {
    kind := lexeme.kind
    span :=
      {
        start := offset + lexeme.before
        stop := offset + lexeme.before + lexeme.width
      }
    afterNewline := lexeme.afterNewline
    lexical := lexeme.lexical
  }

end Lexeme

/-- The first token at or after the offset; none if the offset is not the beginning of a character or
the end of the source. -/
def Token.read? (source : List Char) (mode : LexMode) (offset : Nat) : Option Token :=
  (Text.drop? offset source).map fun text => (Lexeme.read mode text).placedAt offset

end EcmaSyntax
