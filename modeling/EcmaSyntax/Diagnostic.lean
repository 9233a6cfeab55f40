import EcmaSyntax.Position
import EcmaSyntax.Span
import EcmaSyntax.Token.Kind

/-!
What can be wrong with a program text. A cause has a code that never changes and a wording; an error
is a cause at a span, together with the kind of the token found there and, once the text is known,
the position of the span.
-/

namespace EcmaSyntax

/-- Why a text is rejected: seven causes from the lexer, then seven from the grammar. -/
inductive Cause where
  | unexpectedCharacter
  | unterminatedString
  | lineTerminatorInString
  | unterminatedComment
  | unterminatedRegex
  | malformedLiteralNumber
  | invalidCharacterEscape
  | expectedSyntax (expected : String)
  | requiredTokenNotFound (required : Kind)
  | expectedStatementEnd
  | invalidAssignmentTarget
  | reservedWord
  | tryStatementHasNoCatchOrFinally
  | unexpectedEnd
  deriving DecidableEq, Repr

/-- Whether a cause concerns the tokens or the grammar. -/
inductive CauseKind where
  | lexical
  | grammatical
  deriving DecidableEq, Repr

/-- The written name of a kind of causes. -/
def CauseKind.name : CauseKind → String
  | lexical => "Lexical"
  | grammatical => "Syntax"

namespace Cause

def kind : Cause → CauseKind
  | unexpectedCharacter | unterminatedString | lineTerminatorInString | unterminatedComment
  | unterminatedRegex | malformedLiteralNumber | invalidCharacterEscape => .lexical
  | _ => .grammatical

/-- The written name of a cause, without what it is about. -/
def name : Cause → String
  | unexpectedCharacter => "UnexpectedCharacter"
  | unterminatedString => "UnterminatedString"
  | lineTerminatorInString => "LineTerminatorInString"
  | unterminatedComment => "UnterminatedComment"
  | unterminatedRegex => "UnterminatedRegex"
  | malformedLiteralNumber => "MalformedLiteralNumber"
  | invalidCharacterEscape => "InvalidCharacterEscape"
  | expectedSyntax _ => "ExpectedSyntax"
  | requiredTokenNotFound _ => "RequiredTokenNotFound"
  | expectedStatementEnd => "ExpectedStatementEnd"
  | invalidAssignmentTarget => "InvalidAssignmentTarget"
  | reservedWord => "ReservedWord"
  | tryStatementHasNoCatchOrFinally => "TryStatementHasNoCatchOrFinally"
  | unexpectedEnd => "UnexpectedEnd"

/-- The causes that are not about anything further. -/
def plain : List Cause :=
  [
    unexpectedCharacter, unterminatedString, lineTerminatorInString, unterminatedComment,
    unterminatedRegex, malformedLiteralNumber, invalidCharacterEscape, expectedStatementEnd,
    invalidAssignmentTarget, reservedWord, tryStatementHasNoCatchOrFinally, unexpectedEnd
  ]

/-- The code of a cause. -/
def code : Cause → String
  | unexpectedCharacter => "SX0001"
  | unterminatedString => "SX0002"
  | lineTerminatorInString => "SX0003"
  | unterminatedComment => "SX0004"
  | unterminatedRegex => "SX0005"
  | malformedLiteralNumber => "SX0006"
  | invalidCharacterEscape => "SX0007"
  | expectedSyntax _ => "SX0008"
  | requiredTokenNotFound _ => "SX0009"
  | expectedStatementEnd => "SX0010"
  | invalidAssignmentTarget => "SX0011"
  | reservedWord => "SX0012"
  | tryStatementHasNoCatchOrFinally => "SX0013"
  | unexpectedEnd => "SX0014"

/-- The wording of a cause at a token. -/
def message (cause : Cause) (actual : Option Kind) : String :=
  match cause with
  | unexpectedCharacter => "unexpected character"
  | unterminatedString => "unterminated string literal"
  | lineTerminatorInString => "line terminator not allowed in string literal"
  | unterminatedComment => "unterminated multiline comment"
  | unterminatedRegex => "unterminated regular expression literal"
  | malformedLiteralNumber => "malformed number literal"
  | invalidCharacterEscape => "invalid character escape"
  | expectedSyntax expected => s!"expected {expected}"
  | requiredTokenNotFound required => s!"expected token {required.name}"
  | expectedStatementEnd =>
      "expected `;`, a line break, `\x7d` or end of input after statement"
  | invalidAssignmentTarget => "invalid assignment target"
  | reservedWord =>
      match actual with
      | some kind => s!"{kind.name} is a reserved word"
      | none => "reserved word"
  | tryStatementHasNoCatchOrFinally => "try statement requires a catch or finally block"
  | unexpectedEnd => "unexpected end of input"

end Cause

/-- A rejection of a program text. `actual` is missing where a whole stretch of the text is at
fault, and `position` as long as the text is not known. -/
structure SyntaxError where
  cause : Cause
  span : Span
  actual : Option Kind
  position : Option Position := none
  deriving DecidableEq, Repr

namespace SyntaxError

/-- Fills in the position of the span in the text. -/
def locate (error : SyntaxError) (source : List Char) : SyntaxError :=
  { error with position := some (Position.ofOffset source error.span.start) }

/-- Errors are the same if they have the same cause, wherever they are. -/
def sameCause (first second : SyntaxError) : Bool :=
  first.cause = second.cause

/-- The kind of the token found, as diagnostics show it. -/
def actualText (error : SyntaxError) : String :=
  match error.actual with
  | some kind => s!"Some({kind.name})"
  | none => "None"

/-- The error on one line: code, wording, position and token. -/
def text (error : SyntaxError) : String :=
  let place :=
    match error.position with
    | some position => s!" at {position.text}"
    | none => ""
  s!"{error.cause.code} {error.cause.message error.actual}{place} [token={error.actualText}]"

/-- The error on one line, with the offsets of its span. -/
def detailedText (error : SyntaxError) : String :=
  s!"{error.text} around loc [{error.span.start}:{error.span.stop}]"

end SyntaxError

end EcmaSyntax
