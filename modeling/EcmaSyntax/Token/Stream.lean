import EcmaSyntax.Token.Lexeme

/-!
All tokens of a source text at once. Without a grammar at hand, the token before a slash decides
whether the slash divides or opens a regular expression.
-/

namespace EcmaSyntax

/-- A token that ends an operand, so that a slash after it divides. -/
def Kind.endsOperand : Kind → Bool
  | identifier | keywordThis | literalFalse | literalNull | literalNumber | literalRegex
  | literalString | literalTrue | parenthesisClose | bracketClose | plusPlus | hyphenHyphen => true
  | _ => false

/-- What a slash opens after a token of the kind. -/
def LexMode.after (kind : Kind) : LexMode :=
  if kind.endsOperand then .standard else .regex

/-- Why there is no token stream. -/
inductive StreamFailure where
  | rejected (error : SyntaxError)
  | stuck
  deriving DecidableEq, Repr

/-- The tokens from `text` on, which lies at `offset` in the source. The first argument bounds the
number of tokens; a text has no more of them than characters, and the end of the input. -/
def streamFrom : Nat → LexMode → Nat → List Char → Except StreamFailure (List Token)
  | 0, _, _, _ => .error .stuck
  | bound + 1, mode, offset, text =>
      let lexeme := Lexeme.read mode text
      let token := lexeme.placedAt offset
      match token.kind with
      | .invalid => .error (.rejected (token.error .unexpectedCharacter))
      | .endOfInput => .ok [token]
      | kind =>
          match Text.drop? (lexeme.before + lexeme.width) text with
          | none => .error .stuck
          | some rest =>
              (streamFrom bound (.after kind) token.span.stop rest).map (token :: ·)

/-- The tokens of a source text up to the end of the input, which is the last one. -/
def tokenize (source : List Char) : Except StreamFailure (List Token) :=
  match streamFrom (source.length + 1) .regex 0 source with
  | .error (.rejected error) => .error (.rejected (error.locate source))
  | other => other

end EcmaSyntax
