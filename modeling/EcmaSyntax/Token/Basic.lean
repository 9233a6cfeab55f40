import EcmaSyntax.Diagnostic

/-! Tokens: a kind at a span of the source text, and whether a line ended right before it. -/

namespace EcmaSyntax

/-- What a slash opens: a regular expression literal where an operand may begin, the division operator where
an operator may follow. -/
inductive LexMode where
  | standard
  | regex
  deriving DecidableEq, Repr, Inhabited

/-- A token. `afterNewline` says that the blanks and comments before it contain a line terminator;
`lexical` says why the text is no token, if the kind is `invalid`. -/
structure Token where
  kind : Kind
  span : Span
  afterNewline : Bool
  lexical : Option Cause := none
  deriving DecidableEq, Repr, Inhabited

namespace Token

/-- An error at the token. The lexical error of an invalid token goes before any other cause. -/
def error (token : Token) (cause : Cause) : SyntaxError :=
  {
    cause :=
      match token.kind, token.lexical with
      | .invalid, some lexical => lexical
      | _, _ => cause
    span := token.span
    actual := some token.kind
  }

/-- An error for a token in the place of something else: the end of the input is named as such. -/
def unexpected (token : Token) (expected : String) : SyntaxError :=
  match token.kind with
  | .endOfInput => token.error .unexpectedEnd
  | _ => token.error (.expectedSyntax expected)

end Token

end EcmaSyntax
