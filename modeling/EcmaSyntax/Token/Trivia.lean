import EcmaSyntax.Text.Identifier

/-!
Trivia: the blanks, line terminators and comments between tokens. One pass over the text skips them
and notes whether a line ended on the way.
-/

namespace EcmaSyntax

/-- Where a pass over trivia is: between comments, in a line comment, or in a block comment. A block
comment keeps its own text, and whether it has a line terminator so far. -/
inductive TriviaPlace where
  | gap
  | lineComment
  | blockComment (comment : List Char) (newline : Bool)

/-- How trivia end: before a token or the end of the text, or in a block comment that does not end.
Line terminators of such a comment do not count. -/
inductive Trivia where
  | ended (newline : Bool) (rest : List Char)
  | unterminated (newline : Bool) (comment : List Char)
  deriving DecidableEq, Repr

namespace Trivia

/-- Skips trivia from a place on; `newline` says that a line has ended before. -/
def skip : TriviaPlace → Bool → List Char → Trivia
  | .gap, newline, '/' :: '*' :: rest =>
      skip (.blockComment ('/' :: '*' :: rest) false) newline rest
  | .gap, newline, '/' :: '/' :: rest => skip .lineComment newline rest
  | .gap, newline, c :: rest =>
      if Text.isLineTerminator c then skip .gap true rest
      else if Text.isBlank c then skip .gap newline rest
      else ended newline (c :: rest)
  | .lineComment, newline, c :: rest =>
      if Text.isLineTerminator c then skip .gap true rest else skip .lineComment newline rest
  | .blockComment _ inside, newline, '*' :: '/' :: rest => skip .gap (newline || inside) rest
  | .blockComment comment inside, newline, c :: rest =>
      skip (.blockComment comment (inside || Text.isLineTerminator c)) newline rest
  | .blockComment comment _, newline, [] => unterminated newline comment
  | _, newline, [] => ended newline []

end Trivia

end EcmaSyntax
