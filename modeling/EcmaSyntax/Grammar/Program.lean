import EcmaSyntax.Grammar.Statement

/-!
The grammar as a whole, and programs. Each level of nesting consumes a token, so a tower as high as the
source text is long suffices for it.
-/

namespace EcmaSyntax

/-- The rules of one more level of nesting. -/
def Rules.next (rules : Rules) : Rules :=
  {
    expression := Grammar.expressionFrom rules
    primary := Grammar.primary rules
    statement := Grammar.statement rules
  }

/-- The rules for so many levels of nesting. -/
def Rules.ofDepth : Nat → Rules
  | 0 => exhausted
  | depth + 1 => (ofDepth depth).next

/-- Rules for as many levels of nesting as the source text can have. -/
def Rules.ofSource (source : List Char) : Rules :=
  ofDepth (source.length + 2)

namespace Grammar

/-- Runs a production with rules for the source text at hand. -/
def withRules {α : Type} (production : Rules → Parser α) : Parser α := do
  production (Rules.ofSource (← get).source)

/-- A program: all statements up to the end of the input. -/
def program (rules : Rules) : Parser Program := do
  let body ← rules.statements true .endOfInput
  discard (Parser.require .endOfInput)
  let span := (← get).sourceSpan
  return { span, body }

end Grammar

/-- The program that a source text writes, or its first error with the position. -/
def Program.parse (source : List Char) (dialect : Dialect) : Except Failure Program :=
  match (Grammar.withRules Grammar.program).run (ParserState.ofSource source dialect) with
  | .ok program _ => .ok program
  | .error (.rejected error) _ => .error (.rejected (error.locate source))
  | .error (.fault fault) _ => .error (.fault fault)

end EcmaSyntax
