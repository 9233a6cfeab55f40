import EcmaSyntax.Token.Buffer
import EcmaSyntax.Tree.Basic

/-!
The knots of the grammar. Productions that contain themselves take the productions of the levels below
from a record, and a tower of such records, one for each level of nesting, is the whole grammar.
-/

namespace EcmaSyntax

/-- The productions through which the grammar contains itself. The flag says whether the operator `in`
may stand there: it may not in the first clause of a `for` header. -/
structure Rules where
  /-- An expression whose operators on top have at least the precedence. -/
  expression : Bool → Nat → Parser Expr
  /-- An expression without operators. -/
  primary : Bool → Parser Expr
  /-- A statement. -/
  statement : Bool → Parser Stmt

namespace Rules

/-- The rules at the end of the tower, which are never reached. -/
def exhausted : Rules :=
  {
    expression := fun _ _ => Parser.fault .exhausted
    primary := fun _ => Parser.fault .exhausted
    statement := fun _ => Parser.fault .exhausted
  }

/-- Assignments, and all expressions that bind more tightly; this leaves out the comma. -/
def assignment (rules : Rules) (inAllowed : Bool) : Parser Expr :=
  rules.expression inAllowed Operator.assignmentPrecedence

/-- Statements up to a token of the kind, which is not consumed, or the end of the input. -/
def statements (rules : Rules) (inAllowed : Bool) (stop : Kind) : Parser (List Stmt) :=
  Parser.repeatUntil stop (rules.statement inAllowed)

end Rules

end EcmaSyntax
