import EcmaSyntax.Grammar.Literal

/-!
Expressions. Operators are read from left to right after a first operand, each taking an operand whose
operators bind more tightly, or as tightly if it groups to the right.
-/

namespace EcmaSyntax.Grammar

open EcmaSyntax.Parser

-----------------------------------------------------------------------------------------
-- Expressions without operators
-----------------------------------------------------------------------------------------

def identifierExpression : Parser Expr :=
  spanned do
    let token ← require .identifier
    let name ← nameAt token.span
    return fun span => .identifier span name

def thisExpression : Parser Expr :=
  spanned do
    discard (require .keywordThis)
    return fun span => .this span

def parenthesized (rules : Rules) : Parser Expr :=
  spanned do
    discard (require .parenthesisOpen)
    let inner ← rules.expression true 1
    discard (require .parenthesisClose)
    return fun span => .parenthesized span inner

def callArguments (rules : Rules) : Parser Arguments :=
  spanned do
    discard (require .parenthesisOpen)
    let values ← Parser.list .parenthesisClose (rules.assignment true)
    return fun span => { span, values }

/-- A property after a point: an identifier or a word. -/
def memberAccess (object : Expr) : Parser Expr := do
  discard (require .dot)
  let token ← consume
  if token.kind = .identifier || token.kind.isWord then
    let name ← nameAt token.span
    return .member (object.span.cover token.span) object name
  else
    reject (token.unexpected "member access property")

/-- A property in brackets. -/
def indexAccess (rules : Rules) (object : Expr) : Parser Expr := do
  discard (require .bracketOpen)
  let key ← rules.expression true 1
  let close ← require .bracketClose
  return .index (object.span.cover close.span) object key

/-- The properties that belong to the operand of `new`, at most so many. -/
def constructorAccess (rules : Rules) : Nat → Expr → Parser Expr
  | 0, _ => fault .exhausted
  | bound + 1, constructor => do
      let kind := (← peek).kind
      if kind = .dot then
        constructorAccess rules bound (← memberAccess constructor)
      else if kind = .bracketOpen then
        constructorAccess rules bound (← indexAccess rules constructor)
      else
        return constructor

/-- `new` and its operand with properties, then arguments if they are next. -/
def newExpression (rules : Rules) (inAllowed : Bool) : Parser Expr := do
  let start ← require .keywordNew
  let operand ← rules.primary inAllowed
  let constructor ← constructorAccess rules (← repetitions) operand
  if (← peek).kind = .parenthesisOpen then
    let arguments ← callArguments rules
    return .construct (start.span.cover arguments.span) constructor arguments
  else
    return .construct (start.span.cover constructor.span) constructor
      {
        span := Span.point constructor.span.stop
        values := []
      }

/-- An expression without operators. A slash opens a regular expression here. -/
def primary (rules : Rules) (inAllowed : Bool) : Parser Expr := do
  match (← peek .regex).kind with
  | .braceOpen => objectLiteral rules
  | .bracketOpen => arrayLiteral rules
  | .identifier => identifierExpression
  | .keywordFunction => functionExpression rules
  | .keywordNew => newExpression rules inAllowed
  | .keywordThis => thisExpression
  | .literalFalse | .literalTrue => booleanLiteral
  | .literalNull => nullLiteral
  | .literalNumber => numberLiteral
  | .literalRegex => regexLiteral
  | .literalString => stringLiteral
  | .parenthesisOpen => parenthesized rules
  | _ =>
      let token ← consume .regex
      checkReserved token
      reject (token.unexpected "expression operand")

-----------------------------------------------------------------------------------------
-- Operators
-----------------------------------------------------------------------------------------

/-- Rejects what cannot be assigned to. -/
def requireTarget (target : Expr) : Parser Unit := do
  unless target.isAssignmentTarget do
    reject
      {
        cause := .invalidAssignmentTarget
        span := target.span
        actual := none
      }

/-- An operand with the operators in front of it. -/
def operand (rules : Rules) (inAllowed : Bool) : Parser Expr := do
  let token ← peek .regex
  match token.kind.prefixOperator? with
  | none => primary rules inAllowed
  | some operator =>
      discard (consume .regex)
      let argument ← rules.expression inAllowed operator.rightPrecedence
      if operator = .prefixDecrement || operator = .prefixIncrement then
        requireTarget argument
      return .unary (token.span.cover argument.span) operator argument

/-- The update that a token after an operand is, if it is on the same line. -/
def updateOperator? (token : Token) : Option Operator :=
  if token.afterNewline then none
  else if token.kind = .plusPlus then some .postfixIncrement
  else if token.kind = .hyphenHyphen then some .postfixDecrement
  else none

/-- The expression that an operator after the left operand begins. The operators with a bracket or a
point are still to be read, the others are read. -/
def continuation (rules : Rules) (inAllowed : Bool) (operator : Operator) (left : Expr) (start : Nat) :
    Parser Expr :=
  match operator with
  | .call => do
      restore start
      let arguments ← callArguments rules
      return .call (left.span.cover arguments.span) left arguments
  | .computedMemberAccess => do
      restore start
      indexAccess rules left
  | .memberAccess => do
      restore start
      memberAccess left
  | .conditional => do
      let consequent ← rules.assignment true
      discard (require .colon)
      let alternate ← rules.assignment inAllowed
      return .conditional (left.span.cover alternate.span) left consequent alternate
  | _ => do
      if operator.isAssignment then
        requireTarget left
      let right ← rules.expression inAllowed operator.rightPrecedence
      return .binary (left.span.cover right.span) operator left right

/-- The operators after an operand that have at least the precedence, at most so many. The first token
that is none of them stays in place. -/
def operators (rules : Rules) (inAllowed : Bool) (least : Nat) : Nat → Expr → Parser Expr
  | 0, _ => fault .exhausted
  | bound + 1, left => do
      let start ← checkpoint
      let token ← consume
      match updateOperator? token with
      | some operator =>
          if operator.precedence < least then
            restore start
            return left
          else
            requireTarget left
            operators rules inAllowed least bound
              (.update (left.span.cover token.span) operator left)
      | none =>
          match token.kind.infixOperator? with
          | none =>
              restore start
              return left
          | some operator =>
              if operator.precedence < least || operator = .isIn && !inAllowed then
                restore start
                return left
              else
                operators rules inAllowed least bound
                  (← continuation rules inAllowed operator left start)

/-- An expression whose operators on top have at least the precedence. -/
def expressionFrom (rules : Rules) (inAllowed : Bool) (least : Nat) : Parser Expr := do
  let left ← operand rules inAllowed
  operators rules inAllowed least (← repetitions) left

/-- An expression of any kind. -/
def expression (rules : Rules) (inAllowed : Bool) : Parser Expr :=
  expressionFrom rules inAllowed 1

end EcmaSyntax.Grammar
