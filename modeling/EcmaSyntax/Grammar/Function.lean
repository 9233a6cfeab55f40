import EcmaSyntax.Grammar.Rules

/-! Functions: parameters, bodies, declarations and expressions. -/

namespace EcmaSyntax.Grammar

open EcmaSyntax.Parser

def parameter : Parser Parameter :=
  spanned do
    let name ← requireIdentifier
    return fun span => { span, name }

def functionParameters : Parser (List Parameter) := do
  discard (require .parenthesisOpen)
  Parser.list .parenthesisClose parameter

/-- In a function body `in` may stand anywhere, whatever surrounds the function. -/
def functionBody (rules : Rules) : Parser Body :=
  spanned do
    discard (require .braceOpen)
    let statements ← rules.statements true .braceClose
    discard (require .braceClose)
    return fun span => { span, statements }

/-- Parameters and body of a function. -/
def function (rules : Rules) : Parser Func :=
  spanned do
    let parameters ← functionParameters
    let body ← functionBody rules
    return fun span => { span, parameters, body }

def functionDeclaration (rules : Rules) : Parser Stmt :=
  spanned do
    discard (require .keywordFunction)
    let name ← requireIdentifier
    let function ← function rules
    return fun span => .function span name function

/-- The name of a function expression may be missing. -/
def functionExpression (rules : Rules) : Parser Expr :=
  spanned do
    discard (require .keywordFunction)
    let name ←
      if (← peek).kind = .parenthesisOpen then
        pure none
      else
        some <$> requireIdentifier
    let function ← function rules
    return fun span => .function span name function

end EcmaSyntax.Grammar
