import EcmaSyntax.Grammar.Function
import EcmaSyntax.Number.Literal
import EcmaSyntax.Number.Printer

/-! Literals, among them the arrays and objects, which contain expressions and functions. -/

namespace EcmaSyntax.Grammar

open EcmaSyntax.Parser

-----------------------------------------------------------------------------------------
-- Values of tokens
-----------------------------------------------------------------------------------------

/-- The text that the string literal at a span stands for. An escape without a meaning is an error at
its backslash. -/
def stringAt (span : Span) : Parser String := do
  match Text.unquote? (← textAt span) with
  | none => fault .noText
  | some body =>
      match Text.decodeString body with
      | .ok value => return value
      | .error offset =>
          reject
            {
              cause := .invalidCharacterEscape
              span :=
                {
                  start := span.start + 1 + offset
                  stop := span.start + 1 + offset + 1
                }
              actual := some .literalString
            }

/-- The value of the number literal at a span. -/
def numberAt (span : Span) : Parser Number := do
  match Number.ofLiteral? (← textAt span) with
  | some value => return value
  | none =>
      reject
        {
          cause := .malformedLiteralNumber
          span
          actual := some .literalNumber
        }

-----------------------------------------------------------------------------------------
-- Plain literals
-----------------------------------------------------------------------------------------

def booleanLiteral : Parser Expr :=
  spanned do
    let token ← requireSome (fun kind => kind = .literalTrue || kind = .literalFalse) "boolean"
    return fun span => .boolean span (token.kind = .literalTrue)

def nullLiteral : Parser Expr :=
  spanned do
    discard (require .literalNull)
    return fun span => .null span

def numberLiteral : Parser Expr :=
  spanned do
    let token ← require .literalNumber
    let value ← numberAt token.span
    return fun span => .number span value

def regexLiteral : Parser Expr :=
  spanned do
    let token ← require .literalRegex .regex
    let text ← textAt token.span
    return fun span => .regex span (String.ofList text)

def stringLiteral : Parser Expr :=
  spanned do
    let token ← require .literalString
    let value ← stringAt token.span
    return fun span => .string span value

-----------------------------------------------------------------------------------------
-- Arrays and objects
-----------------------------------------------------------------------------------------

/-- The elements of an array, at most so many, up to the closing bracket. -/
def arrayElements (rules : Rules) : Nat → Parser (List Element)
  | 0 => fault .exhausted
  | bound + 1 => do
      if ← accept .comma then
        let rest ← arrayElements rules bound
        return .hole :: rest
      else if (← peek).kind = .bracketClose then
        return []
      else
        let value ← rules.assignment true
        if (← peek).kind = .bracketClose then
          return [.value value]
        else
          discard (require .comma)
          let rest ← arrayElements rules bound
          return .value value :: rest

def arrayLiteral (rules : Rules) : Parser Expr :=
  spanned do
    discard (require .bracketOpen)
    let elements ← arrayElements rules (← repetitions)
    discard (require .bracketClose)
    return fun span => .array span elements

/-- The key of a member of an object: an identifier, a word, the text of a string literal, or the
written form of a number. -/
def memberKey : Parser String := do
  let token ← consume
  if token.kind = .identifier then nameAt token.span
  else if token.kind = .literalString then stringAt token.span
  else if token.kind = .literalNumber then
    return String.ofList (← numberAt token.span).text
  else if token.kind.isWord then
    return String.ofList (← textAt token.span)
  else reject (token.unexpected "property name")

/-- A kind of token that a key can be. -/
def startsKey (kind : Kind) : Bool :=
  kind = .identifier || kind = .literalString || kind = .literalNumber || kind.isWord

/-- The error for a function with too many or too few parameters. -/
def arityError (function : Func) (expected : String) : SyntaxError :=
  {
    cause := .expectedSyntax expected
    span := function.span
    actual := none
  }

/-- A getter or a setter, beginning with its word. -/
def accessor (rules : Rules) (isGetter : Bool) : Parser (Span → Member) := do
  discard consume
  let key ← memberKey
  let function ← function rules
  if isGetter then
    if function.parameters.length = 0 then
      return fun span => .getter span key function
    else
      reject (arityError function "getter without parameters")
  else if function.parameters.length = 1 then
    return fun span => .setter span key function
  else
    reject (arityError function "setter with one parameter")

def property (rules : Rules) : Parser (Span → Member) := do
  let key ← memberKey
  discard (require .colon)
  let value ← rules.assignment true
  return fun span => .property span key value

/-- Which accessor the next tokens open, if they do: the word `get` or `set`, spelled without escapes,
before a key. Answers whether it is a getter. -/
def accessorWord? : Parser (Option Bool) := do
  match ← peekMany 2 with
  | [first, second] =>
      if first.kind = .identifier && startsKey second.kind then
        let word := String.ofList (← textAt first.span)
        return if word = "get" then some true else if word = "set" then some false else none
      else
        return none
  | _ => return none

def objectMember (rules : Rules) : Parser Member :=
  spanned do
    match ← accessorWord? with
    | some isGetter => accessor rules isGetter
    | none => property rules

def objectLiteral (rules : Rules) : Parser Expr :=
  spanned do
    discard (require .braceOpen)
    let members ← looseList .braceClose (objectMember rules)
    return fun span => .object span members

end EcmaSyntax.Grammar
