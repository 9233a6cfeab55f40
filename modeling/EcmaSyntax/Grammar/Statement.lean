import EcmaSyntax.Grammar.Expression

/-!
Statements. Where a semicolon ends a statement, a line break, a closing brace or the end of the input
ends it as well. The kind of a `for` loop is found by reading the first clause and going back.
-/

namespace EcmaSyntax.Grammar

open EcmaSyntax.Parser

-----------------------------------------------------------------------------------------
-- Declarations
-----------------------------------------------------------------------------------------

/-- Whether a declaration is a statement, or the first clause of a `for` header, which ends before the
first token that does not belong to it. -/
inductive DeclarationPlace where
  | statement
  | forHeader
  deriving DecidableEq, Repr

/-- `var` or `const`; the latter is an error in the dialect without it. -/
def declarationMode : Parser DeclarationMode := do
  let token ← consume
  checkReserved token
  if token.kind = .keywordConst then return .constants
  else if token.kind = .keywordVar then return .vars
  else reject (token.error (.expectedSyntax "variable declaration"))

def initializer (rules : Rules) (inAllowed : Bool) : Parser Initializer :=
  spanned do
    let value ← expressionFrom rules inAllowed Operator.assignmentPrecedence
    return fun span => { span, value }

def declarator (rules : Rules) (inAllowed : Bool) : Parser Declarator := do
  let name ← requireIdentifier
  if ← accept .equals then
    let initializer ← initializer rules inAllowed
    return { name, initializer := some initializer }
  else
    return { name, initializer := none }

/-- Declarators with commas between them, at most so many. -/
def declarators (rules : Rules) (inAllowed : Bool) : Nat → Parser (List Declarator)
  | 0 => fault .exhausted
  | bound + 1 => do
      let first ← declarator rules inAllowed
      if ← accept .comma then
        let rest ← declarators rules inAllowed bound
        return first :: rest
      else
        return [first]

def declaration (rules : Rules) (inAllowed : Bool) (place : DeclarationPlace) : Parser Declaration :=
  spanned do
    let mode ← declarationMode
    let declarators ← declarators rules inAllowed (← repetitions)
    if place = .statement then
      requireStatementEnd
    return fun span => { span, mode, declarators }

-----------------------------------------------------------------------------------------
-- Simple statements
-----------------------------------------------------------------------------------------

def emptyStatement : Parser Stmt :=
  spanned do
    discard (require .semicolon)
    return fun span => .empty span

/-- `debugger` means nothing to a tree, where it is the empty statement. -/
def debuggerStatement : Parser Stmt :=
  spanned do
    discard (require .keywordDebugger)
    requireStatementEnd
    return fun span => .empty span

def expressionStatement (rules : Rules) (inAllowed : Bool) : Parser Stmt :=
  spanned do
    let value ← expression rules inAllowed
    requireStatementEnd
    return fun span => .expression span value

/-- The label of `break` or `continue`, which has to be on the line of the keyword. -/
def jumpLabel : Parser (Option String) := do
  let token ← peek
  if token.kind = .identifier && !token.afterNewline then
    discard consume
    let name ← nameAt token.span
    requireStatementEnd
    return some name
  else
    requireStatementEnd
    return none

def breakStatement : Parser Stmt :=
  spanned do
    discard (require .keywordBreak)
    let label ← jumpLabel
    return fun span => .breakTo span label

def continueStatement : Parser Stmt :=
  spanned do
    discard (require .keywordContinue)
    let label ← jumpLabel
    return fun span => .continueTo span label

/-- The token ends a statement, or is on a new line. -/
def endsStatement (token : Token) : Bool :=
  token.kind = .semicolon || token.kind = .braceClose || token.kind = .endOfInput
    || token.afterNewline

/-- The operand of `return` or `throw`, which has to begin on the line of the keyword. -/
def restrictedOperand (rules : Rules) (inAllowed : Bool) : Parser (Option Expr) := do
  if endsStatement (← peek) then
    requireStatementEnd
    return none
  else
    let value ← expression rules inAllowed
    requireStatementEnd
    return some value

def returnStatement (rules : Rules) (inAllowed : Bool) : Parser Stmt :=
  spanned do
    discard (require .keywordReturn)
    let value ← restrictedOperand rules inAllowed
    return fun span => .returnValue span value

def throwStatement (rules : Rules) (inAllowed : Bool) : Parser Stmt :=
  spanned do
    discard (require .keywordThrow)
    let value ← restrictedOperand rules inAllowed
    return fun span => .throwValue span value

-----------------------------------------------------------------------------------------
-- Statements that contain statements
-----------------------------------------------------------------------------------------

def block (rules : Rules) (inAllowed : Bool) : Parser Block :=
  spanned do
    discard (require .braceOpen)
    let statements ← rules.statements inAllowed .braceClose
    discard (require .braceClose)
    return fun span => { span, statements }

def blockStatement (rules : Rules) (inAllowed : Bool) : Parser Stmt :=
  .block <$> block rules inAllowed

def labelledStatement (rules : Rules) (inAllowed : Bool) : Parser Stmt :=
  spanned do
    let label ← requireIdentifier
    discard (require .colon)
    let statement ← rules.statement inAllowed
    return fun span => .labelled span label statement

/-- An expression in the parentheses of a header. -/
def parenthesizedCondition (rules : Rules) (inAllowed : Bool) : Parser Expr := do
  discard (require .parenthesisOpen)
  let condition ← expression rules inAllowed
  discard (require .parenthesisClose)
  return condition

def ifStatement (rules : Rules) (inAllowed : Bool) : Parser Stmt :=
  spanned do
    discard (require .keywordIf)
    let test ← parenthesizedCondition rules inAllowed
    let consequent ← rules.statement inAllowed
    if ← accept .keywordElse then
      let alternate ← rules.statement inAllowed
      return fun span => .ifElse span test consequent (some alternate)
    else
      return fun span => .ifElse span test consequent none

def whileStatement (rules : Rules) (inAllowed : Bool) : Parser Stmt :=
  spanned do
    discard (require .keywordWhile)
    let condition ← parenthesizedCondition rules inAllowed
    let body ← rules.statement inAllowed
    return fun span => .whileLoop span condition body

def withStatement (rules : Rules) (inAllowed : Bool) : Parser Stmt :=
  spanned do
    discard (require .keywordWith)
    let object ← parenthesizedCondition rules inAllowed
    let body ← rules.statement inAllowed
    return fun span => .withObject span object body

/-- The semicolon after a `do` loop may be missing whatever follows. -/
def doWhileStatement (rules : Rules) (inAllowed : Bool) : Parser Stmt :=
  spanned do
    discard (require .keywordDo)
    let body ← rules.statement inAllowed
    discard (require .keywordWhile)
    let condition ← parenthesizedCondition rules inAllowed
    discard (accept .semicolon)
    return fun span => .doWhile span body condition

def handler (rules : Rules) (inAllowed : Bool) : Parser Handler :=
  spanned do
    discard (require .parenthesisOpen)
    let parameter ← requireIdentifier
    discard (require .parenthesisClose)
    let body ← block rules inAllowed
    return fun span => { span, parameter, body }

/-- What follows a keyword that may be missing. -/
def afterKeyword {α : Type} (keyword : Kind) (parser : Parser α) : Parser (Option α) := do
  if ← accept keyword then
    some <$> parser
  else
    return none

def tryStatement (rules : Rules) (inAllowed : Bool) : Parser Stmt :=
  spanned do
    let start ← require .keywordTry
    let inner ← block rules inAllowed
    let handler ← afterKeyword .keywordCatch (handler rules inAllowed)
    let finalizer ← afterKeyword .keywordFinally (block rules inAllowed)
    if handler.isNone && finalizer.isNone then
      reject (start.error .tryStatementHasNoCatchOrFinally)
    return fun span => .tryBlock span inner handler finalizer

/-- The test of a branch, or nothing for the default branch. -/
def branchTest (rules : Rules) (inAllowed : Bool) : Parser (Option Expr) := do
  if ← accept .keywordCase then
    some <$> expression rules inAllowed
  else
    discard (require .keywordDefault)
    return none

/-- A kind of token that the statements of a branch end before. -/
def endsBranch (kind : Kind) : Bool :=
  kind = .keywordCase || kind = .keywordDefault || kind = .braceClose || kind = .endOfInput

def branch (rules : Rules) (inAllowed : Bool) : Parser Branch :=
  spanned do
    let test ← branchTest rules inAllowed
    discard (require .colon)
    let body ←
      repeatWhile (do return !endsBranch (← peek).kind) (rules.statement inAllowed)
    return fun span => { span, test, body }

def switchStatement (rules : Rules) (inAllowed : Bool) : Parser Stmt :=
  spanned do
    discard (require .keywordSwitch)
    let test ← parenthesizedCondition rules inAllowed
    discard (require .braceOpen)
    let branches ← repeatUntil .braceClose (branch rules inAllowed)
    discard (require .braceClose)
    return fun span => .switch span test branches

-----------------------------------------------------------------------------------------
-- The two kinds of `for` loops
-----------------------------------------------------------------------------------------

/-- A kind of token that a declaration begins with. -/
def opensDeclaration (kind : Kind) : Bool :=
  kind = .keywordVar || kind = .keywordConst

/-- The first clause of a loop with three clauses. -/
def forStart (rules : Rules) : Parser ForStart := do
  let kind := (← peek).kind
  if opensDeclaration kind then
    .declaration <$> declaration rules false .forHeader
  else if kind = .semicolon then
    return .nothing
  else
    .expression <$> expression rules false

/-- A clause that may be missing before the token that closes it. -/
def forClause (rules : Rules) (inAllowed : Bool) (close : Kind) : Parser (Option Expr) := do
  let clause ←
    if (← peek).kind = close then
      pure none
    else
      some <$> expression rules inAllowed
  discard (require close)
  return clause

def forLoopStatement (rules : Rules) (inAllowed : Bool) : Parser Stmt :=
  spanned do
    discard (require .keywordFor)
    discard (require .parenthesisOpen)
    let start ← forStart rules
    discard (require .semicolon)
    let condition ← forClause rules inAllowed .semicolon
    let update ← forClause rules inAllowed .parenthesisClose
    let body ← rules.statement inAllowed
    return fun span => .forLoop span start condition update body

/-- What a `for`-`in` loop assigns to: one declarator, or an expression that can be assigned to. -/
def forInTarget (rules : Rules) : Parser ForInTarget := do
  if opensDeclaration (← peek).kind then
    let declaration ← declaration rules false .forHeader
    if declaration.declarators.length = 1 then
      return .declaration declaration
    else
      reject
        {
          cause := .expectedSyntax "single variable declaration"
          span := declaration.span
          actual := none
        }
  else
    let target ← expression rules false
    requireTarget target
    return .expression target

def forInStatement (rules : Rules) (inAllowed : Bool) : Parser Stmt :=
  spanned do
    discard (require .keywordFor)
    discard (require .parenthesisOpen)
    let target ← forInTarget rules
    discard (require .keywordIn)
    let object ← expression rules inAllowed
    discard (require .parenthesisClose)
    let body ← rules.statement inAllowed
    return fun span => .forIn span target object body

/-- Reads the header of a loop up to the end of its first clause and says whether `in` follows. -/
def forHeaderHasIn (rules : Rules) : Parser Bool := do
  discard (require .keywordFor)
  discard (require .parenthesisOpen)
  let kind := (← peek).kind
  if kind = .semicolon then
    return false
  else
    if opensDeclaration kind then
      discard (declaration rules false .forHeader)
    else
      discard (expression rules false)
    return (← peek).kind = .keywordIn

def forStatement (rules : Rules) (inAllowed : Bool) : Parser Stmt := do
  let start ← checkpoint
  let hasIn ← forHeaderHasIn rules
  restore start
  if hasIn then forInStatement rules inAllowed else forLoopStatement rules inAllowed

-----------------------------------------------------------------------------------------
-- All statements
-----------------------------------------------------------------------------------------

/-- A statement. The first token says which, but for a label, which is an identifier before a colon. -/
def statement (rules : Rules) (inAllowed : Bool) : Parser Stmt := do
  let kinds := (← peekMany 2).map Token.kind
  match kinds with
  | .braceOpen :: _ => blockStatement rules inAllowed
  | .keywordBreak :: _ => breakStatement
  | .keywordConst :: _ => .declaration <$> declaration rules inAllowed .statement
  | .keywordVar :: _ => .declaration <$> declaration rules inAllowed .statement
  | .keywordContinue :: _ => continueStatement
  | .keywordDebugger :: _ => debuggerStatement
  | .keywordDo :: _ => doWhileStatement rules inAllowed
  | .keywordFor :: _ => forStatement rules inAllowed
  | .keywordFunction :: _ => functionDeclaration rules
  | .keywordIf :: _ => ifStatement rules inAllowed
  | .keywordReturn :: _ => returnStatement rules inAllowed
  | .keywordSwitch :: _ => switchStatement rules inAllowed
  | .keywordThrow :: _ => throwStatement rules inAllowed
  | .keywordTry :: _ => tryStatement rules inAllowed
  | .keywordWhile :: _ => whileStatement rules inAllowed
  | .keywordWith :: _ => withStatement rules inAllowed
  | .semicolon :: _ => emptyStatement
  | [.identifier, .colon] => labelledStatement rules inAllowed
  | _ => expressionStatement rules inAllowed

end EcmaSyntax.Grammar
