import EcmaSyntax.Proofs.Grammar.Phrase

/-! The productions of the grammar, as relations between a phrase and its components. The tokens that a
production looks at without consuming them are components too. `span` is the span of all tokens that the
production consumes.
-/

namespace EcmaSyntax

/-- Operators that stand between two operands. -/
def Operator.isBinary : Operator → Bool
  | call | computedMemberAccess | memberAccess | conditional => false
  | _ => true

namespace Kind

variable {kind : Kind}

theorem eq_question_of_infixOperator? (opens : kind.infixOperator? = some .conditional)
    : kind = .question := by
  cases kind <;> first | rfl | cases opens

theorem eq_dot_of_infixOperator? (opens : kind.infixOperator? = some .memberAccess)
    : kind = .dot := by
  cases kind <;> first | rfl | cases opens

theorem eq_bracketOpen_of_infixOperator?
    (opens : kind.infixOperator? = some .computedMemberAccess)
    : kind = .bracketOpen := by
  cases kind <;> first | rfl | cases opens

end Kind

/-- A kind of valid token that has a text and is read as outside of operands. -/
def Kind.isPlain (kind : Kind) : Bool :=
  kind != .endOfInput && kind != .invalid && kind != .literalRegex

namespace Script

/-- The text that the string literal stands for, if its escapes have a meaning. -/
def stringOf? (script : Script) (token : Token) : Option String :=
  (Text.unquote? (script.textOf token.span)).bind fun body => (Text.decodeString body).toOption

/-- The value of the number literal. -/
def numberOf? (script : Script) (token : Token) : Option Number :=
  Number.ofLiteral? (script.textOf token.span)

/-- The key of a member that the token is. -/
def keyOf? (script : Script) (token : Token) : Option String :=
  if token.kind = .identifier then some (script.nameOf token)
  else if token.kind = .literalString then script.stringOf? token
  else if token.kind = .literalNumber then
    (script.numberOf? token).map fun value => String.ofList value.text
  else if token.kind.isWord then some (String.ofList (script.textOf token.span))
  else none

/-- The mode of a declaration that begins with a token of the kind. -/
def declarationMode? (script : Script) (kind : Kind) : Option DeclarationMode :=
  if Parser.isReservedIn script.dialect kind then none
  else if kind = .keywordConst then some .constants
  else if kind = .keywordVar then some .vars
  else none

end Script

namespace Grammar

/-- The token, after operators of the precedence and above, is none of them. -/
def StopsOperators (inAllowed : Bool) (least : Nat) (token : Token) : Prop :=
  match updateOperator? token with
  | some operator => operator.precedence < least
  | none =>
      ∀ operator,
        token.kind.infixOperator? = some operator →
        operator.precedence < least ∨ operator = .isIn ∧ inAllowed = false

/-- Items go on up to a token of the kind or the end of the input. -/
def goesUntil (stop kind : Kind) : Bool :=
  kind != stop && kind != .endOfInput

/-- A kind of token that statements other than expressions begin with, labels aside. -/
def opensStatement (kind : Kind) : Bool :=
  match kind with
  | .braceOpen | .keywordBreak | .keywordConst | .keywordVar | .keywordContinue
  | .keywordDebugger | .keywordDo | .keywordFor | .keywordFunction | .keywordIf
  | .keywordReturn | .keywordSwitch | .keywordThrow | .keywordTry | .keywordWhile
  | .keywordWith | .semicolon => true
  | _ => false

-----------------------------------------------------------------------------------------
-- Expressions and functions
-----------------------------------------------------------------------------------------

/-- The phrases that expressions and functions are made of. -/
def Phrase.isExpression : Phrase → Bool
  | expression .. | operand .. | primary _ | operators .. | continuation .. | access ..
  | accesses .. | arguments _ | elements _ | member _ | function _ | parameter _ | body _ => true
  | _ => false

/-- The productions of expressions, and of functions, which are expressions too. -/
inductive ExpressionRule (script : Script) (span : Span) : Phrase → List Item → Prop
  | expression
    : ExpressionRule script span (.expression inAllowed least value)
        [
          .part (.phrase (.operand inAllowed left)) front,
          .part (.phrase (.operators inAllowed least left value)) back
        ]
  | operandPlain
    : ExpressionRule script span (.operand inAllowed value)
        [.part (.phrase (.primary value)) tokens]
  | operandPrefixed (opens : token.kind.prefixOperator? = some operator)
    (target
      : operator = .prefixDecrement ∨ operator = .prefixIncrement → argument.isAssignmentTarget)
    : ExpressionRule script span
        (.operand inAllowed (.unary (token.span.cover argument.span) operator argument))
        [
          .token token,
          .part (.phrase (.expression inAllowed operator.rightPrecedence argument)) tokens
        ]
  | object (opens : brace.kind = .braceOpen)
    : ExpressionRule script span (.primary (.object span members))
        [.token brace, .part (.looseList .braceClose (members.map .member)) tokens]
  | array (opens : bracket.kind = .bracketOpen) (closes : close.kind = .bracketClose)
    : ExpressionRule script span (.primary (.array span elements))
        [.token bracket, .part (.phrase (.elements elements)) tokens, .token close]
  | identifier (named : token.kind = .identifier)
    : ExpressionRule script span (.primary (.identifier span (script.nameOf token)))
        [.token token]
  | functionAnonymous {function : Func} (opens : keyword.kind = .keywordFunction)
    (anonymous : next.kind = .parenthesisOpen)
    : ExpressionRule script span (.primary (.function span none function))
        [.token keyword, .ahead [next], .part (.phrase (.function function)) tokens]
  | functionNamed {function : Func} (opens : keyword.kind = .keywordFunction)
    (named : token.kind = .identifier)
    : ExpressionRule script span (.primary (.function span (some (script.nameOf token)) function))
        [.token keyword, .token token, .part (.phrase (.function function)) tokens]
  | construct (opens : keyword.kind = .keywordNew) (called : next.kind = .parenthesisOpen)
    : ExpressionRule script span
        (.primary (.construct (keyword.span.cover arguments.span) constructor arguments))
        [
          .token keyword,
          .part (.phrase (.primary head)) front,
          .part (.phrase (.accesses head constructor)) middle,
          .ahead [next],
          .part (.phrase (.arguments arguments)) back
        ]
  | constructBare (opens : keyword.kind = .keywordNew) (bare : next.kind ≠ .parenthesisOpen)
    : ExpressionRule script span
        (.primary
          (.construct (keyword.span.cover constructor.span) constructor
            {
              span := Span.point constructor.span.stop
              values := []
            }))
        [
          .token keyword,
          .part (.phrase (.primary head)) front,
          .part (.phrase (.accesses head constructor)) middle,
          .ahead [next]
        ]
  | this (opens : token.kind = .keywordThis)
    : ExpressionRule script span (.primary (.this span)) [.token token]
  | boolean (opens : token.kind = .literalTrue ∨ token.kind = .literalFalse)
    : ExpressionRule script span (.primary (.boolean span (token.kind = .literalTrue)))
        [.token token]
  | null (opens : token.kind = .literalNull)
    : ExpressionRule script span (.primary (.null span)) [.token token]
  | number (opens : token.kind = .literalNumber) (denotes : script.numberOf? token = some value)
    : ExpressionRule script span (.primary (.number span value)) [.token token]
  | regex (opens : token.kind = .literalRegex)
    : ExpressionRule script span
        (.primary (.regex span (String.ofList (script.textOf token.span)))) [.regex token]
  | string (opens : token.kind = .literalString) (denotes : script.stringOf? token = some value)
    : ExpressionRule script span (.primary (.string span value)) [.token token]
  | parenthesized {inner : Expr} (opens : parenthesis.kind = .parenthesisOpen)
    (closes : close.kind = .parenthesisClose)
    : ExpressionRule script span (.primary (.parenthesized span inner))
        [.token parenthesis, .part (.phrase (.expression true 1 inner)) tokens, .token close]
  | accessesNone (noPoint : next.kind ≠ .dot) (noBracket : next.kind ≠ .bracketOpen)
    : ExpressionRule script span (.accesses value value) [.ahead [next]]
  | accessesMore (opens : next.kind.infixOperator? = some operator)
    (isAccess : operator = .memberAccess ∨ operator = .computedMemberAccess)
    : ExpressionRule script span (.accesses constructor value)
        [
          .ahead [next],
          .part (.phrase (.access operator constructor between)) front,
          .part (.phrase (.accesses between value)) back
        ]
  | accessMember (opens : point.kind = .dot)
    (named : token.kind = .identifier ∨ token.kind.isWord)
    : ExpressionRule script span
        (.access .memberAccess object
          (.member (object.span.cover token.span) object (script.nameOf token)))
        [.token point, .token token]
  | accessIndex (opens : bracket.kind = .bracketOpen) (closes : close.kind = .bracketClose)
    : ExpressionRule script span
        (.access .computedMemberAccess object (.index (object.span.cover close.span) object key))
        [.token bracket, .part (.phrase (.expression true 1 key)) tokens, .token close]
  | operatorsNone (stops : StopsOperators inAllowed least next)
    : ExpressionRule script span (.operators inAllowed least value value) [.ahead [next]]
  | operatorsUpdate (updates : updateOperator? token = some operator)
    (binds : least ≤ operator.precedence) (target : left.isAssignmentTarget)
    : ExpressionRule script span (.operators inAllowed least left value)
        [
          .token token,
          .part
            (.phrase
              (.operators inAllowed least (.update (left.span.cover token.span) operator left)
                value))
            tokens
        ]
  | operatorsMore (noUpdate : updateOperator? next = none)
    (opens : next.kind.infixOperator? = some operator) (binds : least ≤ operator.precedence)
    (allowed : operator = .isIn → inAllowed = true)
    : ExpressionRule script span (.operators inAllowed least left value)
        [
          .ahead [next],
          .part (.phrase (.continuation inAllowed operator left between)) front,
          .part (.phrase (.operators inAllowed least between value)) back
        ]
  | continuationCall
    : ExpressionRule script span
        (.continuation inAllowed .call left
          (.call (left.span.cover arguments.span) left arguments))
        [.part (.phrase (.arguments arguments)) tokens]
  | continuationAccess
    (isAccess : operator = .memberAccess ∨ operator = .computedMemberAccess)
    : ExpressionRule script span (.continuation inAllowed operator left value)
        [.part (.phrase (.access operator left value)) tokens]
  | continuationConditional (opens : question.kind = .question) (divides : colon.kind = .colon)
    : ExpressionRule script span
        (.continuation inAllowed .conditional left
          (.conditional (left.span.cover alternate.span) left consequent alternate))
        [
          .token question,
          .part (.phrase (.expression true Operator.assignmentPrecedence consequent)) front,
          .token colon,
          .part (.phrase (.expression inAllowed Operator.assignmentPrecedence alternate)) back
        ]
  | continuationBinary (opens : token.kind.infixOperator? = some operator)
    (isBinary : operator.isBinary) (target : operator.isAssignment → left.isAssignmentTarget)
    : ExpressionRule script span
        (.continuation inAllowed operator left
          (.binary (left.span.cover right.span) operator left right))
        [
          .token token,
          .part (.phrase (.expression inAllowed operator.rightPrecedence right)) tokens
        ]
  | arguments (opens : parenthesis.kind = .parenthesisOpen)
    : ExpressionRule script span (.arguments { span, values })
        [
          .token parenthesis,
          .part
            (.list .parenthesisClose
              (values.map (.expression true Operator.assignmentPrecedence)))
            tokens
        ]
  | elementsNone (closes : next.kind = .bracketClose)
    : ExpressionRule script span (.elements []) [.ahead [next]]
  | elementsHole (separates : comma.kind = .comma)
    : ExpressionRule script span (.elements (.hole :: rest))
        [.token comma, .part (.phrase (.elements rest)) tokens]
  | elementsLast (noComma : first.kind ≠ .comma) (noClose : first.kind ≠ .bracketClose)
    (closes : next.kind = .bracketClose)
    : ExpressionRule script span (.elements [.value value])
        [
          .ahead [first],
          .part (.phrase (.expression true Operator.assignmentPrecedence value)) front,
          .ahead [next]
        ]
  | elementsMore (noComma : first.kind ≠ .comma) (noClose : first.kind ≠ .bracketClose)
    (separates : comma.kind = .comma)
    : ExpressionRule script span (.elements (.value value :: rest))
        [
          .ahead [first],
          .part (.phrase (.expression true Operator.assignmentPrecedence value)) front,
          .token comma,
          .part (.phrase (.elements rest)) back
        ]
  | memberProperty (named : script.keyOf? token = some key) (divides : colon.kind = .colon)
    : ExpressionRule script span (.member (.property span key value))
        [
          .token token,
          .token colon,
          .part (.phrase (.expression true Operator.assignmentPrecedence value)) tokens
        ]
  | memberGetter {function : Func} (opens : word.kind = .identifier)
    (spelled : String.ofList (script.textOf word.span) = "get")
    (named : script.keyOf? token = some key) (arity : function.parameters.length = 0)
    : ExpressionRule script span (.member (.getter span key function))
        [.token word, .token token, .part (.phrase (.function function)) tokens]
  | memberSetter {function : Func} (opens : word.kind = .identifier)
    (spelled : String.ofList (script.textOf word.span) = "set")
    (named : script.keyOf? token = some key) (arity : function.parameters.length = 1)
    : ExpressionRule script span (.member (.setter span key function))
        [.token word, .token token, .part (.phrase (.function function)) tokens]
  | function (opens : parenthesis.kind = .parenthesisOpen)
    : ExpressionRule script span (.function { span, parameters, body })
        [
          .token parenthesis,
          .part (.list .parenthesisClose (parameters.map .parameter)) front,
          .part (.phrase (.body body)) back
        ]
  | parameter (named : token.kind = .identifier)
    : ExpressionRule script span (.parameter { span, name := script.nameOf token })
        [.token token]
  | body (opens : brace.kind = .braceOpen) (closes : close.kind = .braceClose)
    : ExpressionRule script span (.body { span, statements })
        [
          .token brace,
          .part (.repeated (goesUntil .braceClose) (statements.map (.statement true))) tokens,
          .token close
        ]

-----------------------------------------------------------------------------------------
-- Statements
-----------------------------------------------------------------------------------------

/-- The productions of statements. -/
inductive StatementRule (script : Script) (span : Span) : Phrase → List Item → Prop
  | block {block : Block}
    : StatementRule script span (.statement inAllowed (.block block))
        [.part (.phrase (.block inAllowed block)) tokens]
  | breakTo (opens : keyword.kind = .keywordBreak)
    : StatementRule script span (.statement inAllowed (.breakTo span label))
        [.token keyword, .part (.phrase (.jumpLabel label)) tokens]
  | continueTo (opens : keyword.kind = .keywordContinue)
    : StatementRule script span (.statement inAllowed (.continueTo span label))
        [.token keyword, .part (.phrase (.jumpLabel label)) tokens]
  | declaration {declaration : Declaration}
    : StatementRule script span (.statement inAllowed (.declaration declaration))
        [.part (.phrase (.declaration inAllowed .statement declaration)) tokens]
  | debugger (opens : keyword.kind = .keywordDebugger)
    : StatementRule script span (.statement inAllowed (.empty span))
        [.token keyword, .part (.phrase .statementEnd) tokens]
  | doWhileEnded (opens : keyword.kind = .keywordDo) (loops : whileWord.kind = .keywordWhile)
    (ends : semicolon.kind = .semicolon)
    : StatementRule script span (.statement inAllowed (.doWhile span body condition))
        [
          .token keyword,
          .part (.phrase (.statement inAllowed body)) front,
          .token whileWord,
          .part (.phrase (.condition inAllowed condition)) back,
          .token semicolon
        ]
  | doWhile (opens : keyword.kind = .keywordDo) (loops : whileWord.kind = .keywordWhile)
    (noEnd : next.kind ≠ .semicolon)
    : StatementRule script span (.statement inAllowed (.doWhile span body condition))
        [
          .token keyword,
          .part (.phrase (.statement inAllowed body)) front,
          .token whileWord,
          .part (.phrase (.condition inAllowed condition)) back,
          .ahead [next]
        ]
  | empty (opens : semicolon.kind = .semicolon)
    : StatementRule script span (.statement inAllowed (.empty span)) [.token semicolon]
  | expression (plain : opensStatement first.kind = false) (unnamed : first.kind ≠ .identifier)
    : StatementRule script span (.statement inAllowed (.expression span value))
        [
          .ahead [first],
          .part (.phrase (.expression inAllowed 1 value)) front,
          .part (.phrase .statementEnd) back
        ]
  | expressionNamed (named : first.kind = .identifier) (noLabel : second.kind ≠ .colon)
    : StatementRule script span (.statement inAllowed (.expression span value))
        [
          .ahead [first, second],
          .part (.phrase (.expression inAllowed 1 value)) front,
          .part (.phrase .statementEnd) back
        ]
  | forIn (opens : keyword.kind = .keywordFor) (parenthesis : bracket.kind = .parenthesisOpen)
    (within : inWord.kind = .keywordIn) (closes : close.kind = .parenthesisClose)
    : StatementRule script span (.statement inAllowed (.forIn span target object body))
        [
          .token keyword,
          .token bracket,
          .part (.phrase (.forInTarget target)) front,
          .token inWord,
          .part (.phrase (.expression inAllowed 1 object)) middle,
          .token close,
          .part (.phrase (.statement inAllowed body)) back
        ]
  | forLoop (opens : keyword.kind = .keywordFor) (parenthesis : bracket.kind = .parenthesisOpen)
    (divides : semicolon.kind = .semicolon)
    : StatementRule script span
        (.statement inAllowed (.forLoop span start condition update body))
        [
          .token keyword,
          .token bracket,
          .part (.phrase (.forStart start)) front,
          .token semicolon,
          .part (.phrase (.forClause inAllowed .semicolon condition)) middle,
          .part (.phrase (.forClause inAllowed .parenthesisClose update)) last,
          .part (.phrase (.statement inAllowed body)) back
        ]
  | ifElse (opens : keyword.kind = .keywordIf) (otherwise : elseWord.kind = .keywordElse)
    : StatementRule script span
        (.statement inAllowed (.ifElse span test consequent (some alternate)))
        [
          .token keyword,
          .part (.phrase (.condition inAllowed test)) front,
          .part (.phrase (.statement inAllowed consequent)) middle,
          .token elseWord,
          .part (.phrase (.statement inAllowed alternate)) back
        ]
  | ifOnly (opens : keyword.kind = .keywordIf) (noElse : next.kind ≠ .keywordElse)
    : StatementRule script span (.statement inAllowed (.ifElse span test consequent none))
        [
          .token keyword,
          .part (.phrase (.condition inAllowed test)) front,
          .part (.phrase (.statement inAllowed consequent)) back,
          .ahead [next]
        ]
  | labelled {inner : Stmt} (named : token.kind = .identifier) (divides : colon.kind = .colon)
    : StatementRule script span
        (.statement inAllowed (.labelled span (script.nameOf token) inner))
        [.token token, .token colon, .part (.phrase (.statement inAllowed inner)) tokens]
  | returnValue (opens : keyword.kind = .keywordReturn)
    : StatementRule script span (.statement inAllowed (.returnValue span value))
        [.token keyword, .part (.phrase (.restrictedOperand inAllowed value)) tokens]
  | throwValue (opens : keyword.kind = .keywordThrow)
    : StatementRule script span (.statement inAllowed (.throwValue span value))
        [.token keyword, .part (.phrase (.restrictedOperand inAllowed value)) tokens]
  | switch (opens : keyword.kind = .keywordSwitch) (encloses : brace.kind = .braceOpen)
    (closes : close.kind = .braceClose)
    : StatementRule script span (.statement inAllowed (.switch span test branches))
        [
          .token keyword,
          .part (.phrase (.condition inAllowed test)) front,
          .token brace,
          .part (.repeated (goesUntil .braceClose) (branches.map (.branch inAllowed))) back,
          .token close
        ]
  | tryBlock {block : Block} {handler : Option Handler} (opens : keyword.kind = .keywordTry)
    (guarded : handler.isSome ∨ finalizer.isSome)
    : StatementRule script span (.statement inAllowed (.tryBlock span block handler finalizer))
        [
          .token keyword,
          .part (.phrase (.block inAllowed block)) front,
          .part (.afterKeyword .keywordCatch (handler.map (.handler inAllowed))) middle,
          .part (.afterKeyword .keywordFinally (finalizer.map (.block inAllowed))) back
        ]
  | whileLoop (opens : keyword.kind = .keywordWhile)
    : StatementRule script span (.statement inAllowed (.whileLoop span condition body))
        [
          .token keyword,
          .part (.phrase (.condition inAllowed condition)) front,
          .part (.phrase (.statement inAllowed body)) back
        ]
  | withObject (opens : keyword.kind = .keywordWith)
    : StatementRule script span (.statement inAllowed (.withObject span object body))
        [
          .token keyword,
          .part (.phrase (.condition inAllowed object)) front,
          .part (.phrase (.statement inAllowed body)) back
        ]
  | function {function : Func} (opens : keyword.kind = .keywordFunction)
    (named : token.kind = .identifier)
    : StatementRule script span
        (.statement inAllowed (.function span (script.nameOf token) function))
        [.token keyword, .token token, .part (.phrase (.function function)) tokens]
  | statementEndMark (ends : semicolon.kind = .semicolon)
    : StatementRule script span .statementEnd [.token semicolon]
  | statementEndImplied (noMark : next.kind ≠ .semicolon) (ends : endsStatement next)
    : StatementRule script span .statementEnd [.ahead [next]]
  | jumpLabelSome (named : token.kind = .identifier) (sameLine : token.afterNewline = false)
    : StatementRule script span (.jumpLabel (some (script.nameOf token)))
        [.token token, .part (.phrase .statementEnd) tokens]
  | jumpLabelNone (unnamed : next.kind = .identifier → next.afterNewline = true)
    : StatementRule script span (.jumpLabel none)
        [.ahead [next], .part (.phrase .statementEnd) tokens]
  | restrictedOperandNone (ends : endsStatement next)
    : StatementRule script span (.restrictedOperand inAllowed none)
        [.ahead [next], .part (.phrase .statementEnd) tokens]
  | restrictedOperandSome (goesOn : endsStatement next = false)
    : StatementRule script span (.restrictedOperand inAllowed (some value))
        [
          .ahead [next],
          .part (.phrase (.expression inAllowed 1 value)) front,
          .part (.phrase .statementEnd) back
        ]
  | condition (opens : parenthesis.kind = .parenthesisOpen)
    (closes : close.kind = .parenthesisClose)
    : StatementRule script span (.condition inAllowed value)
        [
          .token parenthesis,
          .part (.phrase (.expression inAllowed 1 value)) tokens,
          .token close
        ]
  | blockOf (opens : brace.kind = .braceOpen) (closes : close.kind = .braceClose)
    : StatementRule script span (.block inAllowed { span, statements })
        [
          .token brace,
          .part (.repeated (goesUntil .braceClose) (statements.map (.statement inAllowed))) tokens,
          .token close
        ]
  | declarationStatement {declarators : List Declarator}
    (declares : script.declarationMode? keyword.kind = some mode)
    : StatementRule script span (.declaration inAllowed .statement { span, mode, declarators })
        [
          .token keyword,
          .part (.separated (declarators.map (.declarator inAllowed))) front,
          .part (.phrase .statementEnd) back
        ]
  | declarationHeader {declarators : List Declarator}
    (declares : script.declarationMode? keyword.kind = some mode)
    : StatementRule script span (.declaration inAllowed .forHeader { span, mode, declarators })
        [
          .token keyword,
          .part (.separated (declarators.map (.declarator inAllowed))) tokens
        ]
  | declaratorInitialized {initializer : Initializer} (named : token.kind = .identifier)
    (assigns : equals.kind = .equals)
    : StatementRule script span
        (.declarator inAllowed
          { name := script.nameOf token, initializer := some initializer })
        [.token token, .token equals, .part (.phrase (.initializer inAllowed initializer)) tokens]
  | declaratorPlain (named : token.kind = .identifier) (plain : next.kind ≠ .equals)
    : StatementRule script span
        (.declarator inAllowed { name := script.nameOf token, initializer := none })
        [.token token, .ahead [next]]
  | initializer
    : StatementRule script span (.initializer inAllowed { span, value })
        [.part (.phrase (.expression inAllowed Operator.assignmentPrecedence value)) tokens]
  | handler (opens : parenthesis.kind = .parenthesisOpen) (named : token.kind = .identifier)
    (closes : close.kind = .parenthesisClose)
    : StatementRule script span (.handler inAllowed { span, parameter := script.nameOf token, body })
        [
          .token parenthesis,
          .token token,
          .token close,
          .part (.phrase (.block inAllowed body)) tokens
        ]
  | branch (divides : colon.kind = .colon)
    : StatementRule script span (.branch inAllowed { span, test, body })
        [
          .part (.phrase (.branchTest inAllowed test)) front,
          .token colon,
          .part
            (.repeated (fun kind => !endsBranch kind) (body.map (.statement inAllowed)))
            back
        ]
  | branchTestCase (opens : keyword.kind = .keywordCase)
    : StatementRule script span (.branchTest inAllowed (some test))
        [.token keyword, .part (.phrase (.expression inAllowed 1 test)) tokens]
  | branchTestDefault (opens : keyword.kind = .keywordDefault)
    : StatementRule script span (.branchTest inAllowed none) [.token keyword]
  | forStartDeclaration {declaration : Declaration} (opens : opensDeclaration first.kind)
    : StatementRule script span (.forStart (.declaration declaration))
        [.ahead [first], .part (.phrase (.declaration false .forHeader declaration)) tokens]
  | forStartNothing (missing : next.kind = .semicolon)
    : StatementRule script span (.forStart .nothing) [.ahead [next]]
  | forStartExpression (noDeclaration : opensDeclaration first.kind = false)
    (present : first.kind ≠ .semicolon)
    : StatementRule script span (.forStart (.expression value))
        [.ahead [first], .part (.phrase (.expression false 1 value)) tokens]
  | forClauseNone (closes : token.kind = close) (mark : close.isPlain)
    : StatementRule script span (.forClause inAllowed close none) [.token token]
  | forClauseSome (present : first.kind ≠ close) (closes : token.kind = close)
    (mark : close.isPlain)
    : StatementRule script span (.forClause inAllowed close (some value))
        [
          .ahead [first],
          .part (.phrase (.expression inAllowed 1 value)) tokens,
          .token token
        ]
  | forInTargetDeclaration {declaration : Declaration} (opens : opensDeclaration first.kind)
    (single : declaration.declarators.length = 1)
    : StatementRule script span (.forInTarget (.declaration declaration))
        [.ahead [first], .part (.phrase (.declaration false .forHeader declaration)) tokens]
  | forInTargetExpression (noDeclaration : opensDeclaration first.kind = false)
    (present : first.kind ≠ .semicolon) (target : value.isAssignmentTarget)
    : StatementRule script span (.forInTarget (.expression value))
        [.ahead [first], .part (.phrase (.expression false 1 value)) tokens]

-----------------------------------------------------------------------------------------
-- Repetition
-----------------------------------------------------------------------------------------

/-- The productions of phrases that are repeated or left out. -/
inductive RepetitionRule : Nonterminal → List Item → Prop
  | listNone (closes : token.kind = close) (mark : close.isPlain)
    : RepetitionRule (.list close []) [.token token]
  | listMore {next : Phrase} (goesOn : first.kind ≠ close)
    : RepetitionRule (.list close (next :: rest))
        [.ahead [first], .part (.phrase next) front, .part (.listTail close rest) back]
  | listTailNone (closes : token.kind = close) (mark : close.isPlain)
    (noComma : token.kind ≠ .comma)
    : RepetitionRule (.listTail close []) [.token token]
  | listTailMore {next : Phrase} (separates : comma.kind = .comma)
    : RepetitionRule (.listTail close (next :: rest))
        [.token comma, .part (.phrase next) front, .part (.listTail close rest) back]
  | looseListNone (closes : token.kind = close) (mark : close.isPlain)
    : RepetitionRule (.looseList close []) [.token token]
  | looseListLast {next : Phrase} (goesOn : first.kind ≠ close) (closes : token.kind = close)
    (mark : close.isPlain) (noComma : token.kind ≠ .comma)
    : RepetitionRule (.looseList close [next])
        [.ahead [first], .part (.phrase next) tokens, .token token]
  | looseListMore {next : Phrase} (goesOn : first.kind ≠ close) (separates : comma.kind = .comma)
    : RepetitionRule (.looseList close (next :: rest))
        [
          .ahead [first],
          .part (.phrase next) front,
          .token comma,
          .part (.looseList close rest) back
        ]
  | separatedLast {next : Phrase} (noComma : after.kind ≠ .comma)
    : RepetitionRule (.separated [next]) [.part (.phrase next) tokens, .ahead [after]]
  | separatedMore {next : Phrase} (separates : comma.kind = .comma)
    : RepetitionRule (.separated (next :: rest))
        [.part (.phrase next) front, .token comma, .part (.separated rest) back]
  | repeatedNone (stops : goes token.kind = false)
    : RepetitionRule (.repeated goes []) [.ahead [token]]
  | repeatedMore {next : Phrase} (goesOn : goes first.kind = true)
    : RepetitionRule (.repeated goes (next :: rest))
        [.ahead [first], .part (.phrase next) front, .part (.repeated goes rest) back]
  | afterKeywordNone (missing : next.kind ≠ keyword)
    : RepetitionRule (.afterKeyword keyword none) [.ahead [next]]
  | afterKeywordSome {phrase : Phrase} (opens : token.kind = keyword)
    (mark : keyword.isPlain)
    : RepetitionRule (.afterKeyword keyword (some phrase))
        [.token token, .part (.phrase phrase) tokens]

/-- The productions of the grammar. -/
inductive Rule (script : Script) (span : Span) : Nonterminal → List Item → Prop
  | expression {phrase : Phrase} {items : List Item}
    (rule : ExpressionRule script span phrase items)
    : Rule script span (.phrase phrase) items
  | statement {phrase : Phrase} {items : List Item}
    (rule : StatementRule script span phrase items)
    : Rule script span (.phrase phrase) items
  | repetition {nonterminal : Nonterminal} {items : List Item}
    (rule : RepetitionRule nonterminal items)
    : Rule script span nonterminal items

end Grammar

end EcmaSyntax
