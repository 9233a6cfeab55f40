import EcmaSyntax.Grammar.Program
import EcmaSyntax.Proofs.Dialect.Lockstep

/-! Every production goes in lockstep in the two dialects, and so does the whole grammar. Only operands
and declarations ask for the dialect; whatever else is tried, gone back over or read twice does not.
-/

namespace EcmaSyntax

/-- The productions of a level of nesting go in lockstep. -/
structure Rules.Lockstep (rules : Rules) : Prop where
  expression (inAllowed : Bool) (least : Nat) : (rules.expression inAllowed least).Lockstep
  primary (inAllowed : Bool) : (rules.primary inAllowed).Lockstep
  statement (inAllowed : Bool) : (rules.statement inAllowed).Lockstep

namespace Grammar

open EcmaSyntax.Parser (Lockstep)

variable {rules : Rules}

-----------------------------------------------------------------------------------------
-- Functions
-----------------------------------------------------------------------------------------

theorem lockstep_statements (lockstep : rules.Lockstep) {inAllowed : Bool} {stop : Kind}
    : (rules.statements inAllowed stop).Lockstep :=
  .repeatUntil (lockstep.statement inAllowed)

/-- Parameters are names, which no dialect reserves in another way. -/
theorem lockstep_functionParameters : functionParameters.Lockstep :=
  Lockstep.require.discard.bind fun _ =>
    .list (.spanned (Lockstep.requireIdentifier.bind fun _ => .pure _))

theorem lockstep_function (lockstep : rules.Lockstep) : (function rules).Lockstep := by
  have body : (functionBody rules).Lockstep :=
    .spanned
      (Lockstep.require.discard.bind fun _ =>
        (lockstep_statements lockstep).bind fun _ =>
          Lockstep.require.discard.bind fun _ => .pure _)
  exact .spanned (lockstep_functionParameters.bind fun _ => body.bind fun _ => .pure _)

theorem lockstep_functionDeclaration (lockstep : rules.Lockstep)
    : (functionDeclaration rules).Lockstep :=
  .spanned
    (Lockstep.require.discard.bind fun _ =>
      Lockstep.requireIdentifier.bind fun _ => (lockstep_function lockstep).bind fun _ => .pure _)

theorem lockstep_functionExpression (lockstep : rules.Lockstep)
    : (functionExpression rules).Lockstep := by
  refine .spanned (Lockstep.require.discard.bind fun _ => Lockstep.peek.bind fun _ => ?_)
  have onward (name : Option String)
      : Lockstep (do
          let function ← function rules
          return fun span => Expr.function span name function) :=
    (lockstep_function lockstep).bind fun _ => .pure _
  exact .ite ((Lockstep.pure none).bind onward) ((Lockstep.requireIdentifier.map some).bind onward)

-----------------------------------------------------------------------------------------
-- Literals
-----------------------------------------------------------------------------------------

theorem lockstep_stringAt {span : Span} : (stringAt span).Lockstep := by
  refine Lockstep.textAt.bind fun text => ?_
  cases Text.unquote? text with
  | none => exact .fault _
  | some body =>
      cases decoded : Text.decodeString body with
      | ok value => simpa only [decoded] using .pure value
      | error offset => simpa only [decoded] using .reject _

theorem lockstep_numberAt {span : Span} : (numberAt span).Lockstep := by
  refine Lockstep.textAt.bind fun text => ?_
  cases Number.ofLiteral? text with
  | none => exact .reject _
  | some value => exact .pure value

theorem lockstep_memberKey : memberKey.Lockstep :=
  Lockstep.consume.bind fun _ =>
    .ite .nameAt
      (.ite lockstep_stringAt
        (.ite (lockstep_numberAt.bind fun _ => .pure _)
          (.ite (Lockstep.textAt.bind fun _ => .pure _) (.reject _))))

/-- Elements of an array go in lockstep, by induction on the bound. -/
theorem lockstep_arrayElements (lockstep : rules.Lockstep) (bound : Nat)
    : (arrayElements rules bound).Lockstep := by
  induction bound with
  | zero => exact .fault _
  | succ bound ih =>
      exact Lockstep.accept.bind fun _ =>
        .ite (ih.bind fun _ => .pure _)
          (Lockstep.peek.bind fun _ =>
            .ite (.pure _)
              ((lockstep.expression _ _).bind fun _ =>
                Lockstep.peek.bind fun _ =>
                  .ite (.pure _)
                    (Lockstep.require.discard.bind fun _ => ih.bind fun _ => .pure _)))

/-- The word of an accessor and what follows it are looked at in lockstep. -/
theorem lockstep_accessorWord? : accessorWord?.Lockstep := by
  refine (Lockstep.peekMany 2).bind fun tokens => ?_
  split
  · exact .ite (Lockstep.textAt.bind fun _ => .pure _) (.pure _)
  · exact .pure _

theorem lockstep_objectMember (lockstep : rules.Lockstep) : (objectMember rules).Lockstep := by
  refine .spanned (lockstep_accessorWord?.bind fun opened => ?_)
  cases opened with
  | none =>
      exact lockstep_memberKey.bind fun _ =>
        Lockstep.require.discard.bind fun _ => (lockstep.expression _ _).bind fun _ => .pure _
  | some isGetter =>
      exact Lockstep.consume.discard.bind fun _ =>
        lockstep_memberKey.bind fun _ =>
          (lockstep_function lockstep).bind fun _ =>
            .ite (.ite (.pure _) (.reject _)) (.ite (.pure _) (.reject _))

-----------------------------------------------------------------------------------------
-- Expressions
-----------------------------------------------------------------------------------------

theorem lockstep_callArguments (lockstep : rules.Lockstep) : (callArguments rules).Lockstep :=
  .spanned
    (Lockstep.require.discard.bind fun _ =>
      (Lockstep.list (lockstep.expression true _)).bind fun _ => .pure _)

theorem lockstep_memberAccess {object : Expr} : (memberAccess object).Lockstep :=
  Lockstep.require.discard.bind fun _ =>
    Lockstep.consume.bind fun _ => .ite (Lockstep.nameAt.bind fun _ => .pure _) (.reject _)

theorem lockstep_indexAccess (lockstep : rules.Lockstep) {object : Expr}
    : (indexAccess rules object).Lockstep :=
  Lockstep.require.discard.bind fun _ =>
    (lockstep.expression true 1).bind fun _ => Lockstep.require.bind fun _ => .pure _

/-- The accesses behind a constructor go in lockstep, by induction on the bound. -/
theorem lockstep_constructorAccess (lockstep : rules.Lockstep) (bound : Nat) (constructor : Expr)
    : (constructorAccess rules bound constructor).Lockstep := by
  induction bound generalizing constructor with
  | zero => exact .fault _
  | succ bound ih =>
      exact Lockstep.peek.bind fun _ =>
        .ite (lockstep_memberAccess.bind ih)
          (.ite ((lockstep_indexAccess lockstep).bind ih) (.pure _))

theorem lockstep_newExpression (lockstep : rules.Lockstep) {inAllowed : Bool}
    : (newExpression rules inAllowed).Lockstep :=
  Lockstep.require.bind fun _ =>
    (lockstep.primary inAllowed).bind fun _ =>
      Lockstep.repetitions.bind fun _ =>
        (lockstep_constructorAccess lockstep _ _).bind fun _ =>
          Lockstep.peek.bind fun _ =>
            .ite ((lockstep_callArguments lockstep).bind fun _ => .pure _) (.pure _)

/-- An operand goes in lockstep, by cases on its first token. A `const` there is where it may stop. -/
theorem lockstep_primary (lockstep : rules.Lockstep) (inAllowed : Bool)
    : (primary rules inAllowed).Lockstep := by
  refine Lockstep.peek.bind fun token => ?_
  split
  · exact .spanned
      (Lockstep.require.discard.bind fun _ =>
        (Lockstep.looseList (lockstep_objectMember lockstep)).bind fun _ => .pure _)
  · exact .spanned
      (Lockstep.require.discard.bind fun _ =>
        Lockstep.repetitions.bind fun _ =>
          (lockstep_arrayElements lockstep _).bind fun _ =>
            Lockstep.require.discard.bind fun _ => .pure _)
  · exact .spanned (Lockstep.require.bind fun _ => Lockstep.nameAt.bind fun _ => .pure _)
  · exact lockstep_functionExpression lockstep
  · exact lockstep_newExpression lockstep
  · exact .spanned (Lockstep.require.discard.bind fun _ => .pure _)
  · exact .spanned (Lockstep.requireSome.bind fun _ => .pure _)
  · exact .spanned (Lockstep.requireSome.bind fun _ => .pure _)
  · exact .spanned (Lockstep.require.discard.bind fun _ => .pure _)
  · exact .spanned (Lockstep.require.bind fun _ => lockstep_numberAt.bind fun _ => .pure _)
  · exact .spanned (Lockstep.require.bind fun _ => Lockstep.textAt.bind fun _ => .pure _)
  · exact .spanned (Lockstep.require.bind fun _ => lockstep_stringAt.bind fun _ => .pure _)
  · exact .spanned
      (Lockstep.require.discard.bind fun _ =>
        (lockstep.expression true 1).bind fun _ => Lockstep.require.discard.bind fun _ => .pure _)
  · exact Lockstep.consume.bind fun _ => Lockstep.checkReserved.bind fun _ => .reject _

theorem lockstep_requireTarget {target : Expr} : (requireTarget target).Lockstep :=
  .ite (.pure _) (.reject _)

theorem lockstep_operand (lockstep : rules.Lockstep) {inAllowed : Bool}
    : (operand rules inAllowed).Lockstep := by
  refine Lockstep.peek.bind fun token => ?_
  cases token.kind.prefixOperator? with
  | none => exact lockstep_primary lockstep inAllowed
  | some operator =>
      exact Lockstep.consume.discard.bind fun _ =>
        (lockstep.expression _ _).bind fun _ =>
          .ite (lockstep_requireTarget.bind fun _ => .pure _) (.pure _)

/-- What continues an operand goes in lockstep, by cases on the operator. -/
theorem lockstep_continuation (lockstep : rules.Lockstep) {inAllowed : Bool}
    {operator : Operator} {left : Expr} {start : Nat}
    : (continuation rules inAllowed operator left start).Lockstep := by
  unfold continuation
  split
  · exact Lockstep.restore.bind fun _ => (lockstep_callArguments lockstep).bind fun _ => .pure _
  · exact Lockstep.restore.bind fun _ => lockstep_indexAccess lockstep
  · exact Lockstep.restore.bind fun _ => lockstep_memberAccess
  · exact (lockstep.expression _ _).bind fun _ =>
      Lockstep.require.discard.bind fun _ => (lockstep.expression _ _).bind fun _ => .pure _
  · have right
        : Lockstep (do
            let right ← rules.expression inAllowed operator.rightPrecedence
            return Expr.binary (left.span.cover right.span) operator left right) :=
      (lockstep.expression _ _).bind fun _ => .pure _
    exact .ite (lockstep_requireTarget.bind fun _ => right) right

/-- The operators behind an operand go in lockstep, by induction on the bound. -/
theorem lockstep_operators (lockstep : rules.Lockstep) {inAllowed : Bool} {least : Nat}
    (bound : Nat) (left : Expr)
    : (operators rules inAllowed least bound left).Lockstep := by
  induction bound generalizing left with
  | zero => exact .fault _
  | succ bound ih =>
      have back (start : Nat)
          : Lockstep (do
              Parser.restore start
              return left) :=
        Lockstep.restore.bind fun _ => .pure left
      refine Lockstep.checkpoint.bind fun start => Lockstep.consume.bind fun token => ?_
      cases updateOperator? token with
      | some operator => exact .ite (back _) (lockstep_requireTarget.bind fun _ => ih _)
      | none =>
          cases token.kind.infixOperator? with
          | none => exact back _
          | some operator => exact .ite (back _) ((lockstep_continuation lockstep).bind ih)

theorem lockstep_expressionFrom (lockstep : rules.Lockstep) (inAllowed : Bool) (least : Nat)
    : (expressionFrom rules inAllowed least).Lockstep :=
  (lockstep_operand lockstep).bind fun _ =>
    Lockstep.repetitions.bind fun _ => lockstep_operators lockstep _ _

-----------------------------------------------------------------------------------------
-- Declarations and simple statements
-----------------------------------------------------------------------------------------

/-- The mode of a declaration is where `const` matters: one dialect reserves it and the other declares. -/
theorem lockstep_declarationMode : declarationMode.Lockstep :=
  Lockstep.consume.bind fun _ =>
    Lockstep.checkReserved.bind fun _ => .ite (.pure _) (.ite (.pure _) (.reject _))

theorem lockstep_declarator (lockstep : rules.Lockstep) {inAllowed : Bool}
    : (declarator rules inAllowed).Lockstep := by
  have initializer : (initializer rules inAllowed).Lockstep :=
    .spanned ((lockstep_expressionFrom lockstep _ _).bind fun _ => .pure _)
  exact Lockstep.requireIdentifier.bind fun _ =>
    Lockstep.accept.bind fun _ => .ite (initializer.bind fun _ => .pure _) (.pure _)

/-- A declaration goes in lockstep behind its keyword. -/
theorem lockstep_declaration (lockstep : rules.Lockstep) {inAllowed : Bool}
    {place : DeclarationPlace}
    : (declaration rules inAllowed place).Lockstep := by
  have many (bound : Nat) : (declarators rules inAllowed bound).Lockstep := by
    induction bound with
    | zero => exact .fault _
    | succ bound ih =>
        exact (lockstep_declarator lockstep).bind fun _ =>
          Lockstep.accept.bind fun _ => .ite (ih.bind fun _ => .pure _) (.pure _)
  exact .spanned
    (lockstep_declarationMode.bind fun _ =>
      Lockstep.repetitions.bind fun bound =>
        (many bound).bind fun _ =>
          .ite (Lockstep.requireStatementEnd.bind fun _ => .pure _) (.pure _))

/-- A label goes in lockstep, as line breaks are alike in both dialects. -/
theorem lockstep_jumpLabel : jumpLabel.Lockstep :=
  Lockstep.peek.bind fun _ =>
    .ite
      (Lockstep.consume.discard.bind fun _ =>
        Lockstep.nameAt.bind fun _ => Lockstep.requireStatementEnd.bind fun _ => .pure _)
      (Lockstep.requireStatementEnd.bind fun _ => .pure _)

/-- An operand on the line of its keyword goes in lockstep, as line breaks are alike in both dialects. -/
theorem lockstep_restrictedOperand (lockstep : rules.Lockstep) {inAllowed : Bool}
    : (restrictedOperand rules inAllowed).Lockstep :=
  Lockstep.peek.bind fun _ =>
    .ite (Lockstep.requireStatementEnd.bind fun _ => .pure _)
      ((lockstep_expressionFrom lockstep _ _).bind fun _ =>
        Lockstep.requireStatementEnd.bind fun _ => .pure _)

-----------------------------------------------------------------------------------------
-- Statements that contain statements
-----------------------------------------------------------------------------------------

theorem lockstep_block (lockstep : rules.Lockstep) {inAllowed : Bool}
    : (block rules inAllowed).Lockstep :=
  .spanned
    (Lockstep.require.discard.bind fun _ =>
      (lockstep_statements lockstep).bind fun _ => Lockstep.require.discard.bind fun _ => .pure _)

theorem lockstep_condition (lockstep : rules.Lockstep) {inAllowed : Bool}
    : (parenthesizedCondition rules inAllowed).Lockstep :=
  Lockstep.require.discard.bind fun _ =>
    (lockstep_expressionFrom lockstep _ _).bind fun _ =>
      Lockstep.require.discard.bind fun _ => .pure _

/-- A keyword, a condition in parentheses and a statement, as `while` and `with` have them. -/
theorem lockstep_guarded (lockstep : rules.Lockstep) {inAllowed : Bool} {keyword : Kind}
    {build : Span → Expr → Stmt → Stmt}
    : Lockstep
        (Parser.spanned do
          discard (Parser.require keyword)
          let condition ← parenthesizedCondition rules inAllowed
          let body ← rules.statement inAllowed
          return fun span => build span condition body) :=
  .spanned
    (Lockstep.require.discard.bind fun _ =>
      (lockstep_condition lockstep).bind fun _ =>
        (lockstep.statement inAllowed).bind fun _ => .pure _)

theorem lockstep_ifStatement (lockstep : rules.Lockstep) {inAllowed : Bool}
    : (ifStatement rules inAllowed).Lockstep :=
  .spanned
    (Lockstep.require.discard.bind fun _ =>
      (lockstep_condition lockstep).bind fun _ =>
        (lockstep.statement inAllowed).bind fun _ =>
          Lockstep.accept.bind fun _ =>
            .ite ((lockstep.statement inAllowed).bind fun _ => .pure _) (.pure _))

theorem lockstep_doWhileStatement (lockstep : rules.Lockstep) {inAllowed : Bool}
    : (doWhileStatement rules inAllowed).Lockstep :=
  .spanned
    (Lockstep.require.discard.bind fun _ =>
      (lockstep.statement inAllowed).bind fun _ =>
        Lockstep.require.discard.bind fun _ =>
          (lockstep_condition lockstep).bind fun _ =>
            Lockstep.accept.discard.bind fun _ => .pure _)

theorem lockstep_afterKeyword {α : Type} {keyword : Kind} {parser : Parser α}
    (lockstep : parser.Lockstep)
    : (afterKeyword keyword parser).Lockstep :=
  Lockstep.accept.bind fun _ => .ite (lockstep.map some) (.pure _)

/-- A `try` goes in lockstep; one that guards nothing is rejected in both dialects. -/
theorem lockstep_tryStatement (lockstep : rules.Lockstep) {inAllowed : Bool}
    : (tryStatement rules inAllowed).Lockstep := by
  have handler : (handler rules inAllowed).Lockstep :=
    .spanned
      (Lockstep.require.discard.bind fun _ =>
        Lockstep.requireIdentifier.bind fun _ =>
          Lockstep.require.discard.bind fun _ => (lockstep_block lockstep).bind fun _ => .pure _)
  exact .spanned
    (Lockstep.require.bind fun _ =>
      (lockstep_block lockstep).bind fun _ =>
        (lockstep_afterKeyword handler).bind fun _ =>
          (lockstep_afterKeyword (lockstep_block lockstep)).bind fun _ =>
            .ite ((Lockstep.reject _).bind fun _ => .pure _) (.pure _))

/-- The branches of a `switch` go in lockstep up to the brace that closes it. -/
theorem lockstep_switchStatement (lockstep : rules.Lockstep) {inAllowed : Bool}
    : (switchStatement rules inAllowed).Lockstep := by
  have test : (branchTest rules inAllowed).Lockstep :=
    Lockstep.accept.bind fun _ =>
      .ite ((lockstep_expressionFrom lockstep _ _).map some)
        (Lockstep.require.discard.bind fun _ => .pure _)
  have branch : (branch rules inAllowed).Lockstep :=
    .spanned
      (test.bind fun _ =>
        Lockstep.require.discard.bind fun _ =>
          (Lockstep.repeatWhile (Lockstep.peek.bind fun _ => .pure _)
            (lockstep.statement inAllowed)).bind fun _ => .pure _)
  exact .spanned
    (Lockstep.require.discard.bind fun _ =>
      (lockstep_condition lockstep).bind fun _ =>
        Lockstep.require.discard.bind fun _ =>
          (Lockstep.repeatUntil branch).bind fun _ =>
            Lockstep.require.discard.bind fun _ => .pure _)

-----------------------------------------------------------------------------------------
-- The two kinds of loops with `for`
-----------------------------------------------------------------------------------------

theorem lockstep_forStart (lockstep : rules.Lockstep) : (forStart rules).Lockstep :=
  Lockstep.peek.bind fun _ =>
    .ite ((lockstep_declaration lockstep).map _)
      (.ite (.pure _) ((lockstep_expressionFrom lockstep _ _).map _))

theorem lockstep_forClause (lockstep : rules.Lockstep) {inAllowed : Bool} {close : Kind}
    : (forClause rules inAllowed close).Lockstep := by
  have onward (clause : Option Expr)
      : Lockstep (do
          discard (Parser.require close)
          return clause) :=
    Lockstep.require.discard.bind fun _ => .pure clause
  exact Lockstep.peek.bind fun _ =>
    .ite ((Lockstep.pure none).bind onward)
      (((lockstep_expressionFrom lockstep _ _).map some).bind onward)

theorem lockstep_forLoopStatement (lockstep : rules.Lockstep) {inAllowed : Bool}
    : (forLoopStatement rules inAllowed).Lockstep :=
  .spanned
    (Lockstep.require.discard.bind fun _ =>
      Lockstep.require.discard.bind fun _ =>
        (lockstep_forStart lockstep).bind fun _ =>
          Lockstep.require.discard.bind fun _ =>
            (lockstep_forClause lockstep).bind fun _ =>
              (lockstep_forClause lockstep).bind fun _ =>
                (lockstep.statement inAllowed).bind fun _ => .pure _)

theorem lockstep_forInTarget (lockstep : rules.Lockstep) : (forInTarget rules).Lockstep :=
  Lockstep.peek.bind fun _ =>
    .ite ((lockstep_declaration lockstep).bind fun _ => .ite (.pure _) (.reject _))
      ((lockstep_expressionFrom lockstep _ _).bind fun _ =>
        lockstep_requireTarget.bind fun _ => .pure _)

theorem lockstep_forInStatement (lockstep : rules.Lockstep) {inAllowed : Bool}
    : (forInStatement rules inAllowed).Lockstep :=
  .spanned
    (Lockstep.require.discard.bind fun _ =>
      Lockstep.require.discard.bind fun _ =>
        (lockstep_forInTarget lockstep).bind fun _ =>
          Lockstep.require.discard.bind fun _ =>
            (lockstep_expressionFrom lockstep _ _).bind fun _ =>
              Lockstep.require.discard.bind fun _ =>
                (lockstep.statement inAllowed).bind fun _ => .pure _)

/-- The header is read ahead in lockstep too, so that both dialects take a loop for the same kind. -/
theorem lockstep_forHeaderHasIn (lockstep : rules.Lockstep) : (forHeaderHasIn rules).Lockstep :=
  Lockstep.require.discard.bind fun _ =>
    Lockstep.require.discard.bind fun _ =>
      Lockstep.peek.bind fun _ =>
        .ite (.pure _)
          (.ite
            ((lockstep_declaration lockstep).discard.bind fun _ =>
              Lockstep.peek.bind fun _ => .pure _)
            ((lockstep_expressionFrom lockstep _ _).discard.bind fun _ =>
              Lockstep.peek.bind fun _ => .pure _))

theorem lockstep_forStatement (lockstep : rules.Lockstep) {inAllowed : Bool}
    : (forStatement rules inAllowed).Lockstep :=
  Lockstep.checkpoint.bind fun _ =>
    (lockstep_forHeaderHasIn lockstep).bind fun _ =>
      Lockstep.restore.bind fun _ =>
        .ite (lockstep_forInStatement lockstep) (lockstep_forLoopStatement lockstep)

-----------------------------------------------------------------------------------------
-- All statements, and programs
-----------------------------------------------------------------------------------------

/-- Every statement goes in lockstep, by cases on its first two tokens. -/
theorem lockstep_statement (lockstep : rules.Lockstep) (inAllowed : Bool)
    : (statement rules inAllowed).Lockstep := by
  have jump (keyword : Kind) (build : Span → Option String → Stmt)
      : Lockstep
          (Parser.spanned do
            discard (Parser.require keyword)
            let label ← jumpLabel
            return fun span => build span label) :=
    .spanned (Lockstep.require.discard.bind fun _ => lockstep_jumpLabel.bind fun _ => .pure _)
  have restricted (keyword : Kind) (build : Span → Option Expr → Stmt)
      : Lockstep
          (Parser.spanned do
            discard (Parser.require keyword)
            let value ← restrictedOperand rules inAllowed
            return fun span => build span value) :=
    .spanned
      (Lockstep.require.discard.bind fun _ =>
        (lockstep_restrictedOperand lockstep).bind fun _ => .pure _)
  refine (Lockstep.peekMany 2).bind fun tokens => ?_
  dsimp only
  split
  · exact (lockstep_block lockstep).map _
  · exact jump .keywordBreak .breakTo
  · exact (lockstep_declaration lockstep).map _
  · exact (lockstep_declaration lockstep).map _
  · exact jump .keywordContinue .continueTo
  · exact .spanned
      (Lockstep.require.discard.bind fun _ => Lockstep.requireStatementEnd.bind fun _ => .pure _)
  · exact lockstep_doWhileStatement lockstep
  · exact lockstep_forStatement lockstep
  · exact lockstep_functionDeclaration lockstep
  · exact lockstep_ifStatement lockstep
  · exact restricted .keywordReturn .returnValue
  · exact lockstep_switchStatement lockstep
  · exact restricted .keywordThrow .throwValue
  · exact lockstep_tryStatement lockstep
  · exact lockstep_guarded lockstep
  · exact lockstep_guarded lockstep
  · exact .spanned (Lockstep.require.discard.bind fun _ => .pure _)
  · exact .spanned
      (Lockstep.requireIdentifier.bind fun _ =>
        Lockstep.require.discard.bind fun _ => (lockstep.statement inAllowed).bind fun _ => .pure _)
  · exact .spanned
      ((lockstep_expressionFrom lockstep _ _).bind fun _ =>
        Lockstep.requireStatementEnd.bind fun _ => .pure _)

end Grammar

/-- The rules of any height go in lockstep, by induction on the height. -/
theorem Rules.lockstep_ofDepth (depth : Nat) : (ofDepth depth).Lockstep := by
  induction depth with
  | zero => exact ⟨fun _ _ => .fault _, fun _ => .fault _, fun _ => .fault _⟩
  | succ depth ih =>
      exact
        {
          expression := Grammar.lockstep_expressionFrom ih
          primary := Grammar.lockstep_primary ih
          statement := Grammar.lockstep_statement ih
        }

/-- A whole program goes in lockstep. -/
theorem Grammar.lockstep_program : (withRules program).Lockstep :=
  .bind_get (fun _ _ => rfl) fun _ =>
    (lockstep_statements (Rules.lockstep_ofDepth _)).bind fun _ =>
      Parser.Lockstep.require.discard.bind fun _ => .bind_get (fun _ _ => rfl) fun _ => .pure _

end EcmaSyntax
