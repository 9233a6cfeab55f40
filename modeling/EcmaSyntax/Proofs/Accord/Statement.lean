import EcmaSyntax.Proofs.Accord.Expression
import EcmaSyntax.Proofs.Grammar.Soundness.Statement

/-! The productions of statements echo in texts in accord, given that the rules of the level below do.
-/

namespace EcmaSyntax.Grammar

open EcmaSyntax.Parser

variable {script other : Script} {accord : Accord script other} {lost : Prop} {offset : Nat}
variable {rules twin : Rules}

-----------------------------------------------------------------------------------------
-- Parts of statements
-----------------------------------------------------------------------------------------

/-- A condition in parentheses echoes as the expression in it does. -/
theorem condition_echo (echo : Rules.Echo accord rules twin) (inAllowed : Bool)
    : Echo accord (parenthesizedCondition rules inAllowed)
        (parenthesizedCondition twin inAllowed) :=
  .bind_discard_require rfl
    ((expressionFrom_echo echo inAllowed 1).bind fun _ =>
      .bind_discard_require rfl (.pure _))

theorem block_echo (echo : Rules.Echo accord rules twin) (inAllowed : Bool)
    : Echo accord (block rules inAllowed) (block twin inAllowed) :=
  .spanned_sound (block_sound echo.sound inAllowed) (fun _ => rfl)
    (.bind_discard_require rfl
      ((statements_echo echo inAllowed .braceClose).bind fun _ =>
        .bind_discard_require rfl (.pure _)))

-----------------------------------------------------------------------------------------
-- Declarations
-----------------------------------------------------------------------------------------

/-- The keyword of a declaration is reserved alike in both runs. -/
theorem declarationMode_echo : Echo accord declarationMode declarationMode := by
  refine .bind_consume (fun token read => .bind_checkReserved id ?_) fun token unwritten => ?_
  · exact .ite (fun _ => .pure _) fun _ => .ite (fun _ => .pure _) fun _ => .reject_token
  · rw [bind_checkReserved_unwritten (Kind.eq_of_not_isWritten unwritten)]
    exact .ite unwritten (fun same => same ▸ rfl)
      (.ite unwritten (fun same => same ▸ rfl) ⟨_, rfl⟩)

theorem initializer_echo (echo : Rules.Echo accord rules twin) (inAllowed : Bool)
    : Echo accord (initializer rules inAllowed) (initializer twin inAllowed) :=
  .spanned_sound (initializer_sound echo.sound inAllowed) (fun _ => rfl)
    ((expressionFrom_echo echo inAllowed _).bind fun _ => .pure _)

theorem declarator_echo (echo : Rules.Echo accord rules twin) (inAllowed : Bool)
    : Echo accord (declarator rules inAllowed) (declarator twin inAllowed) :=
  Echoes.requireIdentifier.bind fun _ =>
    .bind_accept rfl ((initializer_echo echo inAllowed).bind fun _ => .pure _) (.pure _)

/-- Declarators echo, by induction on the bounds of both runs. -/
theorem declarators_echo (echo : Rules.Echo accord rules twin) (inAllowed : Bool)
    (bound limit : Nat)
    : Echo accord (declarators rules inAllowed bound) (declarators twin inAllowed limit) := by
  refine .bounded rfl rfl (fun bound limit ih => ?_) bound limit
  exact (declarator_echo echo inAllowed).bind fun _ =>
    .bind_accept rfl (ih.bind fun _ => .pure _) (.pure _)

/-- A declaration echoes, with the end that its place asks for. -/
theorem declaration_echo (echo : Rules.Echo accord rules twin) (inAllowed : Bool)
    (place : DeclarationPlace)
    : Echo accord (declaration rules inAllowed place) (declaration twin inAllowed place) :=
  .spanned_sound (declaration_sound echo.sound inAllowed place) (fun _ => rfl)
    (declarationMode_echo.bind fun _ =>
      .bind_repetitions fun bound limit =>
        (declarators_echo echo inAllowed bound limit).bind fun _ =>
          .ite (fun _ => Echoes.requireStatementEnd.bind fun _ => .pure _) fun _ => .pure _)

-----------------------------------------------------------------------------------------
-- Simple statements
-----------------------------------------------------------------------------------------

theorem emptyStatement_echo : Echo accord emptyStatement emptyStatement :=
  .spanned_sound (emptyStatement_sound true) (fun _ => rfl)
    (.bind_discard_require rfl (.pure _))

theorem debuggerStatement_echo : Echo accord debuggerStatement debuggerStatement :=
  .spanned_sound (debuggerStatement_sound true) (fun _ => rfl)
    (.bind_discard_require rfl (Echoes.requireStatementEnd.bind fun _ => .pure _))

/-- An expression echoes as a statement where no other statement and no label begins. -/
theorem expressionStatement_echoes (echo : Rules.Echo accord rules twin) (inAllowed : Bool)
    {first second : Token} (readFirst : script.Reads .standard offset first)
    (readSecond : script.Reads .standard first.span.stop second)
    (plain : opensStatement first.kind = false)
    (noLabel : first.kind = .identifier → second.kind ≠ .colon)
    : Echoes accord lost (expressionStatement rules inAllowed) (expressionStatement twin inAllowed)
        offset :=
  .spanned (expressionStatement_sound echo.sound inAllowed readFirst readSecond plain noLabel)
    (fun _ _ derivation => derivation.ne_nil rfl)
    ((expressionFrom_echo echo inAllowed 1).bind fun _ =>
      Echoes.requireStatementEnd.bind fun _ => .pure _)

/-- A label stands on the line of its keyword, which is the same line in both runs. -/
theorem jumpLabel_echo : Echo accord jumpLabel jumpLabel := by
  intro lost offset
  refine .bind_peek fun token read => .ite (fun named => ?_) fun _ =>
    Echoes.requireStatementEnd.bind fun _ => .pure _
  simp only [Bool.and_eq_true, decide_eq_true_eq] at named
  refine .bind_discard_consume (fun again readAgain => ?_) fun again readAgain => ?_
  · obtain rfl := read.unique readAgain
    exact named.1 ▸ rfl
  · obtain rfl := read.unique readAgain
    exact .bind_nameAt read not_not.mp (Echoes.requireStatementEnd.bind fun _ => .pure _)

theorem breakStatement_echo : Echo accord breakStatement breakStatement :=
  .spanned_sound (breakStatement_sound true) (fun _ => rfl)
    (.bind_discard_require rfl (jumpLabel_echo.bind fun _ => .pure _))

theorem continueStatement_echo : Echo accord continueStatement continueStatement :=
  .spanned_sound (continueStatement_sound true) (fun _ => rfl)
    (.bind_discard_require rfl (jumpLabel_echo.bind fun _ => .pure _))

/-- An operand stands on the line of its keyword, which is the same line in both runs. -/
theorem restrictedOperand_echo (echo : Rules.Echo accord rules twin) (inAllowed : Bool)
    : Echo accord (restrictedOperand rules inAllowed) (restrictedOperand twin inAllowed) :=
  .bind_peek fun _ _ =>
    .ite (fun _ => Echoes.requireStatementEnd.bind fun _ => .pure _) fun _ =>
      (expressionFrom_echo echo inAllowed 1).bind fun _ =>
        Echoes.requireStatementEnd.bind fun _ => .pure _

theorem returnStatement_echo (echo : Rules.Echo accord rules twin) (inAllowed : Bool)
    : Echo accord (returnStatement rules inAllowed) (returnStatement twin inAllowed) :=
  .spanned_sound (returnStatement_sound echo.sound inAllowed) (fun _ => rfl)
    (.bind_discard_require rfl
      ((restrictedOperand_echo echo inAllowed).bind fun _ => .pure _))

theorem throwStatement_echo (echo : Rules.Echo accord rules twin) (inAllowed : Bool)
    : Echo accord (throwStatement rules inAllowed) (throwStatement twin inAllowed) :=
  .spanned_sound (throwStatement_sound echo.sound inAllowed) (fun _ => rfl)
    (.bind_discard_require rfl
      ((restrictedOperand_echo echo inAllowed).bind fun _ => .pure _))

-----------------------------------------------------------------------------------------
-- Statements that contain statements
-----------------------------------------------------------------------------------------

theorem labelledStatement_echo (echo : Rules.Echo accord rules twin) (inAllowed : Bool)
    : Echo accord (labelledStatement rules inAllowed) (labelledStatement twin inAllowed) :=
  .spanned_sound (labelledStatement_sound echo.sound inAllowed) (fun _ => rfl)
    (Echoes.requireIdentifier.bind fun _ =>
      .bind_discard_require rfl ((echo.statement inAllowed).bind fun _ => .pure _))

theorem ifStatement_echo (echo : Rules.Echo accord rules twin) (inAllowed : Bool)
    : Echo accord (ifStatement rules inAllowed) (ifStatement twin inAllowed) :=
  .spanned_sound (ifStatement_sound echo.sound inAllowed) (fun _ => rfl)
    (.bind_discard_require rfl
      ((condition_echo echo inAllowed).bind fun _ =>
        (echo.statement inAllowed).bind fun _ =>
          .bind_accept rfl ((echo.statement inAllowed).bind fun _ => .pure _) (.pure _)))

/-- A keyword, a condition in parentheses and a statement, as `while` and `with` have them. -/
theorem guarded_echo (echo : Rules.Echo accord rules twin) (inAllowed : Bool) {keyword : Kind}
    (written : keyword.isWritten) {build : Span → Expr → Stmt → Stmt}
    : Echo accord
        (do
          discard (Parser.require keyword)
          let condition ← parenthesizedCondition rules inAllowed
          let body ← rules.statement inAllowed
          return fun span => build span condition body)
        (do
          discard (Parser.require keyword)
          let condition ← parenthesizedCondition twin inAllowed
          let body ← twin.statement inAllowed
          return fun span => build span condition body) :=
  .bind_discard_require written
    ((condition_echo echo inAllowed).bind fun _ =>
      (echo.statement inAllowed).bind fun _ => .pure _)

theorem whileStatement_echo (echo : Rules.Echo accord rules twin) (inAllowed : Bool)
    : Echo accord (whileStatement rules inAllowed) (whileStatement twin inAllowed) :=
  .spanned_sound (whileStatement_sound echo.sound inAllowed) (fun _ => rfl)
    (guarded_echo echo inAllowed rfl)

theorem withStatement_echo (echo : Rules.Echo accord rules twin) (inAllowed : Bool)
    : Echo accord (withStatement rules inAllowed) (withStatement twin inAllowed) :=
  .spanned_sound (withStatement_sound echo.sound inAllowed) (fun _ => rfl)
    (guarded_echo echo inAllowed rfl)

theorem doWhileStatement_echo (echo : Rules.Echo accord rules twin) (inAllowed : Bool)
    : Echo accord (doWhileStatement rules inAllowed) (doWhileStatement twin inAllowed) :=
  .spanned_sound (doWhileStatement_sound echo.sound inAllowed) (fun _ => rfl)
    (.bind_discard_require rfl
      ((echo.statement inAllowed).bind fun _ =>
        .bind_discard_require rfl
          ((condition_echo echo inAllowed).bind fun _ =>
            .bind_discard (.bind_accept rfl (.pure _) (.pure _)))))

theorem handler_echo (echo : Rules.Echo accord rules twin) (inAllowed : Bool)
    : Echo accord (handler rules inAllowed) (handler twin inAllowed) :=
  .spanned_sound (handler_sound echo.sound inAllowed) (fun _ => rfl)
    (.bind_discard_require rfl
      (Echoes.requireIdentifier.bind fun _ =>
        .bind_discard_require rfl ((block_echo echo inAllowed).bind fun _ => .pure _)))

/-- A `try` echoes; one that guards nothing is rejected in both runs. -/
theorem tryStatement_echo (echo : Rules.Echo accord rules twin) (inAllowed : Bool)
    : Echo accord (tryStatement rules inAllowed) (tryStatement twin inAllowed) :=
  .spanned_sound (tryStatement_sound echo.sound inAllowed) (fun _ => rfl)
    (.bind_require rfl fun keyword _ opens =>
      (block_echo echo inAllowed).bind fun _ =>
        .bind (.afterKeyword rfl (handler_echo echo inAllowed)) fun _ =>
          .bind (.afterKeyword rfl (block_echo echo inAllowed)) fun _ =>
            .ite (fun _ => .bind (.reject_other (by simp [Token.error, opens, Cause.isMisfit]))
              fun _ => .pure _) fun _ => .pure _)

theorem branchTest_echo (echo : Rules.Echo accord rules twin) (inAllowed : Bool)
    : Echo accord (branchTest rules inAllowed) (branchTest twin inAllowed) :=
  .bind_accept rfl ((expressionFrom_echo echo inAllowed 1).map some)
    (.bind_discard_require rfl (.pure _))

theorem branch_echo (echo : Rules.Echo accord rules twin) (inAllowed : Bool)
    : Echo accord (branch rules inAllowed) (branch twin inAllowed) :=
  .spanned_sound (branch_sound echo.sound inAllowed) (fun _ => rfl)
    ((branchTest_echo echo inAllowed).bind fun _ =>
      .bind_discard_require rfl
        (.bind (.repeatWhile (fun kind => !endsBranch kind) (echo.statement inAllowed))
          fun _ => .pure _))

/-- The branches of a `switch` echo up to the brace that closes it. -/
theorem switchStatement_echo (echo : Rules.Echo accord rules twin) (inAllowed : Bool)
    : Echo accord (switchStatement rules inAllowed) (switchStatement twin inAllowed) :=
  .spanned_sound (switchStatement_sound echo.sound inAllowed) (fun _ => rfl)
    (.bind_discard_require rfl
      ((condition_echo echo inAllowed).bind fun _ =>
        .bind_discard_require rfl
          (.bind (.repeatUntil .braceClose (branch_echo echo inAllowed)) fun _ =>
            .bind_discard_require rfl (.pure _))))

theorem functionDeclaration_echo (echo : Rules.Echo accord rules twin)
    : Echo accord (functionDeclaration rules) (functionDeclaration twin) :=
  .spanned_sound (functionDeclaration_sound echo.sound true) (fun _ => rfl)
    (.bind_discard_require rfl
      (Echoes.requireIdentifier.bind fun _ => (function_echo echo).bind fun _ => .pure _))

-----------------------------------------------------------------------------------------
-- Loops with a header
-----------------------------------------------------------------------------------------

/-- The first clause of a loop with three clauses is nothing, an expression or a declaration in both
runs.
-/
theorem forStart_echo (echo : Rules.Echo accord rules twin)
    : Echo accord (forStart rules) (forStart twin) := by
  refine .bind_peek fun _ _ => .ite (fun _ => ?_) fun _ => .ite (fun _ => .pure _) fun _ => ?_
  · exact (declaration_echo echo false .forHeader).map _
  · exact (expressionFrom_echo echo false 1).map _

theorem forClause_echo (echo : Rules.Echo accord rules twin) (inAllowed : Bool) {close : Kind}
    (written : close.isWritten)
    : Echo accord (forClause rules inAllowed close) (forClause twin inAllowed close) := by
  have closed (clause : Option Expr)
      : Echo accord
          (do
            discard (Parser.require close)
            return clause)
          (do
            discard (Parser.require close)
            return clause) :=
    .bind_discard_require written (.pure _)
  intro lost offset
  refine .bind_peek fun next read => .ite (fun _ => ?_) fun _ => ?_
  · exact (Echoes.pure none).bind closed
  · exact ((expressionFrom_echo echo inAllowed 1).map some).bind closed

/-- What comes behind the first clause of a loop with three clauses. -/
theorem forLoopRest_echo (echo : Rules.Echo accord rules twin) (inAllowed : Bool) (start : ForStart)
    : Echo accord
        (do
          discard (Parser.require .semicolon)
          let condition ← forClause rules inAllowed .semicolon
          let update ← forClause rules inAllowed .parenthesisClose
          let body ← rules.statement inAllowed
          return fun span => Stmt.forLoop span start condition update body)
        (do
          discard (Parser.require .semicolon)
          let condition ← forClause twin inAllowed .semicolon
          let update ← forClause twin inAllowed .parenthesisClose
          let body ← twin.statement inAllowed
          return fun span => Stmt.forLoop span start condition update body) :=
  .bind_discard_require rfl
    ((forClause_echo echo inAllowed rfl).bind fun _ =>
      (forClause_echo echo inAllowed rfl).bind fun _ =>
        (echo.statement inAllowed).bind fun _ => .pure _)

theorem forLoopStatement_echo (echo : Rules.Echo accord rules twin) (inAllowed : Bool)
    : Echo accord (forLoopStatement rules inAllowed) (forLoopStatement twin inAllowed) :=
  .spanned_sound (forLoopStatement_sound echo.sound inAllowed) (fun _ => rfl)
    (.bind_discard_require rfl
      (.bind_discard_require rfl
        ((forStart_echo echo).bind (forLoopRest_echo echo inAllowed))))

theorem forInTarget_echo (echo : Rules.Echo accord rules twin)
    : Echo accord (forInTarget rules) (forInTarget twin) :=
  .bind_peek fun _ _ =>
    .ite
      (fun _ => (declaration_echo echo false .forHeader).bind fun _ =>
        .ite (fun _ => .pure _) fun _ => .reject_other fun _ => rfl)
      fun _ => (expressionFrom_echo echo false 1).bind fun target =>
        (requireTarget_echo target).bind fun _ => .pure _

/-- What comes behind the target of a loop over the names of properties. -/
theorem forInRest_echo (echo : Rules.Echo accord rules twin) (inAllowed : Bool)
    (target : ForInTarget)
    : Echo accord
        (do
          discard (Parser.require .keywordIn)
          let object ← expression rules inAllowed
          discard (Parser.require .parenthesisClose)
          let body ← rules.statement inAllowed
          return fun span => Stmt.forIn span target object body)
        (do
          discard (Parser.require .keywordIn)
          let object ← expression twin inAllowed
          discard (Parser.require .parenthesisClose)
          let body ← twin.statement inAllowed
          return fun span => Stmt.forIn span target object body) :=
  .bind_discard_require rfl
    ((expressionFrom_echo echo inAllowed 1).bind fun _ =>
      .bind_discard_require rfl ((echo.statement inAllowed).bind fun _ => .pure _))

/-- A loop over the names of properties echoes where its header has a first clause. -/
theorem forInStatement_echoes (echo : Rules.Echo accord rules twin) (inAllowed : Bool)
    (present : ¬LacksFirstClause script offset)
    : Echoes accord lost (forInStatement rules inAllowed) (forInStatement twin inAllowed) offset :=
  .spanned (forInStatement_ensures echo.sound inAllowed present)
    (fun _ _ derivation => derivation.ne_nil rfl)
    (.bind_discard_require rfl
      (.bind_discard_require rfl
        ((forInTarget_echo echo).bind (forInRest_echo echo inAllowed))))

/-- The question which kind of loop a header is of has one answer in both runs. -/
theorem forHeaderHasIn_echo (echo : Rules.Echo accord rules twin)
    : Echo accord (forHeaderHasIn rules) (forHeaderHasIn twin) :=
  .bind_discard_require rfl
    (.bind_discard_require rfl
      (.bind_peek fun _ _ =>
        .ite (fun _ => .pure _) fun _ =>
          .ite
            (fun _ => .bind_discard ((declaration_echo echo false .forHeader).bind fun _ =>
              .bind_peek fun _ _ => .pure _))
            fun _ => .bind_discard ((expressionFrom_echo echo false 1).bind fun _ =>
              .bind_peek fun _ _ => .pure _)))

/-- The first clause leaves the common part with what it consists of. -/
theorem forStart_leaves {first : Token} (read : script.Reads .standard offset first)
    (present : first.kind ≠ .semicolon)
    (declares
      : opensDeclaration first.kind → Leaves accord (declaration rules false .forHeader) offset)
    (plain : ¬opensDeclaration first.kind → Leaves accord (expression rules false) offset)
    : Leaves accord (forStart rules) offset := by
  refine .bind_runs (.peek read) ?_
  dsimp only
  split_ifs with opens
  · exact (declares opens).map _
  · exact (plain opens).map _

/-- The target of a loop over the names of properties leaves the common part with what it consists of. -/
theorem forInTarget_leaves {first : Token} (read : script.Reads .standard offset first)
    (declares
      : opensDeclaration first.kind → Leaves accord (declaration rules false .forHeader) offset)
    (plain : ¬opensDeclaration first.kind → Leaves accord (expression rules false) offset)
    : Leaves accord (forInTarget rules) offset := by
  refine .bind_runs (.peek read) ?_
  split
  next opens =>
    exact (declares opens).bind fun _ =>
      .ite (fun _ => .pure _) fun _ => .reject_other fun _ => rfl
  next other =>
    exact (plain other).bind fun target => (requireTarget_echo target).bind fun _ => .pure _

/-- If a header that is gone back over leaves the common part, its first clause does so again. -/
theorem forHeaderHasIn_leaves (steady : Rules.Echo (.self script) rules rules)
    (echo : Rules.Echo accord rules twin) (offset : Nat)
    : Ensures script (forHeaderHasIn rules) offset fun _ tokens =>
        accord.Past (Token.endOf offset tokens) →
        ∃ keyword bracket,
          script.Reads .standard offset keyword
          ∧ keyword.kind = .keywordFor
          ∧ script.Reads .standard keyword.span.stop bracket
          ∧ bracket.kind = .parenthesisOpen
          ∧ Leaves accord (forStart rules) bracket.span.stop
          ∧ Leaves accord (forInTarget rules) bracket.span.stop := by
  refine .bind_discard_require fun keyword read opens => ?_
  refine .bind_discard_require fun bracket readBracket parenthesis => ?_
  refine .bind_peek fun first readFirst => ?_
  dsimp only
  split
  next noClause =>
    refine .pure fun past => ?_
    exact ⟨keyword, bracket, read, opens, readBracket, parenthesis,
      .of_past past trivial (forStart_echo echo), .of_past past trivial (forInTarget_echo echo)⟩
  next present =>
    split
    next declares =>
      refine .bind_discard (Repeats.of_echo (declaration_echo steady false .forHeader)) ?_
      refine fun _ tokens repeats => .bind_peek fun next _ => .pure fun past => ?_
      have leaves : Leaves accord (declaration rules false .forHeader) bracket.span.stop :=
        .of_repeats repeats (by simpa using past)
      exact ⟨keyword, bracket, read, opens, readBracket, parenthesis,
        forStart_leaves readFirst present (fun _ => leaves) (absurd declares),
        forInTarget_leaves readFirst (fun _ => leaves) (absurd declares)⟩
    next other =>
      refine .bind_discard (Repeats.of_echo (expressionFrom_echo steady false 1)) ?_
      refine fun _ tokens repeats => .bind_peek fun next _ => .pure fun past => ?_
      have leaves : Leaves accord (expression rules false) bracket.span.stop :=
        .of_repeats repeats (by simpa using past)
      exact ⟨keyword, bracket, read, opens, readBracket, parenthesis,
        forStart_leaves readFirst present (absurd · other) (fun _ => leaves),
        forInTarget_leaves readFirst (absurd · other) (fun _ => leaves)⟩

/-- The header that is read twice is the same in both runs, or leaves the common part twice. -/
theorem forStatement_echo (steady : Rules.Echo (.self script) rules rules)
    (echo : Rules.Echo accord rules twin) (inAllowed : Bool)
    : Echo accord (forStatement rules inAllowed) (forStatement twin inAllowed) := by
  intro lost offset
  refine .lookahead (forHeaderHasIn_echo echo)
    ((forHeaderHasIn_ensures echo.sound offset).and (forHeaderHasIn_leaves steady echo offset))
    (fun hasIn _ found => ?_) fun hasIn tokens found past => ?_
  · exact .ite (fun holds => forInStatement_echoes echo inAllowed (found.1 holds))
      fun _ => forLoopStatement_echo echo inAllowed
  · obtain ⟨keyword, bracket, read, opens, readBracket, parenthesis, start, target⟩ :=
      found.2 past
    have header {next : PUnit → Parser (Span → Stmt)}
        (leaves : Leaves accord (next ⟨⟩) bracket.span.stop)
        : Leaves accord
            (spanned
              (discard (Parser.require .keywordFor) >>= fun _ =>
                discard (Parser.require .parenthesisOpen) >>= next))
            offset :=
      .spanned
        (.bind_runs (.discard (.require read opens))
          (.bind_runs (.discard (.require readBracket parenthesis)) leaves))
    split
    · exact header (target.bind (forInRest_echo echo inAllowed))
    · exact header (start.bind (forLoopRest_echo echo inAllowed))

-----------------------------------------------------------------------------------------
-- All statements
-----------------------------------------------------------------------------------------

/-- A label leaves the common part if what follows it does. -/
theorem labelledStatement_leaves (echo : Rules.Echo accord rules twin) (inAllowed : Bool)
    {label : Token} (read : script.Reads .standard offset label)
    (named : label.kind = .identifier) (past : accord.Past label.span.stop)
    : Leaves accord (labelledStatement rules inAllowed) offset := by
  have name : Runs script Parser.requireIdentifier offset [label] (script.nameOf label) := by
    rw [← bind_pure Parser.requireIdentifier]
    exact .bind_requireIdentifier read named (.pure _)
  have rest
      : Echo accord
          (do
            discard (Parser.require .colon)
            let statement ← rules.statement inAllowed
            return fun span => Stmt.labelled span (script.nameOf label) statement)
          (do
            discard (Parser.require .colon)
            let statement ← twin.statement inAllowed
            return fun span => Stmt.labelled span (script.nameOf label) statement) :=
    .bind_discard_require rfl ((echo.statement inAllowed).bind fun _ => .pure _)
  exact .spanned (.bind_runs name (.of_past past trivial rest))

/-- An expression that begins with a name leaves the common part with the token behind the name. -/
theorem expressionStatement_leaves (echo : Rules.Echo accord rules twin) (inAllowed : Bool)
    {token : Token} (read : script.Reads .standard offset token)
    (named : token.kind = .identifier) (past : accord.Past token.span.stop)
    : Leaves accord (expressionStatement rules inAllowed) offset :=
  .spanned ((expressionFrom_leaves echo inAllowed 1 read named past).bind fun _ =>
    Echoes.requireStatementEnd.bind fun _ => .pure _)

/-- Every statement echoes, by cases on what its first two tokens select. -/
theorem statement_echo (steady : Rules.Echo (.self script) rules rules)
    (echo : Rules.Echo accord rules twin) (inAllowed : Bool)
    : Echo accord (statement rules inAllowed) (statement twin inAllowed) := by
  intro lost offset
  simp only [statement_eq_bind_selected]
  refine .bind_peekMany_two (fun first second readFirst readSecond => ?_)
    (fun first second another other => ?_) fun first second readFirst readSecond named left => ?_
  · obtain ⟨parser, selects⟩ := Selects.exists first.kind second.kind
    rw [selects.selected_eq, selects.selected_eq]
    cases selects with
    | opened opens =>
        cases opens with
        | block => exact (block_echo echo inAllowed).map _
        | breakTo => exact breakStatement_echo
        | declaration => exact (declaration_echo echo inAllowed .statement).map _
        | continueTo => exact continueStatement_echo
        | debugger => exact debuggerStatement_echo
        | doWhile => exact doWhileStatement_echo echo inAllowed
        | forLoop => exact forStatement_echo steady echo inAllowed
        | function => exact functionDeclaration_echo echo
        | ifElse => exact ifStatement_echo echo inAllowed
        | returnValue => exact returnStatement_echo echo inAllowed
        | switch => exact switchStatement_echo echo inAllowed
        | throwValue => exact throwStatement_echo echo inAllowed
        | tryBlock => exact tryStatement_echo echo inAllowed
        | whileLoop => exact whileStatement_echo echo inAllowed
        | withObject => exact withStatement_echo echo inAllowed
        | empty => exact emptyStatement_echo
    | labelled => exact labelledStatement_echo echo inAllowed
    | expression plain noLabel =>
        exact expressionStatement_echoes echo inAllowed readFirst readSecond plain noLabel
  · -- Only an identifier leaves it to the second token what the statement is.
    obtain ⟨parser, selects⟩ := Selects.exists first.kind second.kind
    rw [selects.selected_eq, (selects.of_unnamed other another.kind).selected_eq]
  · have past := Accord.past_of_reads readSecond left
    obtain ⟨parser, selects⟩ := Selects.exists first.kind second.kind
    rw [selects.selected_eq]
    cases selects with
    | opened opens => exact absurd named opens.ne_identifier
    | labelled => exact labelledStatement_leaves echo inAllowed readFirst named past
    | expression => exact expressionStatement_leaves echo inAllowed readFirst named past

end EcmaSyntax.Grammar
