import EcmaSyntax.Proofs.Grammar.Settling.Expression
import EcmaSyntax.Proofs.Grammar.Soundness.Statement

/-! The productions of statements settle the text, given that the rules of the level below do so wherever less
of the text is left.
-/

namespace EcmaSyntax.Grammar

open EcmaSyntax.Parser

variable {script : Script} {size offset : Nat} {rules twin : Rules}

-----------------------------------------------------------------------------------------
-- Parts of statements
-----------------------------------------------------------------------------------------

/-- A condition settles what is left: the parenthesis in front of it leaves less. -/
theorem condition_settles (settles : Rules.Settles script size rules twin)
    (fits : script.left offset ≤ size) (inAllowed : Bool)
    : Settles script (parenthesizedCondition rules inAllowed)
        (parenthesizedCondition twin inAllowed) offset := by
  refine .bind_discard_require (by decide) fun parenthesis read opens shorter => ?_
  exact (expressionFrom_settles settles (by omega) inAllowed 1).bind_last
    fun _ _ => .bind_discard_require (by decide) fun _ _ _ _ => .pure _

/-- A block settles what is left, statement by statement. -/
theorem block_settles (settles : Rules.Settles script size rules twin)
    (fits : script.left offset ≤ size) (inAllowed : Bool)
    : Settles script (block rules inAllowed) (block twin inAllowed) offset := by
  refine .spanned_sound (block_sound settles.sound inAllowed) (fun _ => rfl) ?_
  refine .bind_discard_require (by decide) fun brace read opens shorter => ?_
  have statements := Settles.repeatUntil (settles.sound.statement inAllowed) (fun _ => rfl) .braceClose
    fun place (within : script.left place ≤ script.left brace.span.stop) =>
      settles.statement inAllowed (by omega)
  exact statements.bind_last fun _ _ => .bind_discard_require (by decide) fun _ _ _ _ => .pure _

-----------------------------------------------------------------------------------------
-- Declarations
-----------------------------------------------------------------------------------------

/-- A declaration is read only where one begins. -/
theorem bind_declarationMode_settles {α : Type} {next twinNext : DeclarationMode → Parser α}
    {first : Token} (read : script.Reads .standard offset first)
    (opens : opensDeclaration first.kind)
    (onward : ∀ mode, Settles script (next mode) (twinNext mode) first.span.stop)
    : Settles script (declarationMode >>= next) (declarationMode >>= twinNext) offset := by
  unfold declarationMode
  rw [bind_assoc, bind_assoc]
  refine .bind_consume fun token met => ?_
  obtain rfl := read.unique met.read
  rw [bind_assoc, bind_assoc]
  refine .bind_checkReserved met fun _ => ?_
  split
  next => exact onward .constants
  next noConst =>
    split
    next => exact onward .vars
    next noVar => simp [opensDeclaration, noConst, noVar] at opens

theorem initializer_settles (settles : Rules.Settles script size rules twin)
    (fits : script.left offset ≤ size) (inAllowed : Bool)
    : Settles script (initializer rules inAllowed) (initializer twin inAllowed) offset := by
  refine .spanned_sound (initializer_sound settles.sound inAllowed) (fun _ => rfl) ?_
  exact (expressionFrom_settles settles fits inAllowed _).bind_last fun _ _ => .pure _

theorem declarator_settles (settles : Rules.Settles script size rules twin)
    (fits : script.left offset ≤ size) (inAllowed : Bool)
    : Settles script (declarator rules inAllowed) (declarator twin inAllowed) offset := by
  refine .bind_requireIdentifier fun token read named shorter => ?_
  refine .bind_accept (fun equals readEquals assigns => ?_) fun _ _ _ => .pure _
  have further := readEquals.left_le
  exact (initializer_settles settles (by omega) inAllowed).bind_last fun _ _ => .pure _

/-- Declarators settle what is left, by induction on the bounds, since commas lead further. -/
theorem declarators_settles (settles : Rules.Settles script size rules twin) (inAllowed : Bool)
    {bound limit : Nat} (fits : script.left offset ≤ size) (enough : script.left offset < bound)
    (room : script.left offset < limit)
    : Settles script (declarators rules inAllowed bound) (declarators twin inAllowed limit)
        offset := by
  induction bound generalizing offset limit with
  | zero => exact absurd enough (Nat.not_lt_zero _)
  | succ bound ih =>
      obtain ⟨limit, rfl⟩ := Nat.exists_eq_add_one_of_ne_zero (Nat.ne_zero_of_lt room)
      refine (declarator_settles settles fits inAllowed).bind
        (declarator_sound settles.sound inAllowed _) fun first tokens derivation => ?_
      have shorter := derivation.left_lt rfl
      refine .bind_accept (fun comma read isComma => ?_) fun _ _ _ => .pure _
      have further := read.left_le
      exact (ih (by omega) (by omega) (by omega)).bind_last fun _ _ => .pure _

/-- A declaration settles what is left where one of its keywords is known to stand. -/
theorem declaration_settles (settles : Rules.Settles script size rules twin)
    (fits : script.left offset ≤ size) (inAllowed : Bool) (place : DeclarationPlace) {first : Token}
    (read : script.Reads .standard offset first) (opens : opensDeclaration first.kind)
    : Settles script (declaration rules inAllowed place) (declaration twin inAllowed place)
        offset := by
  refine .spanned_sound (declaration_sound settles.sound inAllowed place) (fun _ => rfl) ?_
  refine bind_declarationMode_settles read opens fun mode => .bind_repetitions
    fun bound enough limit room => ?_
  have shorter := read.left_le
  have left_le := script.left_le first.span.stop
  refine (declarators_settles settles inAllowed (by omega) (by omega) (by omega)).bind_last
    fun declarators _ => ?_
  exact .ite (fun _ => Settles.requireStatementEnd.bind_last fun _ _ => .pure _) fun _ => .pure _

-----------------------------------------------------------------------------------------
-- Simple statements
-----------------------------------------------------------------------------------------

theorem emptyStatement_settles : Settles script emptyStatement emptyStatement offset :=
  .spanned_sound (emptyStatement_sound true) (fun _ => rfl)
    (.bind_discard_require (by decide) fun _ _ _ _ => .pure _)

theorem debuggerStatement_settles
    : Settles script debuggerStatement debuggerStatement offset :=
  .spanned_sound (debuggerStatement_sound true) (fun _ => rfl)
    (.bind_discard_require (by decide) fun _ _ _ _ =>
      Settles.requireStatementEnd.bind_last fun _ _ => .pure _)

/-- An expression settles what is left where no other statement and no label begins. -/
theorem expressionStatement_settles (settles : Rules.Settles script size rules twin)
    (fits : script.left offset ≤ size) (inAllowed : Bool) {first second : Token}
    (readFirst : script.Reads .standard offset first)
    (readSecond : script.Reads .standard first.span.stop second)
    (plain : opensStatement first.kind = false)
    (noLabel : first.kind = .identifier → second.kind ≠ .colon)
    : Settles script (expressionStatement rules inAllowed) (expressionStatement twin inAllowed)
        offset := by
  refine .spanned
    (expressionStatement_sound settles.sound inAllowed readFirst readSecond plain noLabel)
    (fun _ _ derivation => derivation.ne_nil rfl) ?_
  exact (expressionFrom_settles settles fits inAllowed 1).bind_last
    fun _ _ => Settles.requireStatementEnd.bind_last fun _ _ => .pure _

/-- A label is read on the line of its keyword, or the statement ends, or a token is blamed. -/
theorem jumpLabel_settles : Settles script jumpLabel jumpLabel offset := by
  refine .bind_peek fun token met => .ite (fun _ => ?_) fun _ => ?_
  · exact .bind_discard_consume fun again _ =>
      .bind_nameAt met.read (Settles.requireStatementEnd.bind_last fun _ _ => .pure _)
  · exact Settles.requireStatementEnd.bind_last fun _ _ => .pure _

theorem breakStatement_settles : Settles script breakStatement breakStatement offset :=
  .spanned_sound (breakStatement_sound true) (fun _ => rfl)
    (.bind_discard_require (by decide) fun _ _ _ _ =>
      jumpLabel_settles.bind_last fun _ _ => .pure _)

theorem continueStatement_settles
    : Settles script continueStatement continueStatement offset :=
  .spanned_sound (continueStatement_sound true) (fun _ => rfl)
    (.bind_discard_require (by decide) fun _ _ _ _ =>
      jumpLabel_settles.bind_last fun _ _ => .pure _)

/-- An operand settles what is left on the line of its keyword. -/
theorem restrictedOperand_settles (settles : Rules.Settles script size rules twin)
    (fits : script.left offset ≤ size) (inAllowed : Bool)
    : Settles script (restrictedOperand rules inAllowed) (restrictedOperand twin inAllowed)
        offset := by
  refine .bind_peek fun next met => .ite (fun _ => ?_) fun _ => ?_
  · exact Settles.requireStatementEnd.bind_last fun _ _ => .pure _
  · exact (expressionFrom_settles settles fits inAllowed 1).bind_last
      fun _ _ => Settles.requireStatementEnd.bind_last fun _ _ => .pure _

theorem returnStatement_settles (settles : Rules.Settles script size rules twin)
    (fits : script.left offset ≤ size) (inAllowed : Bool)
    : Settles script (returnStatement rules inAllowed) (returnStatement twin inAllowed) offset := by
  refine .spanned_sound (returnStatement_sound settles.sound inAllowed) (fun _ => rfl) ?_
  refine .bind_discard_require (by decide) fun keyword read opens shorter => ?_
  exact (restrictedOperand_settles settles (by omega) inAllowed).bind_last fun _ _ => .pure _

theorem throwStatement_settles (settles : Rules.Settles script size rules twin)
    (fits : script.left offset ≤ size) (inAllowed : Bool)
    : Settles script (throwStatement rules inAllowed) (throwStatement twin inAllowed) offset := by
  refine .spanned_sound (throwStatement_sound settles.sound inAllowed) (fun _ => rfl) ?_
  refine .bind_discard_require (by decide) fun keyword read opens shorter => ?_
  exact (restrictedOperand_settles settles (by omega) inAllowed).bind_last fun _ _ => .pure _

-----------------------------------------------------------------------------------------
-- Statements that contain statements
-----------------------------------------------------------------------------------------

/-- The statement behind a label has less text left than the label. -/
theorem labelledStatement_settles (settles : Rules.Settles script size rules twin)
    (fits : script.left offset ≤ size) (inAllowed : Bool)
    : Settles script (labelledStatement rules inAllowed) (labelledStatement twin inAllowed)
        offset := by
  refine .spanned_sound (labelledStatement_sound settles.sound inAllowed) (fun _ => rfl) ?_
  refine .bind_requireIdentifier fun token read named shorter => ?_
  refine .bind_discard_require (by decide) fun colon readColon divides further => ?_
  exact (settles.statement inAllowed (by omega)).bind_last fun _ _ => .pure _

/-- Both branches of an `if` have less text left than its keyword. -/
theorem ifStatement_settles (settles : Rules.Settles script size rules twin)
    (fits : script.left offset ≤ size) (inAllowed : Bool)
    : Settles script (ifStatement rules inAllowed) (ifStatement twin inAllowed) offset := by
  refine .spanned_sound (ifStatement_sound settles.sound inAllowed) (fun _ => rfl) ?_
  refine .bind_discard_require (by decide) fun keyword read opens shorter => ?_
  refine (condition_settles settles (by omega) inAllowed).bind
    (condition_sound settles.sound inAllowed _) fun test front tested => ?_
  have further := tested.left_le
  refine (settles.statement inAllowed (by omega)).bind (settles.sound.statement inAllowed _)
    fun consequent middle derivation => ?_
  have furthest := derivation.left_le
  refine .bind_accept (fun elseWord readElse otherwise => ?_) fun _ _ _ => .pure _
  have last := readElse.left_le
  exact (settles.statement inAllowed (by omega)).bind_last fun _ _ => .pure _

/-- A keyword, a condition in parentheses and a statement, as `while` and `with` have them. -/
theorem guarded_settles (settles : Rules.Settles script size rules twin)
    (fits : script.left offset ≤ size) (inAllowed : Bool) {keyword : Kind}
    (present : keyword ≠ .endOfInput) {build : Span → Expr → Stmt → Stmt}
    : Settles script
        (do
          discard (Parser.require keyword)
          let condition ← parenthesizedCondition rules inAllowed
          let body ← rules.statement inAllowed
          return fun span => build span condition body)
        (do
          discard (Parser.require keyword)
          let condition ← parenthesizedCondition twin inAllowed
          let body ← twin.statement inAllowed
          return fun span => build span condition body)
        offset := by
  refine .bind_discard_require present fun keyword read opens shorter => ?_
  refine (condition_settles settles (by omega) inAllowed).bind
    (condition_sound settles.sound inAllowed _) fun condition front tested => ?_
  have further := tested.left_le
  exact (settles.statement inAllowed (by omega)).bind_last fun _ _ => .pure _

theorem whileStatement_settles (settles : Rules.Settles script size rules twin)
    (fits : script.left offset ≤ size) (inAllowed : Bool)
    : Settles script (whileStatement rules inAllowed) (whileStatement twin inAllowed) offset :=
  .spanned_sound (whileStatement_sound settles.sound inAllowed) (fun _ => rfl)
    (guarded_settles settles fits inAllowed (by decide))

theorem withStatement_settles (settles : Rules.Settles script size rules twin)
    (fits : script.left offset ≤ size) (inAllowed : Bool)
    : Settles script (withStatement rules inAllowed) (withStatement twin inAllowed) offset :=
  .spanned_sound (withStatement_sound settles.sound inAllowed) (fun _ => rfl)
    (guarded_settles settles fits inAllowed (by decide))

/-- The body of a `do` and its condition have less text left than its keyword. -/
theorem doWhileStatement_settles (settles : Rules.Settles script size rules twin)
    (fits : script.left offset ≤ size) (inAllowed : Bool)
    : Settles script (doWhileStatement rules inAllowed) (doWhileStatement twin inAllowed)
        offset := by
  refine .spanned_sound (doWhileStatement_sound settles.sound inAllowed) (fun _ => rfl) ?_
  refine .bind_discard_require (by decide) fun keyword read opens shorter => ?_
  refine (settles.statement inAllowed (by omega)).bind (settles.sound.statement inAllowed _)
    fun body front derivation => ?_
  have further := derivation.left_le
  refine .bind_discard_require (by decide) fun whileWord readWhile loops furthest => ?_
  exact (condition_settles settles (by omega) inAllowed).bind_last
    fun _ _ => .bind_discard_accept (fun _ _ _ => .pure _) fun _ _ _ => .pure _

theorem handler_settles (settles : Rules.Settles script size rules twin)
    (fits : script.left offset ≤ size) (inAllowed : Bool)
    : Settles script (handler rules inAllowed) (handler twin inAllowed) offset := by
  refine .spanned_sound (handler_sound settles.sound inAllowed) (fun _ => rfl) ?_
  refine .bind_discard_require (by decide) fun parenthesis read opens shorter => ?_
  refine .bind_requireIdentifier fun token readToken named further => ?_
  refine .bind_discard_require (by decide) fun close readClose closes furthest => ?_
  exact (block_settles settles (by omega) inAllowed).bind_last fun _ _ => .pure _

/-- A `try` without anything behind its block is blamed. -/
theorem tryStatement_settles (settles : Rules.Settles script size rules twin)
    (fits : script.left offset ≤ size) (inAllowed : Bool)
    : Settles script (tryStatement rules inAllowed) (tryStatement twin inAllowed) offset := by
  refine .spanned_sound (tryStatement_sound settles.sound inAllowed) (fun _ => rfl) ?_
  refine .of_reached fun reached => ?_
  refine .bind_require (by decide) fun keyword read opens shorter => ?_
  refine (block_settles settles (by omega) inAllowed).bind (block_sound settles.sound inAllowed _)
    fun inner front derivation => ?_
  have further := derivation.left_le
  refine (Settles.afterKeyword (fun place within => handler_settles settles (by omega) inAllowed)
    (by decide)).bind ((handler_sound settles.sound inAllowed).afterKeyword (by decide) _)
    fun handler middle handled => ?_
  have furthest := handled.left_le
  refine (Settles.afterKeyword (fun place within => block_settles settles (by omega) inAllowed)
    (by decide)).bind_last fun finalizer _ => .ite (fun _ => ?_) fun _ => .pure _
  have grammatical : Cause.tryStatementHasNoCatchOrFinally.kind = .grammatical := rfl
  have blames := Script.Blames.token ⟨read, reached⟩ grammatical (by simp [opens])
  exact (Settles.reject blames).bind .reject fun _ _ (impossible : False) => impossible.elim

theorem branchTest_settles (settles : Rules.Settles script size rules twin)
    (fits : script.left offset ≤ size) (inAllowed : Bool)
    : Settles script (branchTest rules inAllowed) (branchTest twin inAllowed) offset := by
  refine .bind_accept (fun keyword read opens => ?_) fun _ _ _ => ?_
  · have shorter := read.left_le
    exact (expressionFrom_settles settles (by omega) inAllowed 1).map some
  · exact .bind_discard_require (by decide) fun _ _ _ _ => .pure none

theorem branch_settles (settles : Rules.Settles script size rules twin)
    (fits : script.left offset ≤ size) (inAllowed : Bool)
    : Settles script (branch rules inAllowed) (branch twin inAllowed) offset := by
  refine .spanned_sound (branch_sound settles.sound inAllowed) (fun _ => rfl) ?_
  refine (branchTest_settles settles fits inAllowed).bind (branchTest_sound settles.sound inAllowed _)
    fun test front derivation => ?_
  have shorter := derivation.left_le
  refine .bind_discard_require (by decide) fun colon read divides further => ?_
  have body := Settles.repeatWhile (settles.sound.statement inAllowed) (fun _ => rfl)
    (fun kind => !endsBranch kind) fun place (within : script.left place ≤ script.left colon.span.stop) =>
      settles.statement inAllowed (by omega)
  exact body.bind_last fun _ _ => .pure _

/-- The branches of a `switch` settle what is left behind its brace. -/
theorem switchStatement_settles (settles : Rules.Settles script size rules twin)
    (fits : script.left offset ≤ size) (inAllowed : Bool)
    : Settles script (switchStatement rules inAllowed) (switchStatement twin inAllowed) offset := by
  refine .spanned_sound (switchStatement_sound settles.sound inAllowed) (fun _ => rfl) ?_
  refine .bind_discard_require (by decide) fun keyword read opens shorter => ?_
  refine (condition_settles settles (by omega) inAllowed).bind
    (condition_sound settles.sound inAllowed _) fun test front tested => ?_
  have further := tested.left_le
  refine .bind_discard_require (by decide) fun brace readBrace encloses furthest => ?_
  have branches := Settles.repeatUntil (branch_sound settles.sound inAllowed) (fun _ => rfl) .braceClose
    fun place (within : script.left place ≤ script.left brace.span.stop) =>
      branch_settles settles (by omega) inAllowed
  exact branches.bind_last fun _ _ => .bind_discard_require (by decide) fun _ _ _ _ => .pure _

theorem functionDeclaration_settles (settles : Rules.Settles script size rules twin)
    (fits : script.left offset ≤ size)
    : Settles script (functionDeclaration rules) (functionDeclaration twin) offset := by
  refine .spanned_sound (functionDeclaration_sound settles.sound true) (fun _ => rfl) ?_
  refine .bind_discard_require (by decide) fun keyword read opens shorter => ?_
  refine .bind_requireIdentifier fun token readToken named further => ?_
  exact (function_settles settles (by omega)).bind_last fun _ _ => .pure _

-----------------------------------------------------------------------------------------
-- Loops with a header
-----------------------------------------------------------------------------------------

/-- The first clause of a loop settles what is left, whatever it is. -/
theorem forStart_settles (settles : Rules.Settles script size rules twin)
    (fits : script.left offset ≤ size)
    : Settles script (forStart rules) (forStart twin) offset := by
  refine .bind_peek fun first met => .ite (fun opens => ?_) fun _ => .ite (fun _ => .pure _) fun _ => ?_
  · exact (declaration_settles settles fits false .forHeader met.read opens).map _
  · exact (expressionFrom_settles settles fits false 1).map _

/-- A clause of a loop settles what is left up to the token that closes it. -/
theorem forClause_settles (settles : Rules.Settles script size rules twin)
    (fits : script.left offset ≤ size) (inAllowed : Bool) {close : Kind}
    (present : close ≠ .endOfInput)
    : Settles script (forClause rules inAllowed close) (forClause twin inAllowed close) offset := by
  refine .bind_peek fun next met => .ite (fun _ => ?_) fun _ => ?_
  · exact .bind_discard_require present fun _ _ _ _ => .pure none
  · rw [bind_map_left, bind_map_left]
    exact (expressionFrom_settles settles fits inAllowed 1).bind_last
      fun _ _ => .bind_discard_require present fun _ _ _ _ => .pure _

theorem forLoopStatement_settles (settles : Rules.Settles script size rules twin)
    (fits : script.left offset ≤ size) (inAllowed : Bool)
    : Settles script (forLoopStatement rules inAllowed) (forLoopStatement twin inAllowed)
        offset := by
  refine .spanned_sound (forLoopStatement_sound settles.sound inAllowed) (fun _ => rfl) ?_
  refine .bind_discard_require (by decide) fun keyword read opens shorter => ?_
  refine .bind_discard_require (by decide) fun bracket readBracket parenthesis within => ?_
  refine (forStart_settles settles (by omega)).bind (forStart_sound settles.sound _)
    fun start front started => ?_
  have left_start := started.left_le
  refine .bind_discard_require (by decide) fun semicolon readSemicolon divides further => ?_
  refine (forClause_settles settles (by omega) inAllowed (by decide)).bind
    (forClause_sound settles.sound inAllowed (by decide) _) fun condition middle tested => ?_
  have left_condition := tested.left_le
  refine (forClause_settles settles (by omega) inAllowed (by decide)).bind
    (forClause_sound settles.sound inAllowed (by decide) _) fun update last updated => ?_
  have left_update := updated.left_le
  exact (settles.statement inAllowed (by omega)).bind_last fun _ _ => .pure _

/-- A target with several declarators or without a place to assign to is blamed. -/
theorem forInTarget_settles (settles : Rules.Settles script size rules twin)
    (fits : script.left offset ≤ size)
    : Settles script (forInTarget rules) (forInTarget twin) offset := by
  refine .bind_peek fun first met => .ite (fun opens => ?_) fun _ => ?_
  · refine (declaration_settles settles fits false .forHeader met.read opens).bind
      (declaration_sound settles.sound false .forHeader _) fun declaration tokens derivation => ?_
    exact .ite (fun _ => .pure _) fun _ => .reject (.phrase derivation.spans rfl nofun)
  · refine (expressionFrom_settles settles fits false 1).bind
      (expressionFrom_sound settles.sound false 1 _) fun target tokens derivation => ?_
    exact bind_requireTarget_settles derivation.spans (.pure _)

/-- A loop over the names of properties settles what is left where its header has a first clause. -/
theorem forInStatement_settles (settles : Rules.Settles script size rules twin)
    (fits : script.left offset ≤ size) (inAllowed : Bool)
    (present : ¬LacksFirstClause script offset)
    : Settles script (forInStatement rules inAllowed) (forInStatement twin inAllowed) offset := by
  refine .spanned (forInStatement_ensures settles.sound inAllowed present)
    (fun _ _ derivation => derivation.ne_nil rfl) ?_
  refine .bind_discard_require (by decide) fun keyword read opens shorter => ?_
  refine .bind_discard_require (by decide) fun bracket readBracket parenthesis within => ?_
  obtain ⟨first, readFirst⟩ := Token.exists_read? .standard (Token.isBoundary_stop readBracket)
  have filled (missing : first.kind = .semicolon) : False :=
    present ⟨keyword, bracket, first, read, readBracket, readFirst, missing⟩
  refine (forInTarget_settles settles (by omega)).bind
    (forInTarget_ensures settles.sound readFirst filled) fun target front derivation => ?_
  have left_target := derivation.left_le
  refine .bind_discard_require (by decide) fun inWord readIn isIn further => ?_
  refine (expressionFrom_settles settles (by omega) inAllowed 1).bind
    (expressionFrom_sound settles.sound inAllowed 1 _) fun object middle iterated => ?_
  have left_object := iterated.left_le
  refine .bind_discard_require (by decide) fun close readClose closes furthest => ?_
  exact (settles.statement inAllowed (by omega)).bind_last fun _ _ => .pure _

/-- The question which kind of loop a header is of is settled like the header. -/
theorem forHeaderHasIn_settles (settles : Rules.Settles script size rules twin)
    (fits : script.left offset ≤ size)
    : Settles script (forHeaderHasIn rules) (forHeaderHasIn twin) offset := by
  refine .bind_discard_require (by decide) fun keyword read opens shorter => ?_
  refine .bind_discard_require (by decide) fun bracket readBracket parenthesis within => ?_
  refine .bind_peek fun first met => .ite (fun _ => .pure false) fun _ => .ite (fun opens => ?_) fun _ => ?_
  · exact ((declaration_settles settles (by omega) false .forHeader met.read opens).map _).bind_last
      fun _ _ => .bind_peek fun _ _ => .pure _
  · exact ((expressionFrom_settles settles (by omega) false 1).map _).bind_last
      fun _ _ => .bind_peek fun _ _ => .pure _

/-- The header that is read twice leaves no trace of the first time. -/
theorem forStatement_settles (settles : Rules.Settles script size rules twin)
    (fits : script.left offset ≤ size) (inAllowed : Bool)
    : Settles script (forStatement rules inAllowed) (forStatement twin inAllowed) offset := by
  refine .lookahead (forHeaderHasIn_settles settles fits) (forHeaderHasIn_ensures settles.sound offset)
    fun hasIn _ present => ?_
  exact .ite (fun holds => forInStatement_settles settles fits inAllowed (present holds))
    fun _ => forLoopStatement_settles settles fits inAllowed

-----------------------------------------------------------------------------------------
-- All statements
-----------------------------------------------------------------------------------------

/-- Every statement settles what is left, by cases on what its first two tokens select. -/
theorem statement_settles (settles : Rules.Settles script size rules twin)
    (fits : script.left offset ≤ size) (inAllowed : Bool)
    : Settles script (statement rules inAllowed) (statement twin inAllowed) offset := by
  simp only [statement_eq_bind_selected]
  refine .bind_peekMany_two fun first second readFirst readSecond => ?_
  obtain ⟨parser, selects⟩ := Selects.exists first.kind second.kind
  rw [selects.selected_eq, selects.selected_eq]
  cases selects with
  | opened opens =>
      cases opens with
      | block => exact (block_settles settles fits inAllowed).map _
      | breakTo => exact breakStatement_settles
      | declaration opens =>
          exact (declaration_settles settles fits inAllowed .statement readFirst opens).map _
      | continueTo => exact continueStatement_settles
      | debugger => exact debuggerStatement_settles
      | doWhile => exact doWhileStatement_settles settles fits inAllowed
      | forLoop => exact forStatement_settles settles fits inAllowed
      | function => exact functionDeclaration_settles settles fits
      | ifElse => exact ifStatement_settles settles fits inAllowed
      | returnValue => exact returnStatement_settles settles fits inAllowed
      | switch => exact switchStatement_settles settles fits inAllowed
      | throwValue => exact throwStatement_settles settles fits inAllowed
      | tryBlock => exact tryStatement_settles settles fits inAllowed
      | whileLoop => exact whileStatement_settles settles fits inAllowed
      | withObject => exact withStatement_settles settles fits inAllowed
      | empty => exact emptyStatement_settles
  | labelled => exact labelledStatement_settles settles fits inAllowed
  | expression plain noLabel =>
      exact expressionStatement_settles settles fits inAllowed readFirst readSecond plain noLabel

end EcmaSyntax.Grammar
