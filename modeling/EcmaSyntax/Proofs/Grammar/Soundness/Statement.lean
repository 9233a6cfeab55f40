import EcmaSyntax.Proofs.Grammar.Selection
import EcmaSyntax.Proofs.Grammar.Soundness.Expression

/-! What the parsers of statements accept parses as the grammar has it, given that the same is true of
the rules of the level below.
-/

namespace EcmaSyntax.Grammar

open EcmaSyntax.Parser

variable {script : Script} {rules : Rules}

-----------------------------------------------------------------------------------------
-- Parts of statements
-----------------------------------------------------------------------------------------

/-- A statement that is ended parses as ended by a mark or by what follows. -/
theorem requireStatementEnd_ensures (offset : Nat)
    : Ensures script requireStatementEnd offset fun _ tokens =>
        Parses script (.phrase .statementEnd) offset tokens := by
  refine .bind_peek fun next read => ?_
  split
  next isMark =>
    refine .discard ((Ensures.consume .standard).mono ?_)
    rintro token _ ⟨rfl, readMark⟩
    obtain rfl := read.unique readMark
    exact .intro (.statement (.statementEndMark isMark)) (.token read .nil) rfl
  next noMark =>
    split
    next implied =>
      refine .pure (.intro (.statement (.statementEndImplied noMark ?_)) (.ahead ⟨read, trivial⟩ .nil) rfl)
      simpa [endsStatement, noMark] using implied
    next => exact .reject

theorem condition_sound (sound : rules.Sound script) (inAllowed : Bool)
    : (parenthesizedCondition rules inAllowed).Sound script (.condition inAllowed) := by
  intro offset
  refine .bind_discard_require fun parenthesis read opens => ?_
  refine (expressionFrom_sound sound inAllowed 1 _).bind fun value tokens derivation => ?_
  refine .bind_discard_require fun close readClose closes => .pure ?_
  exact .intro (.statement (.condition opens closes))
    (.token read (.part derivation (.token readClose .nil))) rfl

/-- What is read as a block parses as one, statements and braces. -/
theorem block_sound (sound : rules.Sound script) (inAllowed : Bool)
    : (block rules inAllowed).Sound script (.block inAllowed) := by
  intro offset
  refine .spanned (.bind_discard_require fun brace read opens => ?_)
  refine ((sound.statement inAllowed).repeatUntil .braceClose _).bind
    fun statements tokens derivation => ?_
  refine .bind_discard_require fun close readClose closes => .pure ⟨by simp, ?_⟩
  exact .intro (.statement (.blockOf opens closes))
    (.token read (.part derivation (.token readClose .nil))) rfl

-----------------------------------------------------------------------------------------
-- Declarations
-----------------------------------------------------------------------------------------

/-- The keyword of a declaration tells its mode, as the dialect has it. -/
theorem bind_declarationMode {α : Type} {next : DeclarationMode → Parser α} {offset : Nat}
    {relation : α → List Token → Prop}
    (onward
      : ∀ token mode,
          script.Reads .standard offset token →
          script.declarationMode? token.kind = some mode →
          Ensures script (next mode) token.span.stop
            fun result more => relation result (token :: more))
    : Ensures script (declarationMode >>= next) offset relation := by
  unfold declarationMode
  rw [bind_assoc]
  refine .bind_consume fun token read => ?_
  rw [bind_assoc]
  refine .bind_checkReserved fun allowed => ?_
  have onward := onward token
  rw [Script.declarationMode?, if_neg (by simp [allowed])] at onward
  split
  next isConst => exact onward _ read (if_pos isConst)
  next noConst =>
    rw [if_neg noConst] at onward
    split
    next isVar => exact onward _ read (if_pos isVar)
    next => exact .bind_reject

theorem initializer_sound (sound : rules.Sound script) (inAllowed : Bool)
    : (initializer rules inAllowed).Sound script (.initializer inAllowed) := by
  intro offset
  refine .spanned ((expressionFrom_sound sound inAllowed _ _).bind fun value tokens derivation =>
    .pure ⟨?_, ?_⟩)
  · obtain ⟨first, rest, rfl, _⟩ := derivation.opens_expression
    simp
  · exact .intro (.statement .initializer) (.part derivation .nil) rfl

theorem declarator_sound (sound : rules.Sound script) (inAllowed : Bool)
    : (declarator rules inAllowed).Sound script (.declarator inAllowed) := by
  intro offset
  refine .bind_requireIdentifier fun token read named => ?_
  refine .bind_accept (fun equals readEquals assigns => ?_) (fun next readNext plain => .pure ?_)
  · refine (initializer_sound sound inAllowed _).bind fun initializer tokens derivation => .pure ?_
    exact .intro (.statement (.declaratorInitialized named assigns))
      (.token read (.token readEquals (.part derivation .nil))) rfl
  · exact .intro (.statement (.declaratorPlain named plain))
      (.token read (.ahead ⟨readNext, trivial⟩ .nil)) rfl

/-- What is read as declarators parses as them, by induction on the bound. -/
theorem declarators_sound (sound : rules.Sound script) (inAllowed : Bool) (bound offset : Nat)
    : Ensures script (declarators rules inAllowed bound) offset fun values tokens =>
        Parses script (.separated (values.map (.declarator inAllowed))) offset tokens := by
  induction bound generalizing offset with
  | zero => exact .fault
  | succ bound ih =>
      refine (declarator_sound sound inAllowed _).bind fun first front derivation => ?_
      refine .bind_accept (fun comma separates isComma => ?_) (fun next read noComma => .pure ?_)
      · refine (ih _).bind fun rest back derivations => .pure ?_
        exact .intro (.repetition (.separatedMore isComma))
          (.part derivation (.token separates (.part derivations .nil))) rfl
      · exact .intro (.repetition (.separatedLast noComma))
          (.part derivation (.ahead ⟨read, trivial⟩ .nil)) rfl

/-- What is read as a declaration parses as one with the end that its place asks for. -/
theorem declaration_sound (sound : rules.Sound script) (inAllowed : Bool)
    (place : DeclarationPlace)
    : (declaration rules inAllowed place).Sound script (.declaration inAllowed place) := by
  intro offset
  refine .spanned (bind_declarationMode fun keyword mode read declares => .bind_repetitions
    fun bound => ?_)
  refine (declarators_sound sound inAllowed bound _).bind fun declarators front derivation => ?_
  cases place with
  | statement =>
      rw [if_pos rfl]
      refine (requireStatementEnd_ensures _).bind fun _ back ends => .pure ⟨by simp, ?_⟩
      exact .intro (.statement (.declarationStatement declares))
        (.token read (.part derivation (.part ends .nil))) rfl
  | forHeader =>
      rw [if_neg (by decide)]
      refine .pure ⟨by simp, ?_⟩
      exact .intro (.statement (.declarationHeader declares))
        (.token read (.part derivation .nil)) rfl

-----------------------------------------------------------------------------------------
-- Simple statements
-----------------------------------------------------------------------------------------

theorem emptyStatement_sound (inAllowed : Bool)
    : emptyStatement.Sound script (.statement inAllowed) := by
  intro offset
  refine .spanned (.bind_discard_require fun mark read opens => .pure ⟨by simp, ?_⟩)
  exact .intro (.statement (.empty opens)) (.token read .nil) rfl

theorem debuggerStatement_sound (inAllowed : Bool)
    : debuggerStatement.Sound script (.statement inAllowed) := by
  intro offset
  refine .spanned (.bind_discard_require fun keyword read opens => ?_)
  refine (requireStatementEnd_ensures _).bind fun _ tokens ends => .pure ⟨by simp, ?_⟩
  exact .intro (.statement (.debugger opens)) (.token read (.part ends .nil)) rfl

/-- A label parses only on the line of its keyword. -/
theorem jumpLabel_sound : jumpLabel.Sound script .jumpLabel := by
  intro offset
  refine .bind_peek fun token read => ?_
  split
  next isLabel =>
    simp only [Bool.and_eq_true, decide_eq_true_eq, Bool.not_eq_true'] at isLabel
    refine .bind_discard_consume fun again readAgain => ?_
    obtain rfl := read.unique readAgain
    refine .bind_nameAt ((requireStatementEnd_ensures _).bind fun _ tokens ends => .pure ?_)
    exact .intro (.statement (.jumpLabelSome isLabel.1 isLabel.2)) (.token read (.part ends .nil)) rfl
  next noLabel =>
    refine (requireStatementEnd_ensures _).bind fun _ tokens ends => .pure ?_
    refine .intro (.statement (.jumpLabelNone ?_)) (.ahead ⟨read, trivial⟩ (.part ends .nil)) rfl
    simpa using noLabel

theorem breakStatement_sound (inAllowed : Bool)
    : breakStatement.Sound script (.statement inAllowed) := by
  intro offset
  refine .spanned (.bind_discard_require fun keyword read opens => ?_)
  refine (jumpLabel_sound _).bind fun label tokens derivation => .pure ⟨by simp, ?_⟩
  exact .intro (.statement (.breakTo opens)) (.token read (.part derivation .nil)) rfl

theorem continueStatement_sound (inAllowed : Bool)
    : continueStatement.Sound script (.statement inAllowed) := by
  intro offset
  refine .spanned (.bind_discard_require fun keyword read opens => ?_)
  refine (jumpLabel_sound _).bind fun label tokens derivation => .pure ⟨by simp, ?_⟩
  exact .intro (.statement (.continueTo opens)) (.token read (.part derivation .nil)) rfl

/-- An operand parses only on the line of its keyword. -/
theorem restrictedOperand_sound (sound : rules.Sound script) (inAllowed : Bool)
    : (restrictedOperand rules inAllowed).Sound script (.restrictedOperand inAllowed) := by
  intro offset
  refine .bind_peek fun next read => ?_
  split
  next ends =>
    refine (requireStatementEnd_ensures _).bind fun _ tokens ended => .pure ?_
    exact .intro (.statement (.restrictedOperandNone ends))
      (.ahead ⟨read, trivial⟩ (.part ended .nil)) rfl
  next goesOn =>
    refine (expressionFrom_sound sound inAllowed 1 _).bind fun value front derivation => ?_
    refine (requireStatementEnd_ensures _).bind fun _ back ended => .pure ?_
    exact .intro (.statement (.restrictedOperandSome (by simpa using goesOn)))
      (.ahead ⟨read, trivial⟩ (.part derivation (.part ended .nil))) rfl

theorem returnStatement_sound (sound : rules.Sound script) (inAllowed : Bool)
    : (returnStatement rules inAllowed).Sound script (.statement inAllowed) := by
  intro offset
  refine .spanned (.bind_discard_require fun keyword read opens => ?_)
  refine (restrictedOperand_sound sound inAllowed _).bind fun value tokens derivation =>
    .pure ⟨by simp, ?_⟩
  exact .intro (.statement (.returnValue opens)) (.token read (.part derivation .nil)) rfl

theorem throwStatement_sound (sound : rules.Sound script) (inAllowed : Bool)
    : (throwStatement rules inAllowed).Sound script (.statement inAllowed) := by
  intro offset
  refine .spanned (.bind_discard_require fun keyword read opens => ?_)
  refine (restrictedOperand_sound sound inAllowed _).bind fun value tokens derivation =>
    .pure ⟨by simp, ?_⟩
  exact .intro (.statement (.throwValue opens)) (.token read (.part derivation .nil)) rfl

/-- What is read as an expression statement parses as one where nothing else begins. -/
theorem expressionStatement_sound (sound : rules.Sound script) (inAllowed : Bool) {first second : Token}
    {offset : Nat} (readFirst : script.Reads .standard offset first)
    (readSecond : script.Reads .standard first.span.stop second)
    (plain : opensStatement first.kind = false)
    (noLabel : first.kind = .identifier → second.kind ≠ .colon)
    : Ensures script (expressionStatement rules inAllowed) offset fun value tokens =>
        Parses script (.phrase (.statement inAllowed value)) offset tokens := by
  refine .spanned ((expressionFrom_sound sound inAllowed 1 _).bind fun value front derivation => ?_)
  refine (requireStatementEnd_ensures _).bind fun _ back ends => .pure ⟨?_, ?_⟩
  · obtain ⟨token, rest, rfl, _⟩ := derivation.opens_expression
    simp
  · by_cases named : first.kind = .identifier
    · exact .intro (.statement (.expressionNamed named (noLabel named)))
        (.ahead ⟨readFirst, readSecond, trivial⟩ (.part derivation (.part ends .nil))) rfl
    · exact .intro (.statement (.expression plain named))
        (.ahead ⟨readFirst, trivial⟩ (.part derivation (.part ends .nil))) rfl

-----------------------------------------------------------------------------------------
-- Statements that contain statements
-----------------------------------------------------------------------------------------

theorem blockStatement_sound (sound : rules.Sound script) (inAllowed : Bool)
    : (blockStatement rules inAllowed).Sound script (.statement inAllowed) := by
  intro offset
  refine .map ((block_sound sound inAllowed _).mono fun value tokens derivation => ?_)
  exact .intro (.statement .block) (.part derivation .nil) (by simp [Item.tokensOf])

/-- What is read as a labelled statement parses as one, its label and its statement. -/
theorem labelledStatement_sound (sound : rules.Sound script) (inAllowed : Bool)
    : (labelledStatement rules inAllowed).Sound script (.statement inAllowed) := by
  intro offset
  refine .spanned (.bind_requireIdentifier fun token read named => ?_)
  refine .bind_discard_require fun colon readColon divides => ?_
  refine (sound.statement inAllowed _).bind fun inner tokens derivation => .pure ⟨by simp, ?_⟩
  exact .intro (.statement (.labelled named divides))
    (.token read (.token readColon (.part derivation .nil))) rfl

/-- What is read as an `if` parses as one, with its alternative if it has any. -/
theorem ifStatement_sound (sound : rules.Sound script) (inAllowed : Bool)
    : (ifStatement rules inAllowed).Sound script (.statement inAllowed) := by
  intro offset
  refine .spanned (.bind_discard_require fun keyword read opens => ?_)
  refine (condition_sound sound inAllowed _).bind fun test front tested => ?_
  refine (sound.statement inAllowed _).bind fun consequent middle first => ?_
  refine .bind_accept (fun elseWord readElse otherwise => ?_) (fun next readNext noElse => .pure ⟨by simp, ?_⟩)
  · refine (sound.statement inAllowed _).bind fun alternate back second => .pure ⟨by simp, ?_⟩
    exact .intro (.statement (.ifElse opens otherwise))
      (.token read (.part tested (.part first (.token readElse (.part second .nil))))) rfl
  · exact .intro (.statement (.ifOnly opens noElse))
      (.token read (.part tested (.part first (.ahead ⟨readNext, trivial⟩ .nil)))) rfl

theorem whileStatement_sound (sound : rules.Sound script) (inAllowed : Bool)
    : (whileStatement rules inAllowed).Sound script (.statement inAllowed) := by
  intro offset
  refine .spanned (.bind_discard_require fun keyword read opens => ?_)
  refine (condition_sound sound inAllowed _).bind fun condition front tested => ?_
  refine (sound.statement inAllowed _).bind fun body back derivation => .pure ⟨by simp, ?_⟩
  exact .intro (.statement (.whileLoop opens))
    (.token read (.part tested (.part derivation .nil))) rfl

theorem withStatement_sound (sound : rules.Sound script) (inAllowed : Bool)
    : (withStatement rules inAllowed).Sound script (.statement inAllowed) := by
  intro offset
  refine .spanned (.bind_discard_require fun keyword read opens => ?_)
  refine (condition_sound sound inAllowed _).bind fun object front named => ?_
  refine (sound.statement inAllowed _).bind fun body back derivation => .pure ⟨by simp, ?_⟩
  exact .intro (.statement (.withObject opens))
    (.token read (.part named (.part derivation .nil))) rfl

/-- What is read as a `do` statement parses as one; a mark behind it is taken if there is one. -/
theorem doWhileStatement_sound (sound : rules.Sound script) (inAllowed : Bool)
    : (doWhileStatement rules inAllowed).Sound script (.statement inAllowed) := by
  intro offset
  refine .spanned (.bind_discard_require fun keyword read opens => ?_)
  refine (sound.statement inAllowed _).bind fun body front derivation => ?_
  refine .bind_discard_require fun whileWord readWhile loops => ?_
  refine (condition_sound sound inAllowed _).bind fun condition back tested => ?_
  refine .bind_discard_accept (fun mark readMark ends => .pure ⟨by simp, ?_⟩) (fun next readNext noEnd => .pure ⟨by simp, ?_⟩)
  · exact .intro (.statement (.doWhileEnded opens loops ends))
      (.token read (.part derivation (.token readWhile (.part tested (.token readMark .nil))))) rfl
  · exact .intro (.statement (.doWhile opens loops noEnd))
      (.token read (.part derivation (.token readWhile (.part tested
        (.ahead ⟨readNext, trivial⟩ .nil))))) rfl

/-- What is read as the handler of a `try` parses as one. -/
theorem handler_sound (sound : rules.Sound script) (inAllowed : Bool)
    : (handler rules inAllowed).Sound script (.handler inAllowed) := by
  intro offset
  refine .spanned (.bind_discard_require fun parenthesis read opens => ?_)
  refine .bind_requireIdentifier fun token readToken named => ?_
  refine .bind_discard_require fun close readClose closes => ?_
  refine (block_sound sound inAllowed _).bind fun body tokens derivation => .pure ⟨by simp, ?_⟩
  exact .intro (.statement (.handler opens named closes))
    (.token read (.token readToken (.token readClose (.part derivation .nil)))) rfl

/-- A `try` parses only with a handler or a finalizer. -/
theorem tryStatement_sound (sound : rules.Sound script) (inAllowed : Bool)
    : (tryStatement rules inAllowed).Sound script (.statement inAllowed) := by
  intro offset
  refine .spanned (.bind_require fun keyword read opens => ?_)
  refine (block_sound sound inAllowed _).bind fun block front derivation => ?_
  refine ((handler_sound sound inAllowed).afterKeyword (by decide) _).bind
    fun handler middle handled => ?_
  refine ((block_sound sound inAllowed).afterKeyword (by decide) _).bind
    fun finalizer back finished => ?_
  split
  next => exact .bind_reject
  next guarded =>
    refine .pure ⟨by simp, ?_⟩
    refine .intro (.statement (.tryBlock opens ?_))
      (.token read (.part derivation (.part handled (.part finished .nil)))) rfl
    cases handler with
    | some handler => exact .inl rfl
    | none =>
        cases finalizer with
        | some finalizer => exact .inr rfl
        | none => exact absurd rfl guarded

/-- What is read in front of the colon of a branch parses as its test or as its default. -/
theorem branchTest_sound (sound : rules.Sound script) (inAllowed : Bool)
    : (branchTest rules inAllowed).Sound script (.branchTest inAllowed) := by
  intro offset
  refine .bind_accept (fun keyword read opens => ?_) (fun next _ _ => ?_)
  · refine .map ((expressionFrom_sound sound inAllowed 1 _).mono fun test tokens derivation => ?_)
    exact .intro (.statement (.branchTestCase opens)) (.token read (.part derivation .nil))
      (by simp [Item.tokensOf])
  · refine .bind_discard_require fun keyword read opens => .pure ?_
    exact .intro (.statement (.branchTestDefault opens)) (.token read .nil) rfl

theorem branch_sound (sound : rules.Sound script) (inAllowed : Bool)
    : (branch rules inAllowed).Sound script (.branch inAllowed) := by
  intro offset
  refine .spanned ((branchTest_sound sound inAllowed _).bind fun test front tested => ?_)
  refine .bind_discard_require fun colon read divides => ?_
  refine ((sound.statement inAllowed).repeatWhile (fun kind => !endsBranch kind) _).bind
    fun body back derivation => .pure ⟨by simp, ?_⟩
  exact .intro (.statement (.branch divides))
    (.part tested (.token read (.part derivation .nil))) rfl

/-- What is read as a `switch` parses as one, with as many branches as there are. -/
theorem switchStatement_sound (sound : rules.Sound script) (inAllowed : Bool)
    : (switchStatement rules inAllowed).Sound script (.statement inAllowed) := by
  intro offset
  refine .spanned (.bind_discard_require fun keyword read opens => ?_)
  refine (condition_sound sound inAllowed _).bind fun test front tested => ?_
  refine .bind_discard_require fun brace readBrace encloses => ?_
  refine ((branch_sound sound inAllowed).repeatUntil .braceClose _).bind
    fun branches back derivation => ?_
  refine .bind_discard_require fun close readClose closes => .pure ⟨by simp, ?_⟩
  exact .intro (.statement (.switch opens encloses closes))
    (.token read (.part tested (.token readBrace (.part derivation (.token readClose .nil))))) rfl

theorem functionDeclaration_sound (sound : rules.Sound script) (inAllowed : Bool)
    : (functionDeclaration rules).Sound script (.statement inAllowed) := by
  intro offset
  refine .spanned (.bind_discard_require fun keyword read opens => ?_)
  refine .bind_requireIdentifier fun token readToken named => ?_
  refine (function_sound sound _).bind fun function tokens derivation => .pure ⟨by simp, ?_⟩
  exact .intro (.statement (.function opens named))
    (.token read (.token readToken (.part derivation .nil))) rfl

theorem declarationStatement_sound (sound : rules.Sound script) (inAllowed : Bool)
    : (Stmt.declaration <$> declaration rules inAllowed .statement).Sound script
        (.statement inAllowed) := by
  intro offset
  refine .map ((declaration_sound sound inAllowed .statement _).mono fun value tokens derivation => ?_)
  exact .intro (.statement .declaration) (.part derivation .nil) (by simp [Item.tokensOf])

-----------------------------------------------------------------------------------------
-- Loops with a header
-----------------------------------------------------------------------------------------

/-- The first clause of a `for` loop parses without an open `in`. -/
theorem forStart_sound (sound : rules.Sound script) : (forStart rules).Sound script .forStart := by
  intro offset
  refine .bind_peek fun first read => ?_
  dsimp only
  split
  next opens =>
    refine .map ((declaration_sound sound false .forHeader _).mono fun value tokens derivation => ?_)
    exact .intro (.statement (.forStartDeclaration opens))
      (.ahead ⟨read, trivial⟩ (.part derivation .nil)) (by simp [Item.tokensOf])
  next noDeclaration =>
    split
    next missing =>
      exact .pure (.intro (.statement (.forStartNothing missing)) (.ahead ⟨read, trivial⟩ .nil) rfl)
    next present =>
      refine .map ((expressionFrom_sound sound false 1 _).mono fun value tokens derivation => ?_)
      exact .intro (.statement (.forStartExpression (by simpa using noDeclaration) present))
        (.ahead ⟨read, trivial⟩ (.part derivation .nil)) (by simp [Item.tokensOf])

/-- A later clause of a `for` loop parses up to the mark that closes it, or is left out. -/
theorem forClause_sound (sound : rules.Sound script) (inAllowed : Bool) {close : Kind}
    (mark : close.isPlain)
    : (forClause rules inAllowed close).Sound script (.forClause inAllowed close) := by
  intro offset
  refine .bind_peek fun first read => ?_
  split
  next closes =>
    rw [pure_bind]
    refine .bind_discard_require fun token readToken closes => .pure ?_
    exact .intro (.statement (.forClauseNone closes mark)) (.token readToken .nil) rfl
  next present =>
    rw [bind_map_left]
    refine (expressionFrom_sound sound inAllowed 1 _).bind fun value tokens derivation => ?_
    refine .bind_discard_require fun token readToken closes => .pure ?_
    exact .intro (.statement (.forClauseSome present closes mark))
      (.ahead ⟨read, trivial⟩ (.part derivation (.token readToken .nil))) rfl

/-- What is read as a `for` loop with three clauses parses as one. -/
theorem forLoopStatement_sound (sound : rules.Sound script) (inAllowed : Bool)
    : (forLoopStatement rules inAllowed).Sound script (.statement inAllowed) := by
  intro offset
  refine .spanned (.bind_discard_require fun keyword read opens => ?_)
  refine .bind_discard_require fun bracket readBracket parenthesis => ?_
  refine (forStart_sound sound _).bind fun start front started => ?_
  refine .bind_discard_require fun semicolon readSemicolon divides => ?_
  refine (forClause_sound sound inAllowed (by decide) _).bind fun condition middle tested => ?_
  refine (forClause_sound sound inAllowed (by decide) _).bind fun update last updated => ?_
  refine (sound.statement inAllowed _).bind fun body back derivation => .pure ⟨by simp, ?_⟩
  exact .intro (.statement (.forLoop opens parenthesis divides))
    (.token read (.token readBracket (.part started (.token readSemicolon
      (.part tested (.part updated (.part derivation .nil))))))) rfl

/-- The first clause of a header that a target is looked for in is not missing. -/
theorem forInTarget_ensures (sound : rules.Sound script) {first : Token} {offset : Nat}
    (read : script.Reads .standard offset first) (present : first.kind ≠ .semicolon)
    : Ensures script (forInTarget rules) offset fun target tokens =>
        Parses script (.phrase (.forInTarget target)) offset tokens := by
  refine .bind_peek fun again readAgain => ?_
  obtain rfl := read.unique readAgain
  split
  next opens =>
    refine (declaration_sound sound false .forHeader _).bind fun value tokens derivation => ?_
    split
    next single =>
      refine .pure ?_
      exact .intro (.statement (.forInTargetDeclaration opens single))
        (.ahead ⟨read, trivial⟩ (.part derivation .nil)) rfl
    next => exact .reject
  next noDeclaration =>
    refine (expressionFrom_sound sound false 1 _).bind fun value tokens derivation => ?_
    refine bind_requireTarget fun target => .pure ?_
    exact .intro (.statement (.forInTargetExpression (by simpa using noDeclaration) present target))
      (.ahead ⟨read, trivial⟩ (.part derivation .nil)) rfl

/-- The first clause of a `for` header at the offset begins with a semicolon. -/
def LacksFirstClause (script : Script) (offset : Nat) : Prop :=
  ∃ keyword bracket first,
    script.Reads .standard offset keyword
    ∧ script.Reads .standard keyword.span.stop bracket
    ∧ script.Reads .standard bracket.span.stop first
    ∧ first.kind = .semicolon

/-- What is read as a `for` loop with an `in` parses as one, unless it lacks its first clause. -/
theorem forInStatement_ensures (sound : rules.Sound script) (inAllowed : Bool) {offset : Nat}
    (present : ¬LacksFirstClause script offset)
    : Ensures script (forInStatement rules inAllowed) offset fun value tokens =>
        Parses script (.phrase (.statement inAllowed value)) offset tokens := by
  refine .spanned (.bind_discard_require fun keyword read opens => ?_)
  refine .bind_discard_require fun bracket readBracket parenthesis => ?_
  have target
      : Ensures script (forInTarget rules) bracket.span.stop fun target tokens =>
          Parses script (.phrase (.forInTarget target)) bracket.span.stop tokens := by
    obtain ⟨rest, cut⟩ := Token.isBoundary_stop readBracket
    obtain ⟨first, readFirst⟩ := Token.exists_read? .standard ⟨rest, cut⟩
    refine forInTarget_ensures sound readFirst ?_
    exact fun missing => present ⟨keyword, bracket, first, read, readBracket, readFirst, missing⟩
  refine target.bind fun target front derivation => ?_
  refine .bind_discard_require fun inWord readIn within => ?_
  refine (expressionFrom_sound sound inAllowed 1 _).bind fun object middle iterated => ?_
  refine .bind_discard_require fun close readClose closes => ?_
  refine (sound.statement inAllowed _).bind fun body back derivation' => .pure ⟨by simp, ?_⟩
  exact .intro (.statement (.forIn opens parenthesis within closes))
    (.token read (.token readBracket (.part derivation (.token readIn
      (.part iterated (.token readClose (.part derivation' .nil))))))) rfl

/-- Where the probe finds an `in` behind the first clause, the clause is there. -/
theorem forHeaderHasIn_ensures (sound : rules.Sound script) (offset : Nat)
    : Ensures script (forHeaderHasIn rules) offset fun hasIn _ =>
        hasIn → ¬LacksFirstClause script offset := by
  refine .bind_discard_require fun keyword read _ => .bind_discard_require fun bracket readBracket _ => ?_
  refine .bind_peek fun first readFirst => ?_
  have presence (present : first.kind ≠ .semicolon) : ¬LacksFirstClause script offset := by
    rintro ⟨keyword', bracket', first', read', readBracket', readFirst', missing⟩
    obtain rfl := read.unique read'
    obtain rfl := readBracket.unique readBracket'
    obtain rfl := readFirst.unique readFirst'
    exact present missing
  dsimp only
  split
  next => exact .pure fun holds => by cases holds
  next present =>
    split
    next =>
      refine .bind_discard (declaration_sound sound false .forHeader _) fun _ tokens _ => ?_
      exact .bind_peek fun next _ => .pure fun _ => presence present
    next =>
      refine .bind_discard (expressionFrom_sound sound false 1 _) fun _ tokens _ => ?_
      exact .bind_peek fun next _ => .pure fun _ => presence present

/-- What is read as a `for` loop parses as the kind of loop that the probe told. -/
theorem forStatement_sound (sound : rules.Sound script) (inAllowed : Bool)
    : (forStatement rules inAllowed).Sound script (.statement inAllowed) := by
  intro offset
  refine .lookahead (forHeaderHasIn_ensures sound offset) fun hasIn _ present => ?_
  split
  next holds => exact forInStatement_ensures sound inAllowed (present holds)
  next => exact forLoopStatement_sound sound inAllowed offset

-----------------------------------------------------------------------------------------
-- All statements
-----------------------------------------------------------------------------------------

/-- What is read as a statement parses as one, by cases on the token that opens it. -/
theorem statement_sound (sound : rules.Sound script) (inAllowed : Bool)
    : (statement rules inAllowed).Sound script (.statement inAllowed) := by
  intro offset
  rw [statement_eq_bind_selected]
  refine .bind_peekMany_two fun first second readFirst readSecond => ?_
  obtain ⟨parser, selects⟩ := Selects.exists first.kind second.kind
  rw [selects.selected_eq]
  cases selects with
  | opened opens =>
      cases opens with
      | block => exact blockStatement_sound sound inAllowed offset
      | breakTo => exact breakStatement_sound inAllowed offset
      | declaration => exact declarationStatement_sound sound inAllowed offset
      | continueTo => exact continueStatement_sound inAllowed offset
      | debugger => exact debuggerStatement_sound inAllowed offset
      | doWhile => exact doWhileStatement_sound sound inAllowed offset
      | forLoop => exact forStatement_sound sound inAllowed offset
      | function => exact functionDeclaration_sound sound inAllowed offset
      | ifElse => exact ifStatement_sound sound inAllowed offset
      | returnValue => exact returnStatement_sound sound inAllowed offset
      | switch => exact switchStatement_sound sound inAllowed offset
      | throwValue => exact throwStatement_sound sound inAllowed offset
      | tryBlock => exact tryStatement_sound sound inAllowed offset
      | whileLoop => exact whileStatement_sound sound inAllowed offset
      | withObject => exact withStatement_sound sound inAllowed offset
      | empty => exact emptyStatement_sound inAllowed offset
  | labelled => exact labelledStatement_sound sound inAllowed offset
  | expression plain noLabel =>
      exact expressionStatement_sound sound inAllowed readFirst readSecond plain noLabel

end EcmaSyntax.Grammar
