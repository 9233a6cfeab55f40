import EcmaSyntax.Proofs.Grammar.Completeness.Expression
import EcmaSyntax.Proofs.Grammar.Selection

/-! What parses as a statement is accepted, given that its parts are. -/

namespace EcmaSyntax.Grammar

open EcmaSyntax.Parser

variable {script : Script} {span : Span} {items : List Item} {offset : Nat} {tokens : List Token}
  {depth : Nat}

-----------------------------------------------------------------------------------------
-- Parts of statements
-----------------------------------------------------------------------------------------

/-- A statement ends with the mark that is there, or where one is implied. -/
theorem statementEnd_runs (rule : StatementRule script span .statementEnd items)
    (accepted : Accepted script items offset)
    : Runs script requireStatementEnd offset (Item.tokensOf items) ⟨⟩ := by
  cases rule with
  | statementEndMark ends =>
      refine .bind_peek accepted.1 ?_
      rw [if_pos ends]
      exact .discard (.consume accepted.1)
  | statementEndImplied noMark ends =>
      refine .bind_peek accepted.1.1 ?_
      rw [if_neg noMark, if_pos (by simpa [endsStatement, noMark] using ends)]
      exact .pure _

/-- A condition in parentheses is accepted as the expression in it. -/
theorem condition_runs {inAllowed : Bool} {value : Expr}
    (rule : StatementRule script span (.condition inAllowed value) items)
    (accepted : Accepted script items offset) (deep : (Item.tokensOf items).length ≤ depth)
    : Runs script (parenthesizedCondition (Rules.ofDepth depth) inAllowed) offset
        (Item.tokensOf items) value := by
  cases rule with
  | condition opens closes =>
      obtain ⟨read, ⟨_, value⟩, readClose, _⟩ := accepted
      simp only [Item.tokensOf, List.length_cons, List.length_append] at deep
      refine .bind_discard_require read opens (.bind (value depth (by omega)) ?_)
      exact .bind_discard_require readClose closes (.pure _)

/-- A block is accepted with its statements up to the closing brace. -/
theorem block_runs {inAllowed : Bool} {value : Block}
    (rule : StatementRule script span (.block inAllowed value) items)
    (spans : Token.spanOf (Item.tokensOf items) = span)
    (accepted : Accepted script items offset) (deep : (Item.tokensOf items).length ≤ depth)
    : Runs script (block (Rules.ofDepth depth) inAllowed) offset (Item.tokensOf items) value := by
  cases rule with
  | blockOf opens closes =>
      obtain ⟨read, ⟨derived, statements⟩, readClose, _⟩ := accepted
      simp only [Item.tokensOf, List.length_cons, List.length_append] at deep
      apply Runs.spanned spans (List.cons_ne_nil _ _)
      refine .bind_discard_require read opens ?_
      refine .bind ?_ (.bind_discard_require readClose closes (.pure _))
      refine .bind_repetitions fun bound enough => statements _ _ _ rfl (fun _ => rfl) ?_ _ ?_
      · exact accepts_statement inAllowed (by omega)
      · exact Nat.lt_of_le_of_lt derived.length_le enough

-----------------------------------------------------------------------------------------
-- Declarations
-----------------------------------------------------------------------------------------

/-- The keyword of a declaration is accepted where the dialect has it. -/
theorem runs_declarationMode {token : Token} {mode : DeclarationMode}
    (read : script.Reads .standard offset token)
    (declares : script.declarationMode? token.kind = some mode)
    : Runs script declarationMode offset [token] mode := by
  unfold Script.declarationMode? at declares
  split_ifs at declares with reserved isConst isVar
  · cases declares
    refine .bind_consume read (.bind_of_nil (.checkReserved (by simpa using reserved)) ?_)
    rw [if_pos isConst]
    exact .pure _
  · cases declares
    refine .bind_consume read (.bind_of_nil (.checkReserved (by simpa using reserved)) ?_)
    rw [if_neg isConst, if_pos isVar]
    exact .pure _

theorem initializer_runs {inAllowed : Bool} {value : Initializer}
    (rule : StatementRule script span (.initializer inAllowed value) items)
    (spans : Token.spanOf (Item.tokensOf items) = span)
    (accepted : Accepted script items offset) (deep : (Item.tokensOf items).length ≤ depth)
    : Runs script (initializer (Rules.ofDepth depth) inAllowed) offset (Item.tokensOf items)
        value := by
  cases rule with
  | initializer =>
      obtain ⟨⟨derived, value⟩, _⟩ := accepted
      simp only [Item.tokensOf, List.append_nil] at deep spans ⊢
      apply Runs.spanned spans (derived.ne_nil rfl)
      exact .bind_pure (value depth deep) fun _ => .pure _

/-- A declarator is accepted with an initializer or without, as the token behind its name tells. -/
theorem declarator_runs {inAllowed : Bool} {value : Declarator}
    (rule : StatementRule script span (.declarator inAllowed value) items)
    (accepted : Accepted script items offset) (deep : (Item.tokensOf items).length ≤ depth)
    : Runs script (declarator (Rules.ofDepth depth) inAllowed) offset (Item.tokensOf items)
        value := by
  cases rule with
  | declaratorInitialized named assigns =>
      obtain ⟨read, readEquals, ⟨_, value⟩, _⟩ := accepted
      simp only [Item.tokensOf, List.length_cons, List.length_append, List.length_nil] at deep
      refine .bind_requireIdentifier read named (.bind_accept_taken readEquals assigns ?_)
      exact .bind (value depth (by omega)) (.pure _)
  | declaratorPlain named plain =>
      obtain ⟨read, ⟨readNext, _⟩, _⟩ := accepted
      exact .bind_requireIdentifier read named (.bind_accept_left readNext plain (.pure _))

/-- Declarators with commas between them are accepted, within a bound above the number of their tokens. -/
theorem separated_complete {phrases : List Phrase}
    (rule : RepetitionRule (.separated phrases) items) (accepted : Accepted script items offset)
    : (Nonterminal.separated phrases).Complete script offset (Item.tokensOf items) := by
  intro inAllowed values same depth deep bound enough
  obtain ⟨bound, rfl⟩ := Nat.exists_eq_add_one_of_ne_zero (Nat.ne_zero_of_lt enough)
  cases rule with
  | separatedLast noComma =>
      obtain ⟨⟨_, only⟩, ⟨read, _⟩, _⟩ := accepted
      obtain ⟨value, values, rfl, rfl, none⟩ := List.map_eq_cons_iff.mp same
      obtain rfl := List.map_eq_nil_iff.mp none
      simp only [Item.tokensOf, List.append_nil] at deep
      exact .bind (only depth deep) (.bind_accept_left read noComma (.pure _))
  | separatedMore separates =>
      obtain ⟨⟨_, first⟩, read, ⟨_, rest⟩, _⟩ := accepted
      obtain ⟨value, values, rfl, rfl, rfl⟩ := List.map_eq_cons_iff.mp same
      simp only [Item.tokensOf, List.length_append, List.length_cons, List.append_nil]
        at deep enough ⊢
      refine .bind (first depth (by omega)) (.bind_accept_taken read separates ?_)
      exact .bind_pure (rest inAllowed values rfl depth (by omega) bound (by omega))
        fun _ => .pure _

/-- A declaration is accepted with the end that its place asks for. -/
theorem declaration_runs {inAllowed : Bool} {place : DeclarationPlace} {value : Declaration}
    (rule : StatementRule script span (.declaration inAllowed place value) items)
    (spans : Token.spanOf (Item.tokensOf items) = span)
    (accepted : Accepted script items offset) (deep : (Item.tokensOf items).length ≤ depth)
    : Runs script (declaration (Rules.ofDepth depth) inAllowed place) offset
        (Item.tokensOf items) value := by
  cases rule with
  | declarationStatement declares =>
      obtain ⟨read, ⟨derived, declarators⟩, ⟨_, ends⟩, _⟩ := accepted
      simp only [Item.tokensOf, List.length_cons, List.length_append, List.length_nil] at deep
      apply Runs.spanned spans (List.cons_ne_nil _ _)
      refine .bind (runs_declarationMode read declares) (.bind_repetitions fun bound enough => ?_)
      refine .bind (declarators inAllowed _ rfl depth (by omega) _ ?_) ?_
      · exact Nat.lt_of_le_of_lt derived.length_le enough
      · rw [if_pos rfl]
        exact .bind (ends depth (by omega)) (.pure _)
  | declarationHeader declares =>
      obtain ⟨read, ⟨derived, declarators⟩, _⟩ := accepted
      simp only [Item.tokensOf, List.length_cons, List.length_append, List.length_nil] at deep
      apply Runs.spanned spans (List.cons_ne_nil _ _)
      refine .bind (runs_declarationMode read declares) (.bind_repetitions fun bound enough => ?_)
      refine .bind (declarators inAllowed _ rfl depth (by omega) _ ?_) ?_
      · exact Nat.lt_of_le_of_lt derived.length_le enough
      · rw [if_neg (by decide)]
        exact .pure _

-----------------------------------------------------------------------------------------
-- Simple statements
-----------------------------------------------------------------------------------------

/-- A label is accepted on the line of its keyword, and no label where the statement ends. -/
theorem jumpLabel_runs {label : Option String}
    (rule : StatementRule script span (.jumpLabel label) items)
    (accepted : Accepted script items offset)
    : Runs script jumpLabel offset (Item.tokensOf items) label := by
  cases rule with
  | jumpLabelSome named sameLine =>
      obtain ⟨read, ⟨_, ends⟩, _⟩ := accepted
      refine .bind_peek read ?_
      rw [if_pos (by simp [named, sameLine])]
      refine .bind_discard_consume read (.bind_of_nil (.nameAt read) ?_)
      exact .bind (ends _ (Nat.le_refl _)) (.pure _)
  | jumpLabelNone unnamed =>
      obtain ⟨⟨read, _⟩, ⟨_, ends⟩, _⟩ := accepted
      refine .bind_peek read ?_
      rw [if_neg (by simpa using unnamed)]
      exact .bind (ends _ (Nat.le_refl _)) (.pure _)

/-- An operand is accepted on the line of its keyword, and none where the statement ends. -/
theorem restrictedOperand_runs {inAllowed : Bool} {value : Option Expr}
    (rule : StatementRule script span (.restrictedOperand inAllowed value) items)
    (accepted : Accepted script items offset) (deep : (Item.tokensOf items).length ≤ depth)
    : Runs script (restrictedOperand (Rules.ofDepth depth) inAllowed) offset
        (Item.tokensOf items) value := by
  cases rule with
  | restrictedOperandNone ends =>
      obtain ⟨⟨read, _⟩, ⟨_, ended⟩, _⟩ := accepted
      refine .bind_peek read ?_
      rw [if_pos ends]
      exact .bind (ended _ (Nat.le_refl _)) (.pure _)
  | restrictedOperandSome goesOn =>
      obtain ⟨⟨read, _⟩, ⟨_, value⟩, ⟨_, ended⟩, _⟩ := accepted
      simp only [Item.tokensOf, List.length_append, List.length_nil] at deep
      refine .bind_peek read ?_
      rw [if_neg (by simp [goesOn])]
      exact .bind (value depth (by omega)) (.bind (ended _ (Nat.le_refl _)) (.pure _))

theorem handler_runs {inAllowed : Bool} {value : Handler}
    (rule : StatementRule script span (.handler inAllowed value) items)
    (spans : Token.spanOf (Item.tokensOf items) = span)
    (accepted : Accepted script items offset) (deep : (Item.tokensOf items).length ≤ depth)
    : Runs script (handler (Rules.ofDepth depth) inAllowed) offset (Item.tokensOf items) value := by
  cases rule with
  | handler opens named closes =>
      obtain ⟨read, readName, readClose, ⟨_, body⟩, _⟩ := accepted
      simp only [Item.tokensOf, List.length_cons, List.length_append, List.length_nil] at deep
      apply Runs.spanned spans (List.cons_ne_nil _ _)
      refine .bind_discard_require read opens (.bind_requireIdentifier readName named ?_)
      refine .bind_discard_require readClose closes (.bind (body depth (by omega)) (.pure _))

/-- The beginning of a branch is accepted, with a test or as the default. -/
theorem branchTest_runs {inAllowed : Bool} {value : Option Expr}
    (rule : StatementRule script span (.branchTest inAllowed value) items)
    (accepted : Accepted script items offset) (deep : (Item.tokensOf items).length ≤ depth)
    : Runs script (branchTest (Rules.ofDepth depth) inAllowed) offset (Item.tokensOf items)
        value := by
  cases rule with
  | branchTestCase opens =>
      obtain ⟨read, ⟨_, test⟩, _⟩ := accepted
      simp only [Item.tokensOf, List.length_cons, List.append_nil] at deep ⊢
      exact .bind_accept_taken read opens (.map _ (test depth (by omega)))
  | branchTestDefault opens =>
      refine .bind_accept_left accepted.1 (by rw [opens]; decide) ?_
      exact .bind_discard_require accepted.1 opens (.pure _)

/-- A branch is accepted with its statements up to the next one or to the closing brace. -/
theorem branch_runs {inAllowed : Bool} {value : Branch}
    (rule : StatementRule script span (.branch inAllowed value) items)
    (spans : Token.spanOf (Item.tokensOf items) = span)
    (accepted : Accepted script items offset) (deep : (Item.tokensOf items).length ≤ depth)
    : Runs script (branch (Rules.ofDepth depth) inAllowed) offset (Item.tokensOf items) value := by
  cases rule with
  | branch divides =>
      obtain ⟨⟨_, test⟩, read, ⟨derived, body⟩, _⟩ := accepted
      simp only [Item.tokensOf, List.length_cons, List.length_append, List.length_nil] at deep
      apply Runs.spanned spans (by simp [Item.tokensOf])
      refine .bind (test depth (by omega)) (.bind_discard_require read divides ?_)
      refine .bind (.bind_repetitions fun bound enough => ?_) (.pure _)
      refine body _ _ _ rfl (fun _ => rfl) (accepts_statement inAllowed (by omega)) _ ?_
      exact Nat.lt_of_le_of_lt derived.length_le enough

-----------------------------------------------------------------------------------------
-- Headers of `for` loops
-----------------------------------------------------------------------------------------

/-- A clause of a loop is accepted up to the token that closes it, or as missing in front of it. -/
theorem forClause_runs {inAllowed : Bool} {close : Kind} {value : Option Expr}
    (rule : StatementRule script span (.forClause inAllowed close value) items)
    (accepted : Accepted script items offset) (deep : (Item.tokensOf items).length ≤ depth)
    : Runs script (forClause (Rules.ofDepth depth) inAllowed close) offset (Item.tokensOf items)
        value := by
  cases rule with
  | forClauseNone closes mark =>
      refine .bind_peek accepted.1 ?_
      rw [if_pos closes, pure_bind]
      exact .bind_discard_require accepted.1 closes (.pure none)
  | forClauseSome present closes mark =>
      obtain ⟨⟨read, _⟩, ⟨_, value⟩, readClose, _⟩ := accepted
      simp only [Item.tokensOf, List.length_cons, List.length_append, List.length_nil] at deep
      refine .bind_peek read ?_
      rw [if_neg present, bind_map_left]
      exact .bind (value depth (by omega)) (.bind_discard_require readClose closes (.pure _))

theorem ne_semicolon_of_opensDeclaration {kind : Kind} (opens : opensDeclaration kind)
    : kind ≠ .semicolon := by
  rintro rfl
  cases opens

variable {first next : Token}

/-- A declaration in a header is read again after its kind was found. -/
theorem firstClauseHasIn_of_declaration {declaration : Declaration}
    (read : script.Reads .standard offset first) (opens : opensDeclaration first.kind)
    (runs
      : Runs script (Grammar.declaration (Rules.ofDepth depth) false .forHeader) offset tokens
          declaration)
    (readNext : script.Reads .standard (Token.endOf offset tokens) next)
    : Runs script (firstClauseHasIn (Rules.ofDepth depth)) offset tokens
        (next.kind = .keywordIn) := by
  refine .bind_peek read ?_
  rw [if_neg (ne_semicolon_of_opensDeclaration opens), if_pos opens, ← List.append_nil tokens]
  exact .bind (.discard runs) (.bind_peek readNext (.pure _))

/-- Reading an expression ahead tells whether `in` is behind it. -/
theorem firstClauseHasIn_of_expression {value : Expr}
    (read : script.Reads .standard offset first)
    (noDeclaration : opensDeclaration first.kind = false) (present : first.kind ≠ .semicolon)
    (runs : Runs script (expression (Rules.ofDepth depth) false) offset tokens value)
    (readNext : script.Reads .standard (Token.endOf offset tokens) next)
    : Runs script (firstClauseHasIn (Rules.ofDepth depth)) offset tokens
        (next.kind = .keywordIn) := by
  refine .bind_peek read ?_
  rw [if_neg present, if_neg (by simp [noDeclaration]), ← List.append_nil tokens]
  exact .bind (.discard runs) (.bind_peek readNext (.pure _))

/-- The first clause of a loop with three clauses is accepted, and read ahead before that. -/
theorem forStart_runs {value : ForStart}
    (rule : StatementRule script span (.forStart value) items)
    (accepted : Accepted script items offset) (deep : (Item.tokensOf items).length ≤ depth)
    : (Phrase.forStart value).RunsWith script (Rules.ofDepth depth) offset
        (Item.tokensOf items) := by
  cases rule with
  | forStartDeclaration opens =>
      obtain ⟨⟨read, _⟩, ⟨_, declaration⟩, _⟩ := accepted
      simp only [Item.tokensOf, List.append_nil] at deep ⊢
      have runs := declaration depth deep
      refine ⟨.bind_peek read ?_, fun next => firstClauseHasIn_of_declaration read opens runs⟩
      dsimp only
      rw [if_pos opens]
      exact .map _ runs
  | forStartNothing missing =>
      obtain ⟨⟨read, _⟩, _⟩ := accepted
      refine ⟨.bind_peek read ?_, fun next readNext => .bind_peek read ?_⟩
      · dsimp only
        rw [missing]
        exact .pure _
      · obtain rfl := read.unique readNext
        rw [if_pos missing, missing]
        exact .pure _
  | forStartExpression noDeclaration present =>
      obtain ⟨⟨read, _⟩, ⟨_, value⟩, _⟩ := accepted
      simp only [Item.tokensOf, List.append_nil] at deep ⊢
      have runs := value depth deep
      refine ⟨.bind_peek read ?_,
        fun next => firstClauseHasIn_of_expression read noDeclaration present runs⟩
      dsimp only
      rw [if_neg (by simp [noDeclaration]), if_neg present]
      exact .map _ runs

/-- The target of a loop is accepted, and read ahead before that. -/
theorem forInTarget_runs {value : ForInTarget}
    (rule : StatementRule script span (.forInTarget value) items)
    (accepted : Accepted script items offset) (deep : (Item.tokensOf items).length ≤ depth)
    : (Phrase.forInTarget value).RunsWith script (Rules.ofDepth depth) offset
        (Item.tokensOf items) := by
  cases rule with
  | forInTargetDeclaration opens single =>
      obtain ⟨⟨read, _⟩, ⟨_, declaration⟩, _⟩ := accepted
      simp only [Item.tokensOf, List.append_nil] at deep ⊢
      have runs := declaration depth deep
      refine ⟨.bind_peek read ?_, fun next => firstClauseHasIn_of_declaration read opens runs⟩
      rw [if_pos opens]
      refine .bind_pure runs fun _ => ?_
      rw [if_pos single]
      exact .pure _
  | forInTargetExpression noDeclaration present target =>
      obtain ⟨⟨read, _⟩, ⟨_, value⟩, _⟩ := accepted
      simp only [Item.tokensOf, List.append_nil] at deep ⊢
      have runs := value depth deep
      refine ⟨.bind_peek read ?_,
        fun next => firstClauseHasIn_of_expression read noDeclaration present runs⟩
      rw [if_neg (by simp [noDeclaration])]
      exact .bind_pure runs fun _ => .bind_of_nil (runs_requireTarget target) (.pure _)

-----------------------------------------------------------------------------------------
-- Statements
-----------------------------------------------------------------------------------------

/-- The statement is read by what its first two tokens select. -/
theorem selected_runs {rules : Rules} {inAllowed : Bool} {value : Stmt} {first second : Token}
    {parser : Rules → Bool → Parser Stmt} (readFirst : script.Reads .standard offset first)
    (readSecond : script.Reads .standard first.span.stop second)
    (selects : Selects first.kind second.kind parser)
    (runs : Runs script (parser rules inAllowed) offset tokens value)
    : Runs script (statement rules inAllowed) offset tokens value := by
  rw [statement_eq_bind_selected]
  refine .bind_peekMany_two readFirst readSecond ?_
  rw [selects.selected_eq]
  exact runs

/-- There is a token after any other, so two of them can be looked at where one selects the parser. -/
theorem selected_runs_of_first {rules : Rules} {inAllowed : Bool} {value : Stmt} {first : Token}
    {parser : Rules → Bool → Parser Stmt} (read : script.Reads .standard offset first)
    (selects : ∀ second, Selects first.kind second parser)
    (runs : Runs script (parser rules inAllowed) offset tokens value)
    : Runs script (statement rules inAllowed) offset tokens value := by
  obtain ⟨rest, cut⟩ := Token.isBoundary_stop read
  obtain ⟨second, readSecond⟩ := Token.exists_read? .standard ⟨rest, cut⟩
  exact selected_runs read readSecond (selects second.kind) runs

/-- Most statements are opened by their first token and are as long as all that their parser consumes. -/
theorem opened_runs {rules : Rules} {inAllowed : Bool} {first : Token}
    {parser : Rules → Bool → Parser Stmt} {inner : Parser (Span → Stmt)} {build : Span → Stmt}
    (read : script.Reads .standard offset first) (opens : Opens first.kind parser)
    (spanned : parser rules inAllowed = Parser.spanned inner)
    (spans : Token.spanOf (first :: tokens) = span)
    (runs : Runs script inner offset (first :: tokens) build)
    : Runs script (statement rules inAllowed) offset (first :: tokens) (build span) := by
  refine selected_runs_of_first read (fun _ => .opened opens) ?_
  rw [spanned]
  exact runs.spanned spans (List.cons_ne_nil _ _)

/-- A block begins with a brace. -/
theorem Parses.opens_block {inAllowed : Bool} {value : Block}
    (derivation : Parses script (.phrase (.block inAllowed value)) offset tokens)
    : ∃ brace, script.Reads .standard offset brace ∧ brace.kind = .braceOpen := by
  obtain ⟨items, rfl, rule, components⟩ := derivation.statement_components rfl
  cases rule with
  | blockOf opens => exact ⟨_, components.1, opens⟩

/-- A declaration begins with one of its keywords. -/
theorem Parses.opens_declaration {inAllowed : Bool} {place : DeclarationPlace}
    {value : Declaration}
    (derivation : Parses script (.phrase (.declaration inAllowed place value)) offset tokens)
    : ∃ keyword, script.Reads .standard offset keyword ∧ opensDeclaration keyword.kind := by
  obtain ⟨items, rfl, rule, components⟩ := derivation.statement_components rfl
  have opens {kind : Kind} {mode : DeclarationMode}
      (declares : script.declarationMode? kind = some mode) : opensDeclaration kind := by
    unfold Script.declarationMode? at declares
    split_ifs at declares with reserved isConst isVar
    · simp [opensDeclaration, isConst]
    · simp [opensDeclaration, isVar]
  cases rule with
  | declarationStatement declares => exact ⟨_, components.1, opens declares⟩
  | declarationHeader declares => exact ⟨_, components.1, opens declares⟩

/-- An expression and what ends it are accepted as a statement. -/
theorem expressionStatement_runs {inAllowed : Bool} {value : Expr} {front back : List Token}
    (spans : Token.spanOf (front ++ back) = span) (present : front ≠ [])
    (runs : Runs script (expression (Rules.ofDepth depth) inAllowed) offset front value)
    (ends : Runs script requireStatementEnd (Token.endOf offset front) back ⟨⟩)
    : Runs script (expressionStatement (Rules.ofDepth depth) inAllowed) offset (front ++ back)
        (.expression span value) := by
  apply Runs.spanned spans (List.append_ne_nil_of_left_ne_nil present back)
  exact .bind runs (.bind_pure ends fun _ => .pure _)

/-- A `for` loop is read from its keyword again after its kind was found. -/
theorem forStatement_runs {inAllowed hasIn : Bool} {value : Stmt} {keyword bracket : Token}
    {front : List Token} (read : script.Reads .standard offset keyword)
    (opens : keyword.kind = .keywordFor)
    (readBracket : script.Reads .standard keyword.span.stop bracket)
    (parenthesis : bracket.kind = .parenthesisOpen)
    (probed : Runs script (firstClauseHasIn (Rules.ofDepth depth)) bracket.span.stop front hasIn)
    (runs
      : Runs script
          (if hasIn then forInStatement (Rules.ofDepth depth) inAllowed
            else forLoopStatement (Rules.ofDepth depth) inAllowed)
          offset tokens value)
    : Runs script (statement (Rules.ofDepth depth) inAllowed) offset tokens value := by
  have header : Runs script (forHeaderHasIn (Rules.ofDepth depth)) offset _ hasIn :=
    .bind_discard_require read opens (.bind_discard_require readBracket parenthesis probed)
  exact selected_runs_of_first read (fun _ => .opened (.forLoop opens)) (.lookahead header runs)

/-- A statement is accepted by the parser that its first tokens select, by cases on its production. -/
theorem statement_runs {inAllowed : Bool} {value : Stmt}
    (rule : StatementRule script span (.statement inAllowed value) items)
    (spans : Token.spanOf (Item.tokensOf items) = span)
    (accepted : Accepted script items offset) (deep : (Item.tokensOf items).length ≤ depth)
    : Runs script (statement (Rules.ofDepth depth) inAllowed) offset (Item.tokensOf items)
        value := by
  cases rule with
  | block =>
      obtain ⟨⟨derived, block⟩, _⟩ := accepted
      simp only [Item.tokensOf, List.append_nil] at deep ⊢
      obtain ⟨brace, read, opens⟩ := derived.opens_block
      exact selected_runs_of_first read (fun _ => .opened (.block opens)) (.map _ (block depth deep))
  | declaration =>
      obtain ⟨⟨derived, declaration⟩, _⟩ := accepted
      simp only [Item.tokensOf, List.append_nil] at deep ⊢
      obtain ⟨keyword, read, opens⟩ := derived.opens_declaration
      exact selected_runs_of_first read (fun _ => .opened (.declaration opens))
        (.map _ (declaration depth deep))
  | breakTo opens =>
      obtain ⟨read, ⟨_, label⟩, _⟩ := accepted
      apply opened_runs read (.breakTo opens) rfl spans
      exact .bind_discard_require read opens (.bind (label _ (Nat.le_refl _)) (.pure _))
  | continueTo opens =>
      obtain ⟨read, ⟨_, label⟩, _⟩ := accepted
      apply opened_runs read (.continueTo opens) rfl spans
      exact .bind_discard_require read opens (.bind (label _ (Nat.le_refl _)) (.pure _))
  | debugger opens =>
      obtain ⟨read, ⟨_, ends⟩, _⟩ := accepted
      apply opened_runs read (.debugger opens) rfl spans
      exact .bind_discard_require read opens (.bind (ends _ (Nat.le_refl _)) (.pure _))
  | empty opens =>
      apply opened_runs accepted.1 (.empty opens) rfl spans
      exact .bind_discard_require accepted.1 opens (.pure _)
  | expression plain unnamed =>
      obtain ⟨⟨read, _⟩, ⟨derived, value⟩, ⟨_, ends⟩, _⟩ := accepted
      simp only [Item.tokensOf, List.length_append, List.append_nil] at deep spans ⊢
      refine selected_runs_of_first read
        (fun _ => .expression plain fun named => absurd named unnamed) ?_
      exact expressionStatement_runs spans (derived.ne_nil rfl) (value depth (by omega))
        (ends depth (by omega))
  | expressionNamed named noLabel =>
      obtain ⟨⟨read, readSecond, _⟩, ⟨derived, value⟩, ⟨_, ends⟩, _⟩ := accepted
      simp only [Item.tokensOf, List.length_append, List.append_nil] at deep spans ⊢
      refine selected_runs read readSecond
        (.expression (by rw [named]; rfl) fun _ => noLabel) ?_
      exact expressionStatement_runs spans (derived.ne_nil rfl) (value depth (by omega))
        (ends depth (by omega))
  | labelled named divides =>
      obtain ⟨read, readColon, ⟨_, inner⟩, _⟩ := accepted
      simp only [Item.tokensOf, List.length_cons, List.length_append, List.length_nil] at deep
      refine selected_runs read readColon (.labelled named divides) ?_
      apply Runs.spanned spans (List.cons_ne_nil _ _)
      refine .bind_requireIdentifier read named (.bind_discard_require readColon divides ?_)
      exact .bind (inner.statement (by omega)) (.pure _)
  | returnValue opens =>
      obtain ⟨read, ⟨_, value⟩, _⟩ := accepted
      simp only [Item.tokensOf, List.length_cons, List.length_append, List.length_nil] at deep
      apply opened_runs read (.returnValue opens) rfl spans
      exact .bind_discard_require read opens (.bind (value depth (by omega)) (.pure _))
  | throwValue opens =>
      obtain ⟨read, ⟨_, value⟩, _⟩ := accepted
      simp only [Item.tokensOf, List.length_cons, List.length_append, List.length_nil] at deep
      apply opened_runs read (.throwValue opens) rfl spans
      exact .bind_discard_require read opens (.bind (value depth (by omega)) (.pure _))
  | function opens named =>
      obtain ⟨read, readName, ⟨_, function⟩, _⟩ := accepted
      simp only [Item.tokensOf, List.length_cons, List.length_append, List.length_nil] at deep
      apply opened_runs read (.function opens) rfl spans
      refine .bind_discard_require read opens (.bind_requireIdentifier readName named ?_)
      exact .bind (function depth (by omega)) (.pure _)
  | ifElse opens otherwise =>
      obtain ⟨read, ⟨_, test⟩, ⟨_, consequent⟩, readElse, ⟨_, alternate⟩, _⟩ := accepted
      simp only [Item.tokensOf, List.length_cons, List.length_append, List.length_nil] at deep
      apply opened_runs read (.ifElse opens) rfl spans
      refine .bind_discard_require read opens (.bind (test depth (by omega)) ?_)
      refine .bind (consequent.statement (by omega)) (.bind_accept_taken readElse otherwise ?_)
      exact .bind (alternate.statement (by omega)) (.pure _)
  | ifOnly opens noElse =>
      obtain ⟨read, ⟨_, test⟩, ⟨_, consequent⟩, ⟨readNext, _⟩, _⟩ := accepted
      simp only [Item.tokensOf, List.length_cons, List.length_append, List.length_nil] at deep
      apply opened_runs read (.ifElse opens) rfl spans
      refine .bind_discard_require read opens (.bind (test depth (by omega)) ?_)
      exact .bind (consequent.statement (by omega)) (.bind_accept_left readNext noElse (.pure _))
  | whileLoop opens =>
      obtain ⟨read, ⟨_, condition⟩, ⟨_, body⟩, _⟩ := accepted
      simp only [Item.tokensOf, List.length_cons, List.length_append, List.length_nil] at deep
      apply opened_runs read (.whileLoop opens) rfl spans
      refine .bind_discard_require read opens (.bind (condition depth (by omega)) ?_)
      exact .bind (body.statement (by omega)) (.pure _)
  | withObject opens =>
      obtain ⟨read, ⟨_, object⟩, ⟨_, body⟩, _⟩ := accepted
      simp only [Item.tokensOf, List.length_cons, List.length_append, List.length_nil] at deep
      apply opened_runs read (.withObject opens) rfl spans
      refine .bind_discard_require read opens (.bind (object depth (by omega)) ?_)
      exact .bind (body.statement (by omega)) (.pure _)
  | doWhileEnded opens loops ends =>
      obtain ⟨read, ⟨_, body⟩, readWhile, ⟨_, condition⟩, readMark, _⟩ := accepted
      simp only [Item.tokensOf, List.length_cons, List.length_append, List.length_nil] at deep
      apply opened_runs read (.doWhile opens) rfl spans
      refine .bind_discard_require read opens (.bind (body.statement (by omega)) ?_)
      refine .bind_discard_require readWhile loops (.bind (condition depth (by omega)) ?_)
      exact .bind (.discard (.accept_taken readMark ends)) (.pure _)
  | doWhile opens loops noEnd =>
      obtain ⟨read, ⟨_, body⟩, readWhile, ⟨_, condition⟩, ⟨readNext, _⟩, _⟩ := accepted
      simp only [Item.tokensOf, List.length_cons, List.length_append, List.length_nil] at deep
      apply opened_runs read (.doWhile opens) rfl spans
      refine .bind_discard_require read opens (.bind (body.statement (by omega)) ?_)
      refine .bind_discard_require readWhile loops (.bind (condition depth (by omega)) ?_)
      exact .bind_of_nil (.discard (.accept_left readNext noEnd)) (.pure _)
  | switch opens encloses closes =>
      obtain ⟨read, ⟨_, test⟩, readBrace, ⟨derived, branches⟩, readClose, _⟩ := accepted
      simp only [Item.tokensOf, List.length_cons, List.length_append, List.length_nil] at deep
      apply opened_runs read (.switch opens) rfl spans
      refine .bind_discard_require read opens (.bind (test depth (by omega)) ?_)
      refine .bind_discard_require readBrace encloses ?_
      refine .bind (.bind_repetitions fun bound enough => ?_)
        (.bind_discard_require readClose closes (.pure _))
      refine branches _ _ _ rfl (fun _ => rfl) ?_ _ (Nat.lt_of_le_of_lt derived.length_le enough)
      exact fun value offset tokens short complete => complete depth (by omega)
  | tryBlock opens guarded =>
      obtain ⟨read, ⟨_, block⟩, ⟨_, handler⟩, ⟨_, finalizer⟩, _⟩ := accepted
      simp only [Item.tokensOf, List.length_cons, List.length_append, List.length_nil] at deep
      apply opened_runs read (.tryBlock opens) rfl spans
      refine .bind_require read opens (.bind (block depth (by omega)) ?_)
      refine .bind (handler _ _ _ rfl ?_) (.bind (finalizer _ _ _ rfl ?_) ?_)
      · exact fun value offset tokens short complete => complete depth (by omega)
      · exact fun value offset tokens short complete => complete depth (by omega)
      · simp only [← Option.not_isSome]
        rcases guarded with handled | finished
        · rw [handled, Bool.not_true, Bool.false_and, if_neg Bool.false_ne_true]
          exact .pure _
        · rw [finished, Bool.not_true, Bool.and_false, if_neg Bool.false_ne_true]
          exact .pure _
  | forIn opens parenthesis within closes =>
      obtain ⟨read, readBracket, ⟨_, target⟩, readIn, ⟨_, object⟩, readClose, ⟨_, body⟩, _⟩ :=
        accepted
      simp only [Item.tokensOf, List.length_cons, List.length_append, List.length_nil] at deep
      obtain ⟨runs, probed⟩ := target depth (by omega)
      refine forStatement_runs read opens readBracket parenthesis (probed _ readIn) ?_
      rw [if_pos (decide_eq_true within)]
      apply Runs.spanned spans (List.cons_ne_nil _ _)
      refine .bind_discard_require read opens (.bind_discard_require readBracket parenthesis ?_)
      refine .bind runs (.bind_discard_require readIn within ?_)
      refine .bind (object depth (by omega)) (.bind_discard_require readClose closes ?_)
      exact .bind (body.statement (by omega)) (.pure _)
  | forLoop opens parenthesis divides =>
      obtain ⟨read, readBracket, ⟨_, start⟩, readMark, ⟨_, condition⟩, ⟨_, update⟩, ⟨_, body⟩, _⟩ :=
        accepted
      simp only [Item.tokensOf, List.length_cons, List.length_append, List.length_nil] at deep
      obtain ⟨runs, probed⟩ := start depth (by omega)
      refine forStatement_runs read opens readBracket parenthesis (probed _ readMark) ?_
      rw [if_neg (by simp [divides])]
      apply Runs.spanned spans (List.cons_ne_nil _ _)
      refine .bind_discard_require read opens (.bind_discard_require readBracket parenthesis ?_)
      refine .bind runs (.bind_discard_require readMark divides ?_)
      refine .bind (condition depth (by omega)) (.bind (update depth (by omega)) ?_)
      exact .bind (body.statement (by omega)) (.pure _)

end EcmaSyntax.Grammar
