import EcmaSyntax.Proofs.Grammar.Completeness.Statement
import EcmaSyntax.Proofs.Grammar.Soundness.Program

/-! What parses as a program is accepted, and so is what parses as an expression. -/

namespace EcmaSyntax

open EcmaSyntax.Parser EcmaSyntax.Grammar

variable {script : Script} {span : Span} {items : List Item} {offset : Nat} {tokens : List Token}

namespace Grammar

/-- What a production of expressions derives is accepted, given that its parts are. -/
theorem ExpressionRule.complete {phrase : Phrase} (rule : ExpressionRule script span phrase items)
    (spans : Token.spanOf (Item.tokensOf items) = span) (accepted : Accepted script items offset)
    : phrase.Complete script offset (Item.tokensOf items) := by
  intro depth deep
  cases phrase with
  | expression => exact expressionFrom_runs rule accepted deep
  | operand => exact operand_runs rule accepted deep
  | primary => exact primary_runs rule spans accepted deep
  | operators => exact fun bound enough => operators_runs rule accepted deep enough
  | continuation => exact fun token => continuation_runs rule accepted deep
  | access => exact access_runs rule accepted deep
  | accesses => exact fun bound enough => accesses_runs rule accepted deep enough
  | arguments => exact arguments_runs rule spans accepted deep
  | elements =>
      have deeper := Nat.lt_succ_of_le deep
      exact fun bound enough => elements_runs rule accepted deeper enough
  | member => exact member_runs rule spans accepted deep
  | function => exact function_runs rule spans accepted deep
  | parameter => exact parameter_runs rule spans accepted
  | body => exact body_runs rule spans accepted deep
  | _ => cases rule

/-- What a production of statements derives is accepted, given that its parts are. -/
theorem StatementRule.complete {phrase : Phrase} (rule : StatementRule script span phrase items)
    (spans : Token.spanOf (Item.tokensOf items) = span) (accepted : Accepted script items offset)
    : phrase.Complete script offset (Item.tokensOf items) := by
  intro depth deep
  cases phrase with
  | statement => exact statement_runs rule spans accepted deep
  | statementEnd => exact statementEnd_runs rule accepted
  | jumpLabel => exact jumpLabel_runs rule accepted
  | restrictedOperand => exact restrictedOperand_runs rule accepted deep
  | condition => exact condition_runs rule accepted deep
  | block => exact block_runs rule spans accepted deep
  | declaration => exact declaration_runs rule spans accepted deep
  | declarator => exact declarator_runs rule accepted deep
  | initializer => exact initializer_runs rule spans accepted deep
  | handler => exact handler_runs rule spans accepted deep
  | branch => exact branch_runs rule spans accepted deep
  | branchTest => exact branchTest_runs rule accepted deep
  | forStart => exact forStart_runs rule accepted deep
  | forClause => exact forClause_runs rule accepted deep
  | forInTarget => exact forInTarget_runs rule accepted deep
  | _ => cases rule

/-- What a repetition derives is accepted, given that its items are. -/
theorem RepetitionRule.complete {nonterminal : Nonterminal}
    (rule : RepetitionRule nonterminal items) (accepted : Accepted script items offset)
    : nonterminal.Complete script offset (Item.tokensOf items) := by
  cases nonterminal with
  | phrase => cases rule
  | list => exact list_complete rule accepted
  | listTail => exact listTail_complete rule accepted
  | looseList => exact looseList_complete rule accepted
  | separated => exact separated_complete rule accepted
  | repeated => exact repeated_complete rule accepted
  | afterKeyword => exact afterKeyword_complete rule accepted

/-- What parses is accepted by rules for as many levels as there are tokens. -/
theorem Parses.complete {nonterminal : Nonterminal}
    (derivation : Parses script nonterminal offset tokens)
    : nonterminal.Complete script offset tokens := by
  refine derivation.induction
    (motive := fun nonterminal offset tokens => nonterminal.Complete script offset tokens) ?_
  intro nonterminal items offset rule accepted
  cases rule with
  | expression rule => exact rule.complete rfl accepted
  | statement rule => exact rule.complete rfl accepted
  | repetition rule => exact rule.complete accepted

-----------------------------------------------------------------------------------------
-- Whole texts
-----------------------------------------------------------------------------------------

/-- The rules that are as high as the source is long are high enough. -/
theorem withRules_of_runs {α : Type} {production : Rules → Parser α} {value : α}
    {state : ParserState} (shows : state.Shows script [])
    (runs : Runs script (production (Rules.ofSource script.source)) 0 tokens value)
    : ∃ after, withRules production state = .ok value after ∧ after.Shows script tokens := by
  obtain ⟨after, ran, shown⟩ := runs _ _ shows rfl
  refine ⟨after, ?_, shown⟩
  unfold withRules
  rw [bind_of_ok _ (rfl : (get : Parser ParserState) state = .ok state state), shows.source_eq, ran]

/-- An expression at the beginning of a text is accepted, and what follows it is left. -/
theorem expression_complete {state : ParserState} {inAllowed : Bool} {value : Expr}
    (shows : state.Shows script [])
    (derivation : Parses script (.phrase (.expression inAllowed 1 value)) 0 tokens)
    : ∃ after,
        withRules (fun rules => expression rules inAllowed) state = .ok value after
        ∧ after.Shows script tokens :=
  withRules_of_runs shows (derivation.complete _ (derivation.length_le.trans (Nat.le_add_right _ 2)))

/-- A program that holds of the text is accepted, and the whole text is consumed. -/
theorem program_complete {state : ParserState} {statements : List Stmt} {last : Token}
    (shows : state.Shows script []) (holds : script.Holds statements tokens last)
    : ∃ after,
        withRules Grammar.program state
          = .ok
              {
                span :=
                  {
                    start := 0
                    stop := Text.size script.source
                  }
                body := statements
              }
              after
        ∧ after.Shows script (tokens ++ [last]) := by
  have short := holds.statements.length_le
  have body
      : Runs script ((Rules.ofSource script.source).statements true .endOfInput) 0 tokens
          statements := by
    refine .bind_repetitions fun bound enough => ?_
    refine holds.statements.complete _ _ _ rfl (fun _ => rfl) ?_ _ (Nat.lt_of_le_of_lt short enough)
    exact accepts_statement true (Nat.lt_add_right 1 (Nat.lt_succ_of_le short))
  refine withRules_of_runs shows (.bind body ?_)
  refine .bind_discard_require holds.read holds.ends ?_
  intro state consumed shown ends
  refine ⟨state, ?_, by simpa using shown⟩
  rw [bind_of_ok _ (rfl : (get : Parser ParserState) state = .ok state state)]
  unfold ParserState.sourceSpan
  rw [shown.source_eq]
  rfl

end Grammar

end EcmaSyntax
