import EcmaSyntax.Proofs.Grammar.Constituents
import EcmaSyntax.Proofs.Tree.Grouping

/-! Chains of operators as expressions. What parses where the operator `in` is not allowed parses where it is,
unless `in` follows; and a chain is an expression of the least precedence, if no operator goes on from it.
-/

namespace EcmaSyntax

open EcmaSyntax.Grammar

variable {script : Script} {offset : Nat} {tokens front back : List Token}

/-- The word `in` does not follow. -/
def Script.NoIn (script : Script) (offset : Nat) : Prop :=
  ∀ next, script.Reads .standard offset next → next.kind ≠ .keywordIn

/-- Another token than `in` follows. -/
theorem Script.NoIn.of_reads {next : Token} (read : script.Reads .standard offset next)
    (plain : next.kind ≠ .keywordIn)
    : script.NoIn offset := by
  intro other readOther
  rwa [readOther.unique read]

namespace Grammar

variable {items : List Item} {span : Span}

theorem ne_keywordIn_of_updateOperator? {token : Token} {operator : Operator}
    (updates : updateOperator? token = some operator)
    : token.kind ≠ .keywordIn := by
  intro isIn
  simp [updateOperator?, isIn] at updates

/-- Only the word `in` opens the operator. -/
theorem eq_keywordIn_of_infixOperator? {kind : Kind} (opens : kind.infixOperator? = some .isIn)
    : kind = .keywordIn := by
  cases kind <;> first | rfl | cases opens

/-- An operator that is allowed where `in` is not is opened by another token. -/
theorem ne_keywordIn_of_infixOperator? {kind : Kind} {operator : Operator}
    (opens : kind.infixOperator? = some operator) (allowed : operator = .isIn → false = true)
    : kind ≠ .keywordIn := by
  rintro rfl
  cases opens
  cases allowed rfl

/-- Operators that stop where `in` is not allowed stop where it is, unless they stop at `in`. -/
theorem StopsOperators.allowing {least : Nat} {token : Token}
    (stops : StopsOperators false least token) (plain : token.kind ≠ .keywordIn)
    : StopsOperators true least token := by
  unfold StopsOperators at stops ⊢
  split at stops
  · exact stops
  · intro operator opens
    rcases stops operator opens with looser | ⟨rfl, _⟩
    · exact .inl looser
    · exact absurd (eq_keywordIn_of_infixOperator? opens) plain

/-- The phrase parses where `in` is allowed, too, if `in` does not follow. Then `in` is not in front of
operators, either.
-/
def Nonterminal.Relaxes (script : Script) (offset : Nat) (tokens : List Token)
    : Nonterminal → Prop
  | phrase (.expression inAllowed least value) =>
      inAllowed = false →
      script.NoIn (Token.endOf offset tokens) →
      Parses script (.phrase (.expression true least value)) offset tokens
  | phrase (.operand inAllowed value) =>
      inAllowed = false →
      script.NoIn (Token.endOf offset tokens) →
      Parses script (.phrase (.operand true value)) offset tokens
  | phrase (.operators inAllowed least left value) =>
      inAllowed = false →
      script.NoIn (Token.endOf offset tokens) →
      script.NoIn offset
      ∧ Parses script (.phrase (.operators true least left value)) offset tokens
  | phrase (.continuation inAllowed operator left value) =>
      inAllowed = false →
      script.NoIn (Token.endOf offset tokens) →
      Parses script (.phrase (.continuation true operator left value)) offset tokens
  | _ => True

/-- A production of expressions parses where `in` is allowed, too, if its parts do. -/
theorem ExpressionRule.relaxes {phrase : Phrase} (rule : ExpressionRule script span phrase items)
    (components
      : Components script
          (fun part offset tokens =>
            Parses script part offset tokens ∧ part.Relaxes script offset tokens) items offset)
    : (Nonterminal.phrase phrase).Relaxes script offset (Item.tokensOf items) := by
  cases rule with
  | expression =>
      rintro rfl follows
      obtain ⟨⟨_, operand⟩, ⟨_, operators⟩, _⟩ := components
      simp only [Item.tokensOf, List.append_nil, Token.endOf_append] at follows
      obtain ⟨between, operators⟩ := operators rfl follows
      exact .intro (.expression .expression)
        (.part (operand rfl between) (.part operators .nil)) rfl
  | operandPlain =>
      rintro rfl follows
      exact .intro (.expression .operandPlain) (.part components.1.1 .nil) rfl
  | operandPrefixed opens target =>
      rintro rfl follows
      obtain ⟨read, ⟨_, argument⟩, _⟩ := components
      simp only [Item.tokensOf, List.append_nil, Token.endOf_cons] at follows
      exact .intro (.expression (.operandPrefixed opens target))
        (.token read (.part (argument rfl follows) .nil)) rfl
  | operatorsNone stops =>
      rintro rfl follows
      obtain ⟨⟨read, _⟩, _⟩ := components
      have stops := stops.allowing (follows _ read)
      exact ⟨follows, .intro (.expression (.operatorsNone stops)) (.ahead ⟨read, trivial⟩ .nil) rfl⟩
  | operatorsUpdate updates binds target =>
      rintro rfl follows
      obtain ⟨read, ⟨_, operators⟩, _⟩ := components
      simp only [Item.tokensOf, List.append_nil, Token.endOf_cons] at follows
      obtain ⟨_, operators⟩ := operators rfl follows
      exact ⟨.of_reads read (ne_keywordIn_of_updateOperator? updates),
        .intro (.expression (.operatorsUpdate updates binds target))
          (.token read (.part operators .nil)) rfl⟩
  | operatorsMore noUpdate opens binds allowed =>
      rintro rfl follows
      obtain ⟨⟨read, _⟩, ⟨_, continuation⟩, ⟨_, operators⟩, _⟩ := components
      simp only [Item.tokensOf, List.append_nil, Token.endOf_append] at follows
      obtain ⟨between, operators⟩ := operators rfl follows
      exact ⟨.of_reads read (ne_keywordIn_of_infixOperator? opens allowed),
        .intro (.expression (.operatorsMore noUpdate opens binds fun _ => rfl))
          (.ahead ⟨read, trivial⟩
            (.part (continuation rfl between) (.part operators .nil))) rfl⟩
  | continuationCall =>
      rintro rfl follows
      exact .intro (.expression .continuationCall) (.part components.1.1 .nil) rfl
  | continuationAccess isAccess =>
      rintro rfl follows
      exact .intro (.expression (.continuationAccess isAccess)) (.part components.1.1 .nil) rfl
  | continuationConditional opens divides =>
      rintro rfl follows
      obtain ⟨question, ⟨consequent, _⟩, colon, ⟨_, alternate⟩, _⟩ := components
      simp only [Item.tokensOf, List.append_nil, Token.endOf_cons, Token.endOf_append] at follows
      exact .intro (.expression (.continuationConditional opens divides))
        (.token question
          (.part consequent (.token colon (.part (alternate rfl follows) .nil)))) rfl
  | continuationBinary opens isBinary target =>
      rintro rfl follows
      obtain ⟨read, ⟨_, right⟩, _⟩ := components
      simp only [Item.tokensOf, List.append_nil, Token.endOf_cons] at follows
      exact .intro (.expression (.continuationBinary opens isBinary target))
        (.token read (.part (right rfl follows) .nil)) rfl
  | _ => trivial

/-- Where no `in` follows, `in` may be allowed. -/
theorem Parses.relaxes {nonterminal : Nonterminal}
    (derivation : Parses script nonterminal offset tokens)
    : nonterminal.Relaxes script offset tokens := by
  refine derivation.induction
    (motive := fun nonterminal offset tokens => nonterminal.Relaxes script offset tokens) ?_
  intro nonterminal items offset rule components
  cases rule with
  | expression rule => exact rule.relaxes components
  | statement rule => cases rule <;> trivial
  | repetition rule => cases rule <;> trivial

/-- A chain is one where `in` is allowed, too, unless `in` follows. -/
theorem Chains.allowing {inAllowed : Bool} {value : Expr}
    (chains : Chains script inAllowed offset tokens value)
    (follows : script.NoIn (Token.endOf offset tokens))
    : Chains script true offset tokens value := by
  cases inAllowed with
  | true => exact chains
  | false =>
      induction chains with
      | operand operand => exact .operand (operand.relaxes rfl follows)
      | update _ read updates assignable ih =>
          have between := Script.NoIn.of_reads read (ne_keywordIn_of_updateOperator? updates)
          exact .update (ih between) read updates assignable
      | more _ read opens allowed continuation ih =>
          rw [Token.endOf_append] at follows
          have between := Script.NoIn.of_reads read (ne_keywordIn_of_infixOperator? opens allowed)
          exact .more (ih between) read opens (fun _ => rfl) (continuation.relaxes rfl follows)

/-- Operators of any precedence go on from a chain. -/
theorem Chains.expression_append {inAllowed : Bool} {left value : Expr}
    (chains : Chains script inAllowed offset front left)
    (operators
      : Parses script (.phrase (.operators inAllowed 1 left value)) (Token.endOf offset front) back)
    : Parses script (.phrase (.expression inAllowed 1 value)) offset (front ++ back) := by
  induction chains generalizing back with
  | operand operand =>
      exact .intro (.expression .expression) (.part operand (.part operators .nil))
        (by simp [Item.tokensOf])
  | @update _ _ _ operator _ read updates assignable ih =>
      rw [Token.endOf_append] at operators
      rw [List.append_assoc]
      refine ih (.intro ?_ (.token read (.part operators .nil)) (by simp [Item.tokensOf]))
      exact .expression (.operatorsUpdate updates operator.one_le_precedence assignable)
  | @more _ _ _ _ _ operator _ read opens allowed continuation ih =>
      rw [Token.endOf_append] at operators
      rw [List.append_assoc]
      refine ih ?_
      exact .intro
        (.expression
          (.operatorsMore (updateOperator?_of_infixOperator? opens) opens operator.one_le_precedence
            allowed))
        (.ahead ⟨read, trivial⟩ (.part continuation (.part operators .nil)))
        (by simp [Item.tokensOf])

/-- A chain that no operator goes on from is an expression. -/
theorem Chains.expression {inAllowed : Bool} {value : Expr} {next : Token}
    (chains : Chains script inAllowed offset tokens value)
    (read : script.Reads .standard (Token.endOf offset tokens) next)
    (stops : StopsOperators inAllowed 1 next)
    : Parses script (.phrase (.expression inAllowed 1 value)) offset tokens := by
  have none
      : Parses script (.phrase (.operators inAllowed 1 value value)) (Token.endOf offset tokens) [] :=
    .intro (.expression (.operatorsNone stops)) (.ahead ⟨read, trivial⟩ .nil) rfl
  simpa using chains.expression_append none

end Grammar

end EcmaSyntax
