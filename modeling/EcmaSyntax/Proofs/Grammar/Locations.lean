import EcmaSyntax.Proofs.Grammar.Constituents

/-! Where the nodes of a tree lie. Every node spans its tokens, from the first to the last, and the nodes
below a node have tokens of their own among those of the node.
-/

namespace EcmaSyntax

open EcmaSyntax.Grammar

variable {script : Script} {offset : Nat} {tokens front back : List Token}

-----------------------------------------------------------------------------------------
-- Tokens in a row
-----------------------------------------------------------------------------------------

/-- A token before the end of the input takes up bytes at or after the offset. -/
theorem Script.Reads.start_lt_stop {mode : LexMode} {token : Token}
    (read : script.Reads mode offset token) (present : token.kind ≠ .endOfInput)
    : offset ≤ token.span.start
      ∧ token.span.start < token.span.stop
      ∧ token.span.stop ≤ Text.size script.source := by
  obtain ⟨before, gap, text, rest, rfl, lies, origin⟩ := Token.read?_eq_some read
  have length := List.length_pos_iff.mpr (origin.text_ne_nil present)
  have bound := Text.length_le_size text
  have start_eq := lies.start_eq
  have stop_eq := lies.stop_eq
  rw [lies.source_eq]
  simp only [Text.size_append]
  omega

/-- A token of a kind with a text is consumed outside of operands. -/
theorem Script.Reads.consumes {token : Token} (read : script.Reads .standard offset token)
    (plain : token.kind.isPlain)
    : script.Consumes offset [token] := by
  simp only [Kind.isPlain, Bool.and_eq_true, bne_iff_ne] at plain
  refine ⟨?_, plain.1.1, trivial⟩
  rwa [Kind.mode, if_neg plain.2]

/-- Consuming tokens does not lead back, by induction on the tokens. -/
theorem Script.Consumes.le_endOf (consumes : script.Consumes offset tokens)
    : offset ≤ Token.endOf offset tokens := by
  induction tokens generalizing offset with
  | nil => exact Nat.le_refl _
  | cons token tokens ih =>
      obtain ⟨read, present, consumes⟩ := consumes
      have bounds := read.start_lt_stop present
      have := ih consumes
      rw [Token.endOf_cons]
      omega

/-- Consumed tokens end within the text. -/
theorem Script.Consumes.endOf_le (consumes : script.Consumes offset tokens) (present : tokens ≠ [])
    : Token.endOf offset tokens ≤ Text.size script.source := by
  induction tokens generalizing offset with
  | nil => exact absurd rfl present
  | cons token tokens ih =>
      obtain ⟨read, before, consumes⟩ := consumes
      rw [Token.endOf_cons]
      cases tokens with
      | nil => exact (read.start_lt_stop before).2.2
      | cons => exact ih consumes (List.cons_ne_nil _ _)

/-- A character begins, or the text ends, where consumed tokens end. -/
theorem Script.Consumes.isBoundary_endOf (consumes : script.Consumes offset tokens)
    (present : tokens ≠ [])
    : Text.IsBoundary script.source (Token.endOf offset tokens) := by
  induction tokens generalizing offset with
  | nil => exact absurd rfl present
  | cons token tokens ih =>
      cases tokens with
      | nil => exact Token.isBoundary_stop consumes.1
      | cons => exact ih consumes.2.2 (List.cons_ne_nil _ _)

/-- The span of tokens in a row is not empty and ends where they end. -/
theorem Script.Consumes.spanOf (consumes : script.Consumes offset tokens) (present : tokens ≠ [])
    : offset ≤ (Token.spanOf tokens).start
      ∧ (Token.spanOf tokens).start < (Token.spanOf tokens).stop
      ∧ (Token.spanOf tokens).stop = Token.endOf offset tokens := by
  obtain ⟨token, tokens, rfl⟩ := List.exists_cons_of_ne_nil present
  obtain ⟨read, before, consumes⟩ := consumes
  have bounds := read.start_lt_stop before
  exact ⟨bounds.1, Nat.lt_of_lt_of_le bounds.2.1 consumes.le_endOf, rfl⟩

/-- The tokens are consumed one after the other from the offset on, at least one, and the span is theirs. -/
structure Script.Spans (script : Script) (offset : Nat) (tokens : List Token) (span : Span) : Prop where
  consumes : script.Consumes offset tokens
  present : tokens ≠ []
  span_eq : span = Token.spanOf tokens

namespace Script.Spans

theorem of_token {token : Token} (consumes : script.Consumes offset [token])
    : script.Spans offset [token] token.span :=
  ⟨consumes, List.cons_ne_nil _ _, rfl⟩

/-- The spans of the first and of the last of some tokens in a row cover the span of all of them. -/
theorem cover (middle : List Token) {first second : Span} (left : script.Spans offset front first)
    (between : script.Consumes (Token.endOf offset front) middle)
    (right : script.Spans (Token.endOf (Token.endOf offset front) middle) back second)
    : script.Spans offset (front ++ (middle ++ back)) (first.cover second) := by
  have consumes := Script.consumes_append.mpr
    ⟨left.consumes, Script.consumes_append.mpr ⟨between, right.consumes⟩⟩
  refine ⟨consumes, by simp [left.present], ?_⟩
  have boundsFront := left.consumes.spanOf left.present
  have boundsBack := right.consumes.spanOf right.present
  have further := between.le_endOf
  have whole := (consumes.spanOf (by simp [left.present])).2.2
  rw [Token.endOf_append, Token.endOf_append, ← boundsBack.2.2] at whole
  have starts : (Token.spanOf (front ++ (middle ++ back))).start = (Token.spanOf front).start := by
    obtain ⟨token, tokens, rfl⟩ := List.exists_cons_of_ne_nil left.present
    rfl
  rw [left.span_eq, right.span_eq, Span.cover, Nat.min_eq_left (by omega),
    Nat.max_eq_right (by omega), ← starts, ← whole]

/-- Spans in a row are covered by the span from the beginning of one to the end of the other. -/
theorem cover_append {first second : Span} (left : script.Spans offset front first)
    (right : script.Spans (Token.endOf offset front) back second)
    : script.Spans offset (front ++ back) (first.cover second) :=
  left.cover [] trivial right

end Script.Spans

-----------------------------------------------------------------------------------------
-- Expressions span their tokens
-----------------------------------------------------------------------------------------

namespace Grammar

variable {span : Span} {items : List Item}

/-- A node spans its tokens; an expression that goes on from another spans those of the other as well. -/
def Phrase.Spans (script : Script) (offset : Nat) (tokens : List Token) : Phrase → Prop
  | expression _ _ value | operand _ value | primary value => script.Spans offset tokens value.span
  | statement _ value => script.Spans offset tokens value.span
  | member value => script.Spans offset tokens value.span
  | arguments value => script.Spans offset tokens value.span
  | function value => script.Spans offset tokens value.span
  | parameter value => script.Spans offset tokens value.span
  | body value => script.Spans offset tokens value.span
  | block _ value => script.Spans offset tokens value.span
  | declaration _ _ value => script.Spans offset tokens value.span
  | initializer _ value => script.Spans offset tokens value.span
  | handler _ value => script.Spans offset tokens value.span
  | branch _ value => script.Spans offset tokens value.span
  | operators _ _ left value | continuation _ _ left value | access _ left value
  | accesses left value =>
      ∀ origin front,
        script.Spans origin front left.span →
        Token.endOf origin front = offset →
        script.Spans origin (front ++ tokens) value.span
  | _ => True

def Nonterminal.Spans (script : Script) (offset : Nat) (tokens : List Token) : Nonterminal → Prop
  | phrase inner => inner.Spans script offset tokens
  | _ => True

/-- What a production of expressions makes spans its tokens, given that its parts do. -/
theorem ExpressionRule.spans {phrase : Phrase}
    (rule : ExpressionRule script (Token.spanOf (Item.tokensOf items)) phrase items)
    (whole : Parses script (.phrase phrase) offset (Item.tokensOf items))
    (components
      : Components script
          (fun part offset tokens =>
            Parses script part offset tokens ∧ part.Spans script offset tokens) items offset)
    : phrase.Spans script offset (Item.tokensOf items) := by
  have consumes := whole.consumes
  cases rule with
  | expression =>
      obtain ⟨⟨_, operand⟩, ⟨_, operators⟩, _⟩ := components
      simp only [Item.tokensOf, List.append_nil]
      exact operators _ _ operand rfl
  | operandPlain =>
      obtain ⟨⟨_, primary⟩, _⟩ := components
      simp only [Item.tokensOf, List.append_nil]
      exact primary
  | operandPrefixed =>
      obtain ⟨_, ⟨_, argument⟩, _⟩ := components
      simp only [Item.tokensOf, List.append_nil] at consumes ⊢
      exact (Script.Spans.of_token ⟨consumes.1, consumes.2.1, trivial⟩).cover_append argument
  | construct =>
      obtain ⟨_, ⟨head, _⟩, ⟨accesses, _⟩, _, ⟨_, arguments⟩, _⟩ := components
      simp only [Item.tokensOf, List.append_nil] at consumes ⊢
      rw [← List.append_assoc]
      refine (Script.Spans.of_token ⟨consumes.1, consumes.2.1, trivial⟩).cover _ ?_ ?_
      · exact Script.consumes_append.mpr ⟨head.consumes, accesses.consumes⟩
      · rwa [Token.endOf_append]
  | constructBare =>
      obtain ⟨_, ⟨_, head⟩, ⟨_, accesses⟩, _⟩ := components
      simp only [Item.tokensOf, List.append_nil] at consumes ⊢
      exact (Script.Spans.of_token ⟨consumes.1, consumes.2.1, trivial⟩).cover_append
        (accesses _ _ head rfl)
  | object | array | identifier | functionAnonymous | functionNamed | this | boolean | null
  | number | regex | string | parenthesized | arguments | memberProperty | memberGetter
  | memberSetter | function | parameter | body =>
      exact ⟨consumes, whole.ne_nil rfl, rfl⟩
  | operatorsNone | accessesNone =>
      intro origin front left _
      simpa only [Item.tokensOf, List.append_nil] using left
  | operatorsUpdate =>
      obtain ⟨_, ⟨_, operators⟩, _⟩ := components
      rintro origin front left rfl
      have token := Script.Spans.of_token ⟨consumes.1, consumes.2.1, trivial⟩
      have spans := operators _ _ (left.cover_append token) (by simp)
      simpa only [Item.tokensOf, List.append_nil, List.append_assoc, List.singleton_append] using spans
  | operatorsMore =>
      obtain ⟨_, ⟨_, continuation⟩, ⟨_, operators⟩, _⟩ := components
      rintro origin front left rfl
      have spans := operators _ _ (continuation _ _ left rfl) (by simp)
      simpa only [Item.tokensOf, List.append_nil, List.append_assoc] using spans
  | accessesMore =>
      obtain ⟨_, ⟨_, access⟩, ⟨_, accesses⟩, _⟩ := components
      rintro origin front left rfl
      have spans := accesses _ _ (access _ _ left rfl) (by simp)
      simpa only [Item.tokensOf, List.append_nil, List.append_assoc] using spans
  | accessMember =>
      rintro origin front left rfl
      refine left.cover [_] ⟨consumes.1, consumes.2.1, trivial⟩ ?_
      exact .of_token ⟨consumes.2.2.1, consumes.2.2.2.1, trivial⟩
  | accessIndex =>
      rintro origin front left rfl
      have split := Script.consumes_append.mp consumes.2.2
      exact left.cover (_ :: _) ⟨consumes.1, consumes.2.1, split.1⟩ (.of_token split.2)
  | continuationCall =>
      obtain ⟨⟨_, arguments⟩, _⟩ := components
      rintro origin front left rfl
      simp only [Item.tokensOf, List.append_nil]
      exact left.cover_append arguments
  | continuationAccess =>
      obtain ⟨⟨_, access⟩, _⟩ := components
      simp only [Item.tokensOf, List.append_nil]
      exact access
  | continuationConditional =>
      obtain ⟨_, ⟨consequent, _⟩, _, ⟨_, alternate⟩, _⟩ := components
      rintro origin front left rfl
      simp only [Item.tokensOf, List.append_nil] at consumes ⊢
      have split := (Script.consumes_append.mp consumes.2.2).2
      have colon : script.Consumes _ [_] := ⟨split.1, split.2.1, trivial⟩
      have between := Script.consumes_append.mpr ⟨consequent.consumes, colon⟩
      have whole := left.cover (_ :: (_ ++ [_])) ⟨consumes.1, consumes.2.1, between⟩
        (by rw [Token.endOf_cons, Token.endOf_append]; exact alternate)
      simpa [Expr.span] using whole
  | continuationBinary =>
      obtain ⟨_, ⟨_, right⟩, _⟩ := components
      rintro origin front left rfl
      simp only [Item.tokensOf, List.append_nil] at consumes ⊢
      exact left.cover [_] ⟨consumes.1, consumes.2.1, trivial⟩ right
  | elementsNone | elementsHole | elementsLast | elementsMore => trivial

/-- What a production of statements makes spans its tokens, given that its parts do. -/
theorem StatementRule.spans {phrase : Phrase}
    (rule : StatementRule script (Token.spanOf (Item.tokensOf items)) phrase items)
    (whole : Parses script (.phrase phrase) offset (Item.tokensOf items))
    (components
      : Components script
          (fun part offset tokens =>
            Parses script part offset tokens ∧ part.Spans script offset tokens) items offset)
    : phrase.Spans script offset (Item.tokensOf items) := by
  have consumes := whole.consumes
  cases rule with
  | block | declaration =>
      obtain ⟨⟨_, inner⟩, _⟩ := components
      simp only [Item.tokensOf, List.append_nil]
      exact inner
  | statementEndMark | statementEndImplied | jumpLabelSome | jumpLabelNone
  | restrictedOperandNone | restrictedOperandSome | condition | declaratorInitialized
  | declaratorPlain | branchTestCase | branchTestDefault | forStartDeclaration | forStartNothing
  | forStartExpression | forClauseNone | forClauseSome | forInTargetDeclaration
  | forInTargetExpression =>
      trivial
  | _ => exact ⟨consumes, whole.ne_nil rfl, rfl⟩

/-- A node that parses spans its tokens. -/
theorem Parses.spans {nonterminal : Nonterminal}
    (derivation : Parses script nonterminal offset tokens)
    : nonterminal.Spans script offset tokens := by
  refine derivation.induction
    (motive := fun nonterminal offset tokens => nonterminal.Spans script offset tokens) ?_
  intro nonterminal items offset rule components
  have whole : Parses script nonterminal offset (Item.tokensOf items) :=
    .of_rule rule (components.mono fun _ _ _ holds => holds.1).sequence
  cases rule with
  | expression rule => exact rule.spans whole components
  | statement rule => exact rule.spans whole components
  | repetition rule => cases rule <;> trivial

/-- A chain spans its tokens, from its operand to the last operator, by induction on the chain. -/
theorem Chains.spans {inAllowed : Bool} {value : Expr}
    (chains : Chains script inAllowed offset tokens value)
    : script.Spans offset tokens value.span := by
  induction chains with
  | operand operand => exact operand.spans
  | update _ read updates _ ih =>
      have plain := Kind.isPlain_of_updateOperator? updates
      exact ih.cover_append (.of_token (read.consumes plain))
  | more _ _ _ _ continuation ih => exact continuation.spans _ _ ih rfl

end Grammar

/-- Every node that parses spans its tokens. -/
theorem Node.Parsed.spans {node : Node} (parsed : node.Parsed script offset tokens)
    : script.Spans offset tokens node.span := by
  cases parsed with
  | expression chains => exact chains.spans
  | statement parses | arguments parses | member parses | function parses | parameter parses
  | body parses | block parses | handler parses | branch parses | declaration parses
  | initializer parses => exact parses.spans

end EcmaSyntax
