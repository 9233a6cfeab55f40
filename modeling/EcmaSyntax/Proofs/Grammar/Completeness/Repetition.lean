import EcmaSyntax.Grammar.Program
import EcmaSyntax.Proofs.Grammar.Progress
import EcmaSyntax.Proofs.Parsing.Running

/-! What parses as the grammar has it is accepted. Rules for as many levels of nesting as there are tokens
suffice, and so do repetitions. This module says so of the ways in which phrases are repeated.
-/

namespace EcmaSyntax.Grammar

open EcmaSyntax.Parser

/-- Reads the first clause of a `for` header and says whether `in` follows. -/
def firstClauseHasIn (rules : Rules) : Parser Bool := do
  let kind := (← peek).kind
  if kind = .semicolon then
    return false
  else
    if opensDeclaration kind then
      discard (declaration rules false .forHeader)
    else
      discard (expression rules false)
    return (← peek).kind = .keywordIn

/-- The parser of the phrase, with the rules, accepts the tokens and gives the result of the phrase. -/
def Phrase.RunsWith (script : Script) (rules : Rules) (offset : Nat) (tokens : List Token)
    : Phrase → Prop
  | expression inAllowed least value =>
      Runs script (expressionFrom rules inAllowed least) offset tokens value
  | operand inAllowed value => Runs script (Grammar.operand rules inAllowed) offset tokens value
  | primary value => ∀ inAllowed, Runs script (Grammar.primary rules inAllowed) offset tokens value
  | operators inAllowed least left value =>
      ∀ bound > tokens.length,
        Runs script (Grammar.operators rules inAllowed least bound left) offset tokens value
  | continuation inAllowed operator left value =>
      ∀ token,
        script.Reads .standard offset token →
        token.kind.infixOperator? = some operator →
        Runs.After script token (Grammar.continuation rules inAllowed operator left) offset tokens
          value
  | access operator object value =>
      (operator = .memberAccess → Runs script (memberAccess object) offset tokens value)
      ∧ (operator = .computedMemberAccess → Runs script (indexAccess rules object) offset tokens value)
  | accesses constructor value =>
      ∀ bound > tokens.length,
        Runs script (constructorAccess rules bound constructor) offset tokens value
  | arguments value => Runs script (callArguments rules) offset tokens value
  | elements values =>
      -- An element is nested one level deeper though the bracket before it is no part of the phrase.
      ∀ bound > tokens.length, Runs script (arrayElements rules.next bound) offset tokens values
  | member value => Runs script (objectMember rules) offset tokens value
  | function value => Runs script (Grammar.function rules) offset tokens value
  | parameter value => Runs script Grammar.parameter offset tokens value
  | body value => Runs script (functionBody rules) offset tokens value
  | statement inAllowed value => Runs script (Grammar.statement rules inAllowed) offset tokens value
  | statementEnd => Runs script requireStatementEnd offset tokens ⟨⟩
  | jumpLabel label => Runs script Grammar.jumpLabel offset tokens label
  | restrictedOperand inAllowed value =>
      Runs script (Grammar.restrictedOperand rules inAllowed) offset tokens value
  | condition inAllowed value =>
      Runs script (parenthesizedCondition rules inAllowed) offset tokens value
  | block inAllowed value => Runs script (Grammar.block rules inAllowed) offset tokens value
  | declaration inAllowed place value =>
      Runs script (Grammar.declaration rules inAllowed place) offset tokens value
  | declarator inAllowed value => Runs script (Grammar.declarator rules inAllowed) offset tokens value
  | initializer inAllowed value =>
      Runs script (Grammar.initializer rules inAllowed) offset tokens value
  | handler inAllowed value => Runs script (Grammar.handler rules inAllowed) offset tokens value
  | branch inAllowed value => Runs script (Grammar.branch rules inAllowed) offset tokens value
  | branchTest inAllowed value => Runs script (Grammar.branchTest rules inAllowed) offset tokens value
  | forStart value =>
      Runs script (Grammar.forStart rules) offset tokens value
      ∧ ∀ next,
          script.Reads .standard (Token.endOf offset tokens) next →
          Runs script (firstClauseHasIn rules) offset tokens (next.kind = .keywordIn)
  | forClause inAllowed close value =>
      Runs script (Grammar.forClause rules inAllowed close) offset tokens value
  | forInTarget value =>
      Runs script (Grammar.forInTarget rules) offset tokens value
      ∧ ∀ next,
          script.Reads .standard (Token.endOf offset tokens) next →
          Runs script (firstClauseHasIn rules) offset tokens (next.kind = .keywordIn)

/-- Rules for as many levels as there are tokens accept the phrase. -/
def Phrase.Complete (script : Script) (offset : Nat) (tokens : List Token) (phrase : Phrase) : Prop :=
  ∀ depth ≥ tokens.length, phrase.RunsWith script (Rules.ofDepth depth) offset tokens

/-- The parser accepts those of the phrases that have at most so many tokens. -/
def Accepts {α : Type} (script : Script) (item : Parser α) (phrase : α → Phrase) (size : Nat) : Prop :=
  ∀ value offset tokens,
    tokens.length ≤ size →
    (phrase value).Complete script offset tokens →
    Runs script item offset tokens value

/-- Whatever parser accepts the phrases, the parser of the repetition accepts them all. -/
def Nonterminal.Complete (script : Script) (offset : Nat) (tokens : List Token) : Nonterminal → Prop
  | phrase inner => inner.Complete script offset tokens
  | list close phrases =>
      ∀ {α : Type} (item : Parser α) (phrase : α → Phrase) (values : List α),
        values.map phrase = phrases →
        Accepts script item phrase tokens.length →
        Runs script (Parser.list close item) offset tokens values
  | listTail close phrases =>
      ∀ {α : Type} (item : Parser α) (phrase : α → Phrase) (values : List α),
        values.map phrase = phrases →
        Accepts script item phrase tokens.length →
        ∀ bound > tokens.length, Runs script (Parser.listTail close item bound) offset tokens values
  | looseList close phrases =>
      ∀ {α : Type} (item : Parser α) (phrase : α → Phrase) (values : List α),
        values.map phrase = phrases →
        Accepts script item phrase tokens.length →
        ∀ bound > tokens.length,
          Runs script (looseListTail close item bound) offset tokens values
  | separated phrases =>
      ∀ inAllowed values,
        values.map (.declarator inAllowed) = phrases →
        ∀ depth ≥ tokens.length,
          ∀ bound > tokens.length,
            Runs script (declarators (Rules.ofDepth depth) inAllowed bound) offset tokens values
  | repeated goes phrases =>
      ∀ {α : Type} (item : Parser α) (phrase : α → Phrase) (values : List α),
        values.map phrase = phrases →
        (∀ value, (phrase value).consumes) →
        Accepts script item phrase tokens.length →
        ∀ bound > tokens.length,
          Runs script (repeatAtMost (do return goes (← peek).kind) item bound) offset tokens values
  | afterKeyword keyword phrase? =>
      ∀ {α : Type} (item : Parser α) (phrase : α → Phrase) (value : Option α),
        value.map phrase = phrase? →
        Accepts script item phrase tokens.length →
        Runs script (Grammar.afterKeyword keyword item) offset tokens value

/-- Components whose parts are derived and accepted. -/
abbrev Accepted (script : Script) (items : List Item) (offset : Nat) : Prop :=
  Components script
    (fun part offset tokens => Parses script part offset tokens ∧ part.Complete script offset tokens)
    items offset

/-- A parser that accepts items of some size accepts smaller ones. -/
theorem Accepts.mono {α : Type} {script : Script} {item : Parser α} {phrase : α → Phrase}
    {size smaller : Nat} (accepts : Accepts script item phrase size) (le : smaller ≤ size)
    : Accepts script item phrase smaller :=
  fun value offset tokens short => accepts value offset tokens (short.trans le)

variable {script : Script} {items : List Item} {offset : Nat}

-----------------------------------------------------------------------------------------
-- Lists
-----------------------------------------------------------------------------------------

/-- The rest of a list is accepted behind its first item, within a bound above the number of its tokens.
-/
theorem listTail_complete {close : Kind} {phrases : List Phrase}
    (rule : RepetitionRule (.listTail close phrases) items) (accepted : Accepted script items offset)
    : (Nonterminal.listTail close phrases).Complete script offset (Item.tokensOf items) := by
  intro α item phrase values same accepts bound enough
  obtain ⟨bound, rfl⟩ := Nat.exists_eq_add_one_of_ne_zero (Nat.ne_zero_of_lt enough)
  cases rule with
  | listTailNone closes mark noComma =>
      obtain rfl := List.map_eq_nil_iff.mp same
      exact .bind_accept_left accepted.1 noComma
        (.bind_discard_require accepted.1 closes (.pure []))
  | listTailMore separates =>
      obtain ⟨read, ⟨_, first⟩, ⟨_, rest⟩, _⟩ := accepted
      obtain ⟨value, values, rfl, rfl, rfl⟩ := List.map_eq_cons_iff.mp same
      simp only [Item.tokensOf, List.length_cons, List.length_append, List.append_nil]
        at accepts enough ⊢
      refine .bind_accept_taken read separates (.bind (accepts _ _ _ (by omega) first) ?_)
      exact .bind_pure (rest item phrase values rfl (accepts.mono (by omega)) bound (by omega))
        fun _ => .pure _

/-- A list is accepted between its brackets if its items are. -/
theorem list_complete {close : Kind} {phrases : List Phrase}
    (rule : RepetitionRule (.list close phrases) items) (accepted : Accepted script items offset)
    : (Nonterminal.list close phrases).Complete script offset (Item.tokensOf items) := by
  intro α item phrase values same accepts
  cases rule with
  | listNone closes mark =>
      obtain rfl := List.map_eq_nil_iff.mp same
      exact .bind_accept_taken accepted.1 closes (.pure [])
  | listMore goesOn =>
      obtain ⟨⟨read, _⟩, ⟨_, first⟩, ⟨derived, rest⟩, _⟩ := accepted
      obtain ⟨value, values, rfl, rfl, rfl⟩ := List.map_eq_cons_iff.mp same
      simp only [Item.tokensOf, List.length_append, List.append_nil] at accepts ⊢
      refine .bind_accept_left read goesOn ?_
      refine .bind (accepts _ _ _ (by omega) first) (.bind_repetitions fun bound enough => ?_)
      refine .bind_pure (rest item phrase values rfl (accepts.mono (by omega)) _ ?_) fun _ => .pure _
      exact Nat.lt_of_le_of_lt derived.length_le enough

/-- A list with a comma behind its last item, or without, is accepted if its items are. -/
theorem looseList_complete {close : Kind} {phrases : List Phrase}
    (rule : RepetitionRule (.looseList close phrases) items)
    (accepted : Accepted script items offset)
    : (Nonterminal.looseList close phrases).Complete script offset (Item.tokensOf items) := by
  intro α item phrase values same accepts bound enough
  obtain ⟨bound, rfl⟩ := Nat.exists_eq_add_one_of_ne_zero (Nat.ne_zero_of_lt enough)
  cases rule with
  | looseListNone closes mark =>
      obtain rfl := List.map_eq_nil_iff.mp same
      exact .bind_accept_taken accepted.1 closes (.pure [])
  | looseListLast goesOn closes mark noComma =>
      obtain ⟨⟨read, _⟩, ⟨_, only⟩, readClose, _⟩ := accepted
      obtain ⟨value, values, rfl, rfl, none⟩ := List.map_eq_cons_iff.mp same
      obtain rfl := List.map_eq_nil_iff.mp none
      simp only [Item.tokensOf, List.length_append] at accepts ⊢
      refine .bind_accept_left read goesOn (.bind (accepts _ _ _ (by omega) only) ?_)
      exact .bind_accept_left readClose noComma
        (.bind_discard_require readClose closes (.pure [value]))
  | looseListMore goesOn separates =>
      obtain ⟨⟨read, _⟩, ⟨_, first⟩, readComma, ⟨_, rest⟩, _⟩ := accepted
      obtain ⟨value, values, rfl, rfl, rfl⟩ := List.map_eq_cons_iff.mp same
      simp only [Item.tokensOf, List.length_append, List.length_cons, List.append_nil]
        at accepts enough ⊢
      refine .bind_accept_left read goesOn (.bind (accepts _ _ _ (by omega) first) ?_)
      refine .bind_accept_taken readComma separates ?_
      exact .bind_pure (rest item phrase values rfl (accepts.mono (by omega)) bound (by omega))
        fun _ => .pure _

-----------------------------------------------------------------------------------------
-- Other repetitions
-----------------------------------------------------------------------------------------

/-- Items are accepted for as long as their kinds go on. -/
theorem repeated_complete {goes : Kind → Bool} {phrases : List Phrase}
    (rule : RepetitionRule (.repeated goes phrases) items) (accepted : Accepted script items offset)
    : (Nonterminal.repeated goes phrases).Complete script offset (Item.tokensOf items) := by
  intro α item phrase values same consumes accepts bound enough
  obtain ⟨bound, rfl⟩ := Nat.exists_eq_add_one_of_ne_zero (Nat.ne_zero_of_lt enough)
  cases rule with
  | repeatedNone stops =>
      obtain rfl := List.map_eq_nil_iff.mp same
      refine .bind_of_nil (.bind_peek accepted.1.1 (.pure _)) ?_
      rw [if_neg (by simp [stops])]
      exact .pure []
  | repeatedMore goesOn =>
      obtain ⟨⟨read, _⟩, ⟨derived, first⟩, ⟨_, rest⟩, _⟩ := accepted
      obtain ⟨value, values, rfl, rfl, rfl⟩ := List.map_eq_cons_iff.mp same
      simp only [Item.tokensOf, List.length_append, List.append_nil] at accepts enough ⊢
      have progress := List.length_pos_iff.mpr (derived.ne_nil (consumes value))
      refine .bind_of_nil (.bind_peek read (.pure _)) ?_
      rw [if_pos goesOn]
      refine .bind (accepts _ _ _ (by omega) first) ?_
      exact .bind_pure (rest item phrase values rfl consumes (accepts.mono (by omega)) bound (by omega))
        fun _ => .pure _

/-- What a keyword announces is accepted behind it, and its absence where another token stands. -/
theorem afterKeyword_complete {keyword : Kind} {phrase? : Option Phrase}
    (rule : RepetitionRule (.afterKeyword keyword phrase?) items)
    (accepted : Accepted script items offset)
    : (Nonterminal.afterKeyword keyword phrase?).Complete script offset (Item.tokensOf items) := by
  intro α item phrase value same accepts
  cases rule with
  | afterKeywordNone missing =>
      obtain rfl := Option.map_eq_none_iff.mp same
      exact .bind_accept_left accepted.1.1 missing (.pure none)
  | afterKeywordSome opens mark =>
      obtain ⟨read, ⟨_, derivation⟩, _⟩ := accepted
      obtain ⟨value, rfl, rfl⟩ := Option.map_eq_some_iff.mp same
      simp only [Item.tokensOf, List.length_cons, List.append_nil] at accepts ⊢
      exact .bind_accept_taken read opens (.map _ (accepts _ _ _ (by omega) derivation))

end EcmaSyntax.Grammar
