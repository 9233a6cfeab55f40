import EcmaSyntax.Proofs.Grammar.Progress

/-! The first and the last token of a phrase. No statement and no expression begins with a closing brace or with
`else`, and no expression ends with a semicolon, so a statement whose last token is one has been ended by
it.
-/

namespace EcmaSyntax

namespace Token

/-- The last of the tokens is a semicolon. -/
def endsInMark (tokens : List Token) : Bool :=
  tokens.getLast?.any fun token => token.kind = .semicolon

variable {front back : List Token}

@[simp]
theorem endsInMark_nil : endsInMark [] = false := rfl

@[simp]
theorem endsInMark_singleton (token : Token)
    : endsInMark [token] = decide (token.kind = .semicolon) :=
  rfl

theorem endsInMark_singleton_of_ne {token : Token} (plain : token.kind ≠ .semicolon)
    : endsInMark [token] = false :=
  decide_eq_false plain

/-- The last tokens tell whether there is a mark at the end, if there are any. -/
theorem endsInMark_append (present : back ≠ []) : endsInMark (front ++ back) = endsInMark back := by
  rw [endsInMark, List.getLast?_append_of_ne_nil _ present, endsInMark]

/-- Where the first tokens have no mark at their end, the last ones tell. -/
theorem endsInMark_append_of_plain (plain : endsInMark front = false)
    : endsInMark (front ++ back) = endsInMark back := by
  cases back with
  | nil => simpa using plain
  | cons => exact endsInMark_append (List.cons_ne_nil _ _)

end Token

namespace Grammar

variable {script : Script} {span : Span} {nonterminal : Nonterminal} {items : List Item}
variable {phrase : Phrase} {offset : Nat} {tokens : List Token}

-----------------------------------------------------------------------------------------
-- The last token
-----------------------------------------------------------------------------------------

/-- The phrase does not end with a semicolon. -/
def Phrase.endsPlain : Phrase → Bool
  | statement .. | statementEnd | jumpLabel _ | restrictedOperand .. | declaration .. | branch ..
  | branchTest .. | forStart _ | forClause .. | forInTarget _ => false
  | _ => true

def Nonterminal.endsPlain : Nonterminal → Bool
  | .phrase inner => inner.endsPlain
  | list close phrases | listTail close phrases | looseList close phrases =>
      close != .semicolon && phrases.all Phrase.endsPlain
  | separated phrases => phrases.all Phrase.endsPlain
  | afterKeyword keyword phrase? => keyword != .semicolon && phrase?.all Phrase.endsPlain
  | repeated .. => false

/-- No component that may be the last ends with a semicolon. -/
def Item.EndPlain : List Item → Prop
  | [] => True
  | .token last :: items | .regex last :: items =>
      (items.any Item.consumes ∨ last.kind ≠ .semicolon) ∧ EndPlain items
  | .ahead _ :: items => EndPlain items
  | .part nonterminal _ :: items =>
      (items.any Item.consumes ∨ nonterminal.endsPlain) ∧ EndPlain items

/-- No production of expressions ends with a semicolon, by cases on the production. -/
theorem ExpressionRule.endPlain (rule : ExpressionRule script span phrase items)
    : Item.EndPlain items := by
  cases rule with
  | boolean opens => rcases opens with opens | opens <;> simp [Item.EndPlain, opens]
  | accessMember opens named =>
      have plain : ∀ {kind : Kind}, kind = .identifier ∨ kind.isWord → kind ≠ .semicolon := by
        rintro _ named rfl
        rcases named with named | named <;> cases named
      simp [Item.EndPlain, Item.consumes, plain named]
  | operatorsUpdate updates =>
      refine ⟨.inr fun mark => ?_, .inr rfl, trivial⟩
      simp [updateOperator?, mark] at updates
  | _ =>
      simp_all [Item.EndPlain, Item.consumes, Nonterminal.consumes, Phrase.consumes,
        Nonterminal.endsPlain, Phrase.endsPlain]

/-- A production of statements ends with a semicolon only if its phrase may. -/
theorem StatementRule.endPlain (rule : StatementRule script span phrase items)
    (plain : phrase.endsPlain)
    : Item.EndPlain items := by
  cases rule with
  | condition | blockOf | declaratorInitialized | declaratorPlain | initializer | handler =>
      simp_all [Item.EndPlain, Item.consumes, Nonterminal.consumes, Phrase.consumes,
        Nonterminal.endsPlain, Phrase.endsPlain]
  | _ => cases plain

theorem RepetitionRule.endPlain (rule : RepetitionRule nonterminal items)
    (plain : nonterminal.endsPlain)
    : Item.EndPlain items := by
  cases rule with
  | repeatedNone | repeatedMore => cases plain
  | _ =>
      simp_all [Item.EndPlain, Item.consumes, Nonterminal.consumes, Nonterminal.endsPlain]

/-- No component that may be the last of a production ends with a semicolon, unless the phrase may. -/
theorem Rule.endPlain (rule : Rule script span nonterminal items) (plain : nonterminal.endsPlain)
    : Item.EndPlain items := by
  cases rule with
  | expression rule => exact rule.endPlain
  | statement rule => exact rule.endPlain plain
  | repetition rule => exact rule.endPlain plain

/-- Tokens do not end in a mark if neither what follows them does nor, where nothing need follow, they do. -/
theorem Components.endsInMark_append {holds : Nonterminal → Nat → List Token → Prop}
    (components : Components script holds items offset)
    (parses : ∀ part offset tokens, holds part offset tokens → Parses script part offset tokens)
    (last : items.any Item.consumes ∨ Token.endsInMark tokens = false)
    (behind : Token.endsInMark (Item.tokensOf items) = false)
    : Token.endsInMark (tokens ++ Item.tokensOf items) = false := by
  rcases last with consumes | last
  · rw [Token.endsInMark_append, behind]
    intro none
    rw [components.any_consumes parses none] at consumes
    cases consumes
  · rw [Token.endsInMark_append_of_plain last, behind]

/-- Components do not end with a semicolon if none of those that may be the last does. -/
theorem Components.endsInMark_eq_false {holds : Nonterminal → Nat → List Token → Prop}
    (components : Components script holds items offset) (plain : Item.EndPlain items)
    (parses : ∀ part offset tokens, holds part offset tokens → Parses script part offset tokens)
    (ends
      : ∀ part offset tokens,
          holds part offset tokens → part.endsPlain → Token.endsInMark tokens = false)
    : Token.endsInMark (Item.tokensOf items) = false := by
  induction items generalizing offset with
  | nil => rfl
  | cons item items ih =>
      cases item with
      | token | regex =>
          have last := plain.1.imp_right Token.endsInMark_singleton_of_ne
          exact components.2.endsInMark_append parses last (ih components.2 plain.2)
      | ahead => exact ih components.2 plain
      | part =>
          have last := plain.1.imp_right (ends _ _ _ components.1)
          exact components.2.endsInMark_append parses last (ih components.2 plain.2)

/-- An expression does not end with a semicolon. -/
theorem Parses.endsInMark_eq_false (derivation : Parses script nonterminal offset tokens)
    (plain : nonterminal.endsPlain)
    : Token.endsInMark tokens = false := by
  revert plain
  refine derivation.induction
    (motive := fun nonterminal _ tokens =>
      nonterminal.endsPlain → Token.endsInMark tokens = false) ?_
  intro nonterminal items offset rule components plain
  exact components.endsInMark_eq_false (rule.endPlain plain) (fun _ _ _ holds => holds.1)
    fun _ _ _ holds => holds.2

-----------------------------------------------------------------------------------------
-- The first token
-----------------------------------------------------------------------------------------

/-- A kind of token that goes on with what is open: a closing brace, or `else`. -/
def resumes (kind : Kind) : Bool :=
  kind = .braceClose || kind = .keywordElse

/-- The phrase begins with a token that does not go on with what is open. -/
def Phrase.opensPlain : Phrase → Bool
  | expression .. | operand .. | primary _ | statement .. | block .. | declaration .. => true
  | _ => false

/-- What is consumed first begins with a token that does not go on with what is open. -/
def Item.OpenPlain : List Item → Prop
  | [] => False
  | .token first :: _ | .regex first :: _ => resumes first.kind = false
  | .ahead _ :: items => OpenPlain items
  | .part (.phrase phrase) _ :: _ => phrase.opensPlain
  | .part .. :: _ => False

theorem resumes_of_prefixOperator? {kind : Kind} {operator : Operator}
    (opens : kind.prefixOperator? = some operator)
    : resumes kind = false := by
  cases kind <;> first | rfl | cases opens

/-- No declaration begins with a brace or with `else`. -/
theorem resumes_of_declarationMode? {kind : Kind} {mode : DeclarationMode}
    (declares : script.declarationMode? kind = some mode)
    : resumes kind = false := by
  unfold Script.declarationMode? at declares
  split_ifs at declares with reserved isConst isVar
  · rw [isConst]
    rfl
  · rw [isVar]
    rfl

/-- What a production consumes first does not go on with what is open. -/
theorem Rule.openPlain (rule : Rule script span (.phrase phrase) items) (plain : phrase.opensPlain)
    : Item.OpenPlain items := by
  cases rule with
  | expression rule =>
      cases rule with
      | operandPrefixed opens => exact resumes_of_prefixOperator? opens
      | boolean opens => rcases opens with opens | opens <;> simp [Item.OpenPlain, resumes, opens]
      | _ => first | cases plain; done | simp_all [Item.OpenPlain, resumes, Phrase.opensPlain]
  | statement rule =>
      cases rule with
      | declarationStatement declares | declarationHeader declares =>
          exact resumes_of_declarationMode? declares
      | _ => first | cases plain; done | simp_all [Item.OpenPlain, resumes, Phrase.opensPlain]
  | repetition rule => cases rule

/-- A statement or an expression begins with a token that does not go on with what is open. -/
theorem Parses.exists_first (derivation : Parses script (.phrase phrase) offset tokens)
    (plain : phrase.opensPlain)
    : ∃ first rest, tokens = first :: rest ∧ resumes first.kind = false := by
  generalize same : Nonterminal.phrase phrase = nonterminal at derivation
  revert same plain phrase
  refine derivation.induction
    (motive := fun nonterminal _ tokens =>
      ∀ {phrase : Phrase},
        phrase.opensPlain →
        .phrase phrase = nonterminal →
        ∃ first rest, tokens = first :: rest ∧ resumes first.kind = false) ?_
  rintro _ items offset rule components phrase plain rfl
  have plain := rule.openPlain plain
  clear rule
  induction items generalizing offset with
  | nil => exact plain.elim
  | cons item items ih =>
      cases item with
      | token | regex => exact ⟨_, _, rfl, plain⟩
      | ahead => exact ih components.2 plain
      | part nonterminal tokens =>
          cases nonterminal with
          | phrase inner =>
              obtain ⟨first, rest, rfl, opens⟩ := components.1.2 plain rfl
              exact ⟨first, _, rfl, opens⟩
          | _ => exact plain.elim

end Grammar

end EcmaSyntax
