import EcmaSyntax.Proofs.Grammar.Derivation

/-! Derivations consume text. A derivation has at most as many tokens as the text has characters, and
most phrases have at least one; this bounds the nesting and the repetitions that a text can have.
-/

namespace EcmaSyntax

-----------------------------------------------------------------------------------------
-- As many tokens as characters
-----------------------------------------------------------------------------------------

/-- There are no more tokens than characters, since each token takes up one at least. -/
theorem Script.Consumes.length_le {script : Script} {offset : Nat} {tokens : List Token}
    {rest : List Char} (consumes : script.Consumes offset tokens)
    (cut : Text.drop? offset script.source = some rest)
    : tokens.length ≤ rest.length := by
  induction tokens generalizing offset rest with
  | nil => exact Nat.zero_le _
  | cons token tokens ih =>
      obtain ⟨read, present, consumes⟩ := consumes
      obtain ⟨after, cutAfter, shorter⟩ := Token.length_rest_lt read present cut
      have := ih consumes cutAfter
      simp only [List.length_cons]
      omega

/-- A derivation has no more tokens than the text has characters. -/
theorem Grammar.Parses.length_le {script : Script} {nonterminal : Grammar.Nonterminal}
    {offset : Nat} {tokens : List Token} (derivation : Parses script nonterminal offset tokens)
    : tokens.length ≤ script.source.length := by
  have consumes := derivation.consumes
  cases tokens with
  | nil => exact Nat.zero_le _
  | cons token tokens =>
      obtain ⟨rest, cut, _⟩ := Option.map_eq_some_iff.mp consumes.1
      obtain ⟨front, same, _⟩ := Text.drop?_eq_some.mp cut
      have := consumes.length_le cut
      rw [same, List.length_append]
      omega

namespace Grammar

-----------------------------------------------------------------------------------------
-- At least one token
-----------------------------------------------------------------------------------------

/-- The phrase consumes a token whatever it is. -/
def Phrase.consumes : Phrase → Bool
  | operators .. | accesses .. | elements _ | statementEnd | jumpLabel _ | restrictedOperand ..
  | forStart _ => false
  | _ => true

def Nonterminal.consumes : Nonterminal → Bool
  | phrase inner => inner.consumes
  | list .. | listTail .. | looseList .. => true
  | separated _ | repeated .. | afterKeyword .. => false

/-- A component that consumes a token. -/
def Item.consumes : Item → Bool
  | .token _ | .regex _ => true
  | .ahead _ => false
  | .part nonterminal _ => nonterminal.consumes

/-- A component that is consumed as a token. -/
def Item.isToken : Item → Bool
  | .token _ | .regex _ => true
  | .ahead _ | .part .. => false

variable {script : Script} {span : Span} {nonterminal : Nonterminal} {items : List Item}

theorem Item.any_isToken_of_tokensOf (none : tokensOf items = []) : items.any isToken = false := by
  induction items with
  | nil => rfl
  | cons item items ih =>
      cases item with
      | token | regex => cases none
      | ahead => exact ih none
      | part => exact ih (List.append_eq_nil_iff.mp none).2

/-- A phrase that consumes a token does so in every production. -/
theorem Rule.consumes (rule : Rule script span nonterminal items) (holds : nonterminal.consumes)
    : items.any Item.consumes := by
  cases rule with
  | expression rule => cases rule <;> first | rfl | cases holds
  | statement rule => cases rule <;> first | rfl | cases holds
  | repetition rule =>
      cases rule with
      | listNone | listTailNone | looseListNone => rfl
      | listMore | listTailMore | looseListLast | looseListMore =>
          simp [Item.consumes, Nonterminal.consumes]
      | separatedLast | separatedMore | repeatedNone | repeatedMore | afterKeywordNone
      | afterKeywordSome => cases holds

/-- What consumes a token whatever it is does so. -/
theorem Parses.ne_nil {offset : Nat} {tokens : List Token}
    (derivation : Parses script nonterminal offset tokens) (holds : nonterminal.consumes)
    : tokens ≠ [] := by
  revert holds
  refine derivation.induction
    (motive := fun nonterminal _ tokens => nonterminal.consumes → tokens ≠ []) ?_
  intro nonterminal items offset rule components holds
  have some_consumes := rule.consumes holds
  clear rule holds
  induction items generalizing offset with
  | nil => cases some_consumes
  | cons item items ih =>
      cases item with
      | token | regex => exact List.cons_ne_nil _ _
      | ahead tokens => exact ih components.2 some_consumes
      | part nonterminal tokens =>
          obtain ⟨⟨_, part⟩, components⟩ := components
          rw [List.any_cons, Bool.or_eq_true] at some_consumes
          intro nil
          obtain ⟨none, rest⟩ := List.append_eq_nil_iff.mp nil
          rcases some_consumes with head | tail
          · exact part head none
          · exact ih components tail rest

/-- Components that consume no token have none that would. -/
theorem Components.any_consumes {holds : Nonterminal → Nat → List Token → Prop}
    (components : Components script holds items offset)
    (parses : ∀ part offset tokens, holds part offset tokens → Parses script part offset tokens)
    (none : Item.tokensOf items = [])
    : items.any Item.consumes = false := by
  induction items generalizing offset with
  | nil => rfl
  | cons item items ih =>
      cases item with
      | token | regex => cases none
      | ahead => exact ih components.2 none
      | part nonterminal tokens =>
          obtain ⟨rfl, rest⟩ := List.append_eq_nil_iff.mp none
          rw [List.any_cons, ih components.2 rest, Bool.or_false, Item.consumes]
          by_contra holds
          exact (parses _ _ _ components.1).ne_nil (by simpa using holds) rfl

end Grammar

end EcmaSyntax
