import EcmaSyntax.Proofs.Grammar.Rule
import EcmaSyntax.Proofs.Token.Modes
import Mathlib.Tactic.SplitIfs

/-! Derivations: what parses as a part of the grammar at an offset of a text. Facts about everything
that parses follow by induction from facts about the productions.
-/

namespace EcmaSyntax.Grammar

/-- The tokens from the offset on parse as the nonterminal. -/
inductive Parses (script : Script) : Nonterminal → Nat → List Token → Prop
  | of_rule {nonterminal : Nonterminal} {items : List Item} {offset : Nat}
    (rule : Rule script (Token.spanOf (Item.tokensOf items)) nonterminal items)
    (sequence : Sequence script (Parses script) items offset)
    : Parses script nonterminal offset (Item.tokensOf items)

namespace Parses

variable {script : Script} {nonterminal : Nonterminal} {offset : Nat} {tokens : List Token}

/-- Induction on derivations: the motive holds of a production if it holds of its parts. -/
theorem induction {motive : Nonterminal → Nat → List Token → Prop}
    (step
      : ∀ {nonterminal items offset},
          Rule script (Token.spanOf (Item.tokensOf items)) nonterminal items →
          Components script
            (fun part offset tokens => Parses script part offset tokens ∧ motive part offset tokens)
            items offset →
          motive nonterminal offset (Item.tokensOf items))
    (derivation : Parses script nonterminal offset tokens)
    : motive nonterminal offset tokens := by
  refine @Parses.rec script
    (fun nonterminal offset tokens _ => motive nonterminal offset tokens)
    (fun items offset _ =>
      Components script
        (fun part offset tokens => Parses script part offset tokens ∧ motive part offset tokens)
        items offset) ?_ ?_ ?_ ?_ ?_ ?_ nonterminal offset tokens derivation
  · intro nonterminal items offset rule _ parts
    exact step rule parts
  · intro offset
    trivial
  · intro offset token items read _ ih
    exact ⟨read, ih⟩
  · intro offset token items read _ ih
    exact ⟨read, ih⟩
  · intro offset tokens items reads _ ih
    exact ⟨reads, ih⟩
  · intro offset nonterminal tokens items part _ holds ih
    exact ⟨⟨part, holds⟩, ih⟩

/-- The production that a derivation ends with. -/
theorem components (derivation : Parses script nonterminal offset tokens)
    : ∃ items,
        tokens = Item.tokensOf items
        ∧ Rule script (Token.spanOf (Item.tokensOf items)) nonterminal items
        ∧ Components script (Parses script) items offset := by
  cases derivation with
  | of_rule rule sequence => exact ⟨_, rfl, rule, sequence.components⟩

/-- The production of an expression, a function, or of a part of them that a derivation ends with. -/
theorem expression_components {phrase : Phrase}
    (derivation : Parses script (.phrase phrase) offset tokens) (isExpression : phrase.isExpression)
    : ∃ items,
        tokens = Item.tokensOf items
        ∧ ExpressionRule script (Token.spanOf (Item.tokensOf items)) phrase items
        ∧ Components script (Parses script) items offset := by
  obtain ⟨items, same, rule | rule | rule, components⟩ := derivation.components
  case expression => exact ⟨items, same, rule, components⟩
  case statement => cases rule <;> cases isExpression
  case repetition => cases rule

/-- The production of a statement, or of a part of one that only statements have, that a derivation ends
with.
-/
theorem statement_components {phrase : Phrase}
    (derivation : Parses script (.phrase phrase) offset tokens)
    (isStatement : phrase.isExpression = false)
    : ∃ items,
        tokens = Item.tokensOf items
        ∧ StatementRule script (Token.spanOf (Item.tokensOf items)) phrase items
        ∧ Components script (Parses script) items offset := by
  obtain ⟨items, same, rule | rule | rule, components⟩ := derivation.components
  case expression => cases rule <;> cases isStatement
  case statement => exact ⟨items, same, rule, components⟩
  case repetition => cases rule

/-- A production whose components consume the tokens. -/
theorem intro {items : List Item}
    (rule : Rule script (Token.spanOf tokens) nonterminal items)
    (sequence : Sequence script (Parses script) items offset)
    (same : Item.tokensOf items = tokens)
    : Parses script nonterminal offset tokens := by
  subst same
  exact .of_rule rule sequence

end Parses

end EcmaSyntax.Grammar

namespace EcmaSyntax

-----------------------------------------------------------------------------------------
-- The tokens that a derivation consumes
-----------------------------------------------------------------------------------------

/-- The mode in which a consumed token of the kind was read. -/
def Kind.mode (kind : Kind) : LexMode :=
  if kind = .literalRegex then .regex else .standard

/-- The tokens are read one after the other from the offset on, before the end of the input. -/
def Script.Consumes (script : Script) : Nat → List Token → Prop
  | _, [] => True
  | offset, token :: rest =>
      script.Reads token.kind.mode offset token
      ∧ token.kind ≠ .endOfInput
      ∧ script.Consumes token.span.stop rest

/-- The tokens begin with one that is read where an operand is due. -/
def Script.OpensOperand (script : Script) (offset : Nat) (tokens : List Token) : Prop :=
  ∃ first rest, tokens = first :: rest ∧ script.Reads .regex offset first

/-- Tokens are consumed in a row if and only if the first ones are and then the others. -/
theorem Script.consumes_append {script : Script} {offset : Nat} {first second : List Token}
    : script.Consumes offset (first ++ second)
      ↔ script.Consumes offset first
        ∧ script.Consumes (Token.endOf offset first) second := by
  induction first generalizing offset with
  | nil => simp [Consumes]
  | cons token rest ih => simp [Consumes, ih, and_assoc]

namespace Kind

variable {kind : Kind}

/-- A kind with a text that is no regular expression is read outside of operands. -/
theorem mode_of_isPlain (plain : kind.isPlain) : kind.mode = .standard := by
  simp only [isPlain, Bool.and_eq_true, bne_iff_ne] at plain
  rw [mode, if_neg plain.2]

/-- Tokens of operators in front of an operand are read alike in both modes. -/
theorem isPlain_of_prefixOperator? {operator : Operator}
    (opens : kind.prefixOperator? = some operator)
    : kind.isPlain := by
  cases kind <;> first | rfl | cases opens

theorem isSlash_of_prefixOperator? {operator : Operator}
    (opens : kind.prefixOperator? = some operator)
    : kind.isSlash = false := by
  cases kind <;> first | rfl | cases opens

/-- Tokens of operators behind an operand are read where no operand is due. -/
theorem isPlain_of_infixOperator? {operator : Operator}
    (opens : kind.infixOperator? = some operator)
    : kind.isPlain := by
  cases kind <;> first | rfl | cases opens

theorem isPlain_of_isWord (word : kind.isWord) : kind.isPlain := by
  cases kind <;> first | rfl | exact absurd word (by decide)

theorem isPlain_of_updateOperator? {token : Token} {operator : Operator}
    (updates : Grammar.updateOperator? token = some operator)
    : token.kind.isPlain := by
  unfold Grammar.updateOperator? at updates
  split_ifs at updates with newline isPlus isHyphen
  · rw [isPlus]
    rfl
  · rw [isHyphen]
    rfl

/-- Keys of members are read where no operand is due. -/
theorem isPlain_of_keyOf? {script : Script} {token : Token} {key : String}
    (named : script.keyOf? token = some key)
    : token.kind.isPlain := by
  unfold Script.keyOf? at named
  split_ifs at named with isName isString isNumber isWord
  · rw [isName]
    rfl
  · rw [isString]
    rfl
  · rw [isNumber]
    rfl
  · exact isPlain_of_isWord isWord

theorem isPlain_of_declarationMode? {script : Script} {mode : DeclarationMode}
    (declares : script.declarationMode? kind = some mode)
    : kind.isPlain := by
  unfold Script.declarationMode? at declares
  split_ifs at declares with reserved isConst isVar
  · rw [isConst]
    rfl
  · rw [isVar]
    rfl

end Kind

namespace Grammar

/-- An update behind an operand is an increment or a decrement. -/
theorem eq_postfix_of_updateOperator? {token : Token} {operator : Operator}
    (updates : updateOperator? token = some operator)
    : operator = .postfixIncrement ∨ operator = .postfixDecrement := by
  unfold updateOperator? at updates
  split_ifs at updates <;> cases updates
  · exact .inl rfl
  · exact .inr rfl

/-- A token that opens an operator between operands is no update. -/
theorem updateOperator?_of_infixOperator? {token : Token} {operator : Operator}
    (opens : token.kind.infixOperator? = some operator)
    : updateOperator? token = none := by
  unfold updateOperator?
  split_ifs with newline isPlus isHyphen
  · rfl
  · rw [isPlus] at opens
    cases opens
  · rw [isHyphen] at opens
    cases opens
  · rfl

/-- The tokens of a production have a text, and are read in the mode for their kind. -/
def Item.Present : List Item → Prop
  | [] => True
  | .token first :: items => first.kind.isPlain ∧ Present items
  | .regex first :: items => first.kind = .literalRegex ∧ Present items
  | .ahead _ :: items | .part .. :: items => Present items

variable {script : Script} {span : Span} {items : List Item}

/-- The tokens of a production of expressions have texts, by cases on the production. -/
theorem ExpressionRule.present {phrase : Phrase} (rule : ExpressionRule script span phrase items)
    : Item.Present items := by
  cases rule with
  | operandPrefixed opens => exact ⟨Kind.isPlain_of_prefixOperator? opens, trivial⟩
  | boolean opens =>
      rcases opens with isTrue | isFalse
      · exact ⟨by rw [isTrue]; rfl, trivial⟩
      · exact ⟨by rw [isFalse]; rfl, trivial⟩
  | accessMember opens named =>
      refine ⟨by rw [opens]; rfl, ?_, trivial⟩
      rcases named with isName | isWord
      · rw [isName]
        rfl
      · exact Kind.isPlain_of_isWord isWord
  | operatorsUpdate updates => exact ⟨Kind.isPlain_of_updateOperator? updates, trivial⟩
  | continuationBinary opens => exact ⟨Kind.isPlain_of_infixOperator? opens, trivial⟩
  | memberProperty named divides =>
      exact ⟨Kind.isPlain_of_keyOf? named, by rw [divides]; rfl, trivial⟩
  | memberGetter opens _ named | memberSetter opens _ named =>
      exact ⟨by rw [opens]; rfl, Kind.isPlain_of_keyOf? named, trivial⟩
  | _ => simp [Item.Present, Kind.isPlain, *]

/-- The tokens of a production of statements have texts, by cases on the production. -/
theorem StatementRule.present {phrase : Phrase} (rule : StatementRule script span phrase items)
    : Item.Present items := by
  cases rule with
  | declarationStatement declares | declarationHeader declares =>
      exact ⟨Kind.isPlain_of_declarationMode? declares, trivial⟩
  | forClauseNone closes mark | forClauseSome _ closes mark => exact ⟨closes ▸ mark, trivial⟩
  | _ => simp [Item.Present, Kind.isPlain, *]

theorem RepetitionRule.present {nonterminal : Nonterminal}
    (rule : RepetitionRule nonterminal items)
    : Item.Present items := by
  cases rule with
  | listNone closes mark | listTailNone closes mark | looseListNone closes mark
  | looseListLast _ closes mark | afterKeywordSome closes mark =>
      exact ⟨closes ▸ mark, trivial⟩
  | _ => simp [Item.Present, Kind.isPlain, *]

/-- The tokens of every production have texts. -/
theorem Rule.present {nonterminal : Nonterminal} (rule : Rule script span nonterminal items)
    : Item.Present items := by
  cases rule with
  | expression rule => exact rule.present
  | statement rule => exact rule.present
  | repetition rule => exact rule.present

/-- What parses is consumed token by token. -/
theorem Parses.consumes {nonterminal : Nonterminal} {offset : Nat} {tokens : List Token}
    (derivation : Parses script nonterminal offset tokens)
    : script.Consumes offset tokens := by
  refine derivation.induction (motive := fun _ offset tokens => script.Consumes offset tokens) ?_
  intro nonterminal items offset rule components
  have present := rule.present
  clear rule
  induction items generalizing offset with
  | nil => trivial
  | cons item items ih =>
      cases item with
      | token first =>
          obtain ⟨plain, present⟩ := present
          obtain ⟨read, components⟩ := components
          simp only [Kind.isPlain, Bool.and_eq_true, bne_iff_ne] at plain
          refine ⟨?_, plain.1.1, ih components present⟩
          rwa [Kind.mode, if_neg plain.2]
      | regex first =>
          obtain ⟨isRegex, present⟩ := present
          obtain ⟨read, components⟩ := components
          refine ⟨?_, ?_, ih components present⟩
          · rwa [Kind.mode, if_pos isRegex]
          · rw [isRegex]
            decide
      | ahead tokens => exact ih components.2 present
      | part nonterminal tokens =>
          obtain ⟨⟨_, consumes⟩, components⟩ := components
          exact Script.consumes_append.mpr ⟨consumes, ih components present⟩

/-- What is consumed is valid. -/
theorem Parses.valid {nonterminal : Nonterminal} {offset : Nat} {tokens : List Token}
    (derivation : Parses script nonterminal offset tokens)
    : ∀ token ∈ tokens, token.kind ≠ .invalid := by
  refine derivation.induction (motive := fun _ _ tokens => ∀ token ∈ tokens, token.kind ≠ .invalid) ?_
  intro nonterminal items offset rule components
  have present := rule.present
  clear rule
  induction items generalizing offset with
  | nil => simp [Item.tokensOf]
  | cons item items ih =>
      cases item with
      | token first =>
          obtain ⟨plain, present⟩ := present
          simp only [Kind.isPlain, Bool.and_eq_true, bne_iff_ne] at plain
          exact List.forall_mem_cons.mpr ⟨plain.1.2, ih components.2 present⟩
      | regex first =>
          obtain ⟨isRegex, present⟩ := present
          refine List.forall_mem_cons.mpr ⟨?_, ih components.2 present⟩
          rw [isRegex]
          decide
      | ahead tokens => exact ih components.2 present
      | part nonterminal tokens =>
          exact List.forall_mem_append.mpr ⟨components.1.2, ih components.2 present⟩

-----------------------------------------------------------------------------------------
-- The token that a phrase begins with
-----------------------------------------------------------------------------------------

variable {offset : Nat} {tokens : List Token}

/-- An expression without operators begins with none. -/
theorem Parses.opens_primary {value : Expr}
    (derivation : Parses script (.phrase (.primary value)) offset tokens)
    : ∃ first rest,
        tokens = first :: rest
        ∧ script.Reads .regex offset first
        ∧ first.kind.prefixOperator? = none := by
  obtain ⟨items, rfl, rule, components⟩ := derivation.expression_components rfl
  cases rule with
  | regex opens => exact ⟨_, _, rfl, components.1, by rw [opens]; rfl⟩
  | boolean opens =>
      rcases opens with opens | opens
      · exact ⟨_, _, rfl, components.1.toRegex (by rw [opens]; rfl), by rw [opens]; rfl⟩
      · exact ⟨_, _, rfl, components.1.toRegex (by rw [opens]; rfl), by rw [opens]; rfl⟩
  | object opens | array opens | identifier opens | functionAnonymous opens
  | functionNamed opens | construct opens | constructBare opens | this opens | null opens
  | number opens | string opens | parenthesized opens =>
      exact ⟨_, _, rfl, components.1.toRegex (by rw [opens]; rfl), by rw [opens]; rfl⟩

/-- An operand begins with a token that is read where an operand is due. -/
theorem Parses.opens_operand {inAllowed : Bool} {value : Expr}
    (derivation : Parses script (.phrase (.operand inAllowed value)) offset tokens)
    : script.OpensOperand offset tokens := by
  obtain ⟨items, rfl, rule, components⟩ := derivation.expression_components rfl
  cases rule with
  | operandPlain =>
      obtain ⟨first, more, rfl, read, _⟩ := components.1.opens_primary
      exact ⟨first, _, rfl, read⟩
  | operandPrefixed opens =>
      exact ⟨_, _, rfl, components.1.toRegex (Kind.isSlash_of_prefixOperator? opens)⟩

/-- An expression begins as its first operand does. -/
theorem Parses.opens_expression {inAllowed : Bool} {least : Nat} {value : Expr}
    (derivation : Parses script (.phrase (.expression inAllowed least value)) offset tokens)
    : script.OpensOperand offset tokens := by
  obtain ⟨items, rfl, rule, components⟩ := derivation.expression_components rfl
  cases rule
  obtain ⟨first, more, rfl, read⟩ := components.1.opens_operand
  exact ⟨first, _, rfl, read⟩

end Grammar

end EcmaSyntax
