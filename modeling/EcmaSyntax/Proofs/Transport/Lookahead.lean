import EcmaSyntax.Proofs.Transport.Moving

/-! What productions look at but do not consume. A production stays one when the tokens that it looks at are
replaced by tokens of their kinds on their lines, or, at its end, by a token that closes what is open.
-/

namespace EcmaSyntax

open EcmaSyntax.Grammar

-----------------------------------------------------------------------------------------
-- Tokens in the place of others
-----------------------------------------------------------------------------------------

/-- A kind of token that ends statements without a mark. -/
def Kind.endsBlock (kind : Kind) : Bool :=
  kind = .endOfInput || kind = .braceClose

/-- A kind of token that ends expressions and goes on with nothing. -/
def Kind.isClosing (kind : Kind) : Bool :=
  kind.endsBlock || kind = .semicolon

/-- The other token is of the same kind and, unless lines are ignored, on a new line if the token is. -/
structure Token.Resembles (ignoresLine : Bool) (token other : Token) : Prop where
  kind_eq : other.kind = token.kind
  newline_eq : ignoresLine = false → other.afterNewline = token.afterNewline

namespace Kind

variable {kind other : Kind}

/-- What closes is none of what opens. -/
theorem ne_of_isClosing (closing : kind.isClosing) (opens : other.isClosing = false)
    : kind ≠ other := by
  rintro rfl
  rw [closing] at opens
  cases opens

/-- What ends statements without a mark closes expressions. -/
theorem isClosing_of_endsBlock (ends : kind.endsBlock) : kind.isClosing := by
  simp [isClosing, ends]

/-- What closes is no operator. -/
theorem infixOperator?_of_isClosing (closing : kind.isClosing) : kind.infixOperator? = none := by
  cases kind <;> first | rfl | cases closing

end Kind

namespace Grammar

/-- A token that closes what is open is no operator. -/
theorem stopsOperators_of_isClosing {token : Token} (closing : token.kind.isClosing)
    (inAllowed : Bool) (least : Nat)
    : StopsOperators inAllowed least token := by
  have noUpdate : updateOperator? token = none := by
    unfold updateOperator?
    rw [if_neg (Kind.ne_of_isClosing closing rfl), if_neg (Kind.ne_of_isClosing closing rfl)]
    simp
  rw [StopsOperators, noUpdate]
  intro operator opens
  rw [Kind.infixOperator?_of_isClosing closing] at opens
  cases opens

theorem endsStatement_of_endsBlock {token : Token} (ends : token.kind.endsBlock)
    : endsStatement token := by
  simp only [Kind.endsBlock, Bool.or_eq_true, decide_eq_true_eq] at ends
  rcases ends with ends | ends <;> simp [endsStatement, ends]

end Grammar

namespace Token.Resembles

variable {token other : Token}

/-- A token that resembles another one on its line resembles it if lines are ignored. -/
theorem mono {first second : Bool} (resembles : token.Resembles first other)
    (weaker : second = false → first = false)
    : token.Resembles second other :=
  ⟨resembles.kind_eq, fun noted => resembles.newline_eq (weaker noted)⟩

/-- Tokens that resemble each other are the same update, or both none. -/
theorem updateOperator?_eq (resembles : token.Resembles false other)
    : updateOperator? other = updateOperator? token := by
  rw [updateOperator?, updateOperator?, resembles.kind_eq, resembles.newline_eq rfl]

/-- A token stops the operators that those stop which it resembles. -/
theorem stopsOperators {inAllowed : Bool} {least : Nat} (resembles : token.Resembles false other)
    (stops : StopsOperators inAllowed least token)
    : StopsOperators inAllowed least other := by
  rwa [StopsOperators, resembles.updateOperator?_eq, resembles.kind_eq]

/-- Tokens that resemble each other both end a statement, or none does. -/
theorem endsStatement_eq (resembles : token.Resembles false other)
    : endsStatement other = endsStatement token := by
  rw [endsStatement, endsStatement, resembles.kind_eq, resembles.newline_eq rfl]

end Token.Resembles

namespace Grammar

-----------------------------------------------------------------------------------------
-- What may close a phrase
-----------------------------------------------------------------------------------------

/-- A token of the kind may follow the phrase whatever followed it before. -/
def Phrase.mayPrecede (kind : Kind) : Phrase → Bool
  | statement .. | statementEnd | jumpLabel _ | restrictedOperand .. | declaration .. =>
      kind.endsBlock
  | elements _ | branch .. | branchTest .. | forStart _ | forInTarget _ => false
  | _ => kind.isClosing

def Nonterminal.mayPrecede (kind : Kind) : Nonterminal → Bool
  | phrase inner => inner.mayPrecede kind
  | list _ phrases | listTail _ phrases | looseList _ phrases | separated phrases =>
      kind.isClosing && phrases.all (Phrase.mayPrecede kind)
  | repeated .. => false
  | afterKeyword keyword phrase? =>
      kind.isClosing && kind != keyword && phrase?.all (Phrase.mayPrecede kind)

def Item.isAhead : Item → Bool
  | .ahead _ => true
  | _ => false

/-- A token of the kind may follow the parts that may be last. -/
def Item.mayPrecede (kind : Kind) : List Item → Bool
  | [] => true
  | .token _ :: items | .regex _ :: items | .ahead _ :: items => mayPrecede kind items
  | .part nonterminal _ :: items =>
      (items.any isToken || nonterminal.mayPrecede kind) && mayPrecede kind items

variable {script : Script} {span : Span} {items seen : List Item} {phrase : Phrase} {kind : Kind}

/-- Whatever may follow any phrase closes. -/
theorem Phrase.isClosing_of_mayPrecede (closes : phrase.mayPrecede kind) : kind.isClosing := by
  cases phrase <;>
    first
    | exact closes
    | exact Kind.isClosing_of_endsBlock closes
    | cases closes

theorem all_map_of {α : Type} {f : α → Phrase} {value : Option α}
    (holds : ∀ inner, (f inner).mayPrecede kind)
    : (value.map f).all (Phrase.mayPrecede kind) := by
  cases value <;> simp [holds]

/-- What may follow a production may follow the parts that may be last in it. -/
theorem ExpressionRule.mayPrecede (rule : ExpressionRule script span phrase items)
    (closes : phrase.mayPrecede kind)
    : Item.mayPrecede kind items := by
  have closing := Phrase.isClosing_of_mayPrecede closes
  cases rule <;>
    simp_all [Item.mayPrecede, Item.isToken, Nonterminal.mayPrecede, Phrase.mayPrecede]

/-- What may follow a statement may follow the last parts of its productions. -/
theorem StatementRule.mayPrecede (rule : StatementRule script span phrase items)
    (closes : phrase.mayPrecede kind)
    : Item.mayPrecede kind items := by
  have closing := Phrase.isClosing_of_mayPrecede closes
  cases rule with
  | tryBlock =>
      have noCatch : kind ≠ .keywordCatch := Kind.ne_of_isClosing closing rfl
      have noFinally : kind ≠ .keywordFinally := Kind.ne_of_isClosing closing rfl
      simp [Item.mayPrecede, Nonterminal.mayPrecede, Phrase.mayPrecede, closing, noCatch, noFinally,
        all_map_of]
  | _ => simp_all [Item.mayPrecede, Item.isToken, Nonterminal.mayPrecede, Phrase.mayPrecede]

/-- What may follow a repetition may follow its last part. -/
theorem RepetitionRule.mayPrecede {nonterminal : Nonterminal}
    (rule : RepetitionRule nonterminal items) (closes : nonterminal.mayPrecede kind)
    : Item.mayPrecede kind items := by
  cases rule <;>
    simp_all [Item.mayPrecede, Item.isToken, Nonterminal.mayPrecede]

/-- What may follow a phrase may follow the last parts of each of its productions. -/
theorem Rule.mayPrecede {nonterminal : Nonterminal} (rule : Rule script span nonterminal items)
    (closes : nonterminal.mayPrecede kind)
    : Item.mayPrecede kind items := by
  cases rule with
  | expression rule => exact rule.mayPrecede closes
  | statement rule => exact rule.mayPrecede closes
  | repetition rule => exact rule.mayPrecede closes

-----------------------------------------------------------------------------------------
-- Other tokens to look at
-----------------------------------------------------------------------------------------

/-- The same components with other tokens to look at. They resemble those before, except that the last one may
close what is open.
-/
inductive Item.Sees (closes : Kind → Bool) (ignoresLine : Bool) : List Item → List Item → Prop
  | nil : Sees closes ignoresLine [] []
  | token {token : Token} {items seen : List Item} (rest : Sees closes ignoresLine items seen)
    : Sees closes ignoresLine (.token token :: items) (.token token :: seen)
  | regex {token : Token} {items seen : List Item} (rest : Sees closes ignoresLine items seen)
    : Sees closes ignoresLine (.regex token :: items) (.regex token :: seen)
  | part {nonterminal : Nonterminal} {tokens : List Token} {items seen : List Item}
    (rest : Sees closes ignoresLine items seen)
    : Sees closes ignoresLine (.part nonterminal tokens :: items) (.part nonterminal tokens :: seen)
  | alike {next other : Token} {items seen : List Item} (resembles : next.Resembles ignoresLine other)
    (rest : Sees closes ignoresLine items seen)
    : Sees closes ignoresLine (.ahead [next] :: items) (.ahead [other] :: seen)
  | last {next other : Token} {items seen : List Item} (closing : closes other.kind)
    (ends : items.any Item.consumes = false) (rest : Sees closes ignoresLine items seen)
    : Sees closes ignoresLine (.ahead [next] :: items) (.ahead [other] :: seen)
  | two {first second first' second' : Token} {items seen : List Item}
    (resembles : first.Resembles ignoresLine first')
    (follows : second.Resembles ignoresLine second' ∨ closes second'.kind)
    (rest : Sees closes ignoresLine items seen)
    : Sees closes ignoresLine (.ahead [first, second] :: items) (.ahead [first', second'] :: seen)

namespace Item.Sees

variable {closes : Kind → Bool} {ignoresLine : Bool} {next : Token}

/-- Components that look at nothing are seen as they are. -/
theorem eq_self (sees : Sees closes ignoresLine items seen) (plain : items.any isAhead = false)
    : seen = items := by
  induction sees with
  | nil => rfl
  | token _ ih | regex _ ih | part _ ih => rw [ih plain]
  | alike | last | two => cases plain

/-- Behind a component that is consumed. -/
theorem behind {item : Item} (sees : Sees closes ignoresLine (item :: items) seen)
    (consumed : item.isAhead = false)
    : ∃ rest, seen = item :: rest ∧ Sees closes ignoresLine items rest := by
  cases sees with
  | token rest | regex rest | part rest => exact ⟨_, rfl, rest⟩
  | alike | last | two => cases consumed

/-- In front of parts that consume, what is looked at resembles what was looked at before. -/
theorem opening (sees : Sees closes ignoresLine (.ahead [next] :: items) seen)
    (consumes : items.any Item.consumes)
    : ∃ other rest,
        seen = .ahead [other] :: rest
        ∧ next.Resembles ignoresLine other
        ∧ Sees closes ignoresLine items rest := by
  cases sees with
  | alike resembles rest => exact ⟨_, _, rfl, resembles, rest⟩
  | last _ ends =>
      rw [consumes] at ends
      cases ends

/-- A token that is looked at is seen as one that resembles it, or, at the end, closes. -/
theorem ending (sees : Sees closes ignoresLine (.ahead [next] :: items) seen)
    : ∃ other rest,
        seen = .ahead [other] :: rest
        ∧ (next.Resembles ignoresLine other ∨ closes other.kind)
        ∧ Sees closes ignoresLine items rest := by
  cases sees with
  | alike resembles rest => exact ⟨_, _, rfl, .inl resembles, rest⟩
  | last closing _ rest => exact ⟨_, _, rfl, .inr closing, rest⟩

end Item.Sees

/-- A production of expressions is one whatever is looked at instead. -/
theorem ExpressionRule.sees (rule : ExpressionRule script span phrase items)
    (sees : Item.Sees (fun kind => phrase.mayPrecede kind) phrase.ignoresLine items seen)
    : ExpressionRule script span phrase seen := by
  cases rule with
  | functionAnonymous opens anonymous =>
      obtain ⟨_, rfl, first⟩ := sees.behind rfl
      obtain ⟨other, rest, rfl, resembles, last⟩ := first.opening rfl
      obtain rfl := last.eq_self rfl
      exact .functionAnonymous opens (resembles.kind_eq.trans anonymous)
  | construct opens called =>
      obtain ⟨_, rfl, first⟩ := sees.behind rfl
      obtain ⟨_, rfl, second⟩ := first.behind rfl
      obtain ⟨_, rfl, third⟩ := second.behind rfl
      obtain ⟨other, rest, rfl, resembles, last⟩ := third.opening rfl
      obtain rfl := last.eq_self rfl
      exact .construct opens (resembles.kind_eq.trans called)
  | constructBare opens bare =>
      obtain ⟨_, rfl, first⟩ := sees.behind rfl
      obtain ⟨_, rfl, second⟩ := first.behind rfl
      obtain ⟨_, rfl, third⟩ := second.behind rfl
      obtain ⟨other, rest, rfl, follows, last⟩ := third.ending
      obtain rfl := last.eq_self rfl
      refine .constructBare opens ?_
      rcases follows with resembles | closing
      · rwa [resembles.kind_eq]
      · exact Kind.ne_of_isClosing closing rfl
  | accessesNone noPoint noBracket =>
      obtain ⟨other, rest, rfl, follows, last⟩ := sees.ending
      obtain rfl := last.eq_self rfl
      rcases follows with resembles | closing
      · rw [← resembles.kind_eq] at noPoint noBracket
        exact .accessesNone noPoint noBracket
      · exact .accessesNone (Kind.ne_of_isClosing closing rfl) (Kind.ne_of_isClosing closing rfl)
  | accessesMore opens isAccess =>
      obtain ⟨other, rest, rfl, resembles, last⟩ := sees.opening rfl
      obtain rfl := last.eq_self rfl
      rw [← resembles.kind_eq] at opens
      exact .accessesMore opens isAccess
  | operatorsNone stops =>
      obtain ⟨other, rest, rfl, follows, last⟩ := sees.ending
      obtain rfl := last.eq_self rfl
      refine .operatorsNone ?_
      rcases follows with resembles | closing
      · exact resembles.stopsOperators stops
      · exact stopsOperators_of_isClosing closing _ _
  | operatorsMore noUpdate opens binds allowed =>
      obtain ⟨other, rest, rfl, resembles, last⟩ := sees.opening rfl
      obtain rfl := last.eq_self rfl
      rw [← resembles.updateOperator?_eq] at noUpdate
      rw [← resembles.kind_eq] at opens
      exact .operatorsMore noUpdate opens binds allowed
  | elementsNone closes =>
      obtain ⟨other, rest, rfl, resembles | closing, last⟩ := sees.ending
      · obtain rfl := last.eq_self rfl
        exact .elementsNone (resembles.kind_eq.trans closes)
      · cases closing
  | elementsLast noComma noClose closes =>
      obtain ⟨first, rest, rfl, resembles, second⟩ := sees.opening rfl
      obtain ⟨_, rfl, third⟩ := second.behind rfl
      obtain ⟨other, rest, rfl, follows | closing, last⟩ := third.ending
      · obtain rfl := last.eq_self rfl
        rw [← resembles.kind_eq] at noComma noClose
        exact .elementsLast noComma noClose (follows.kind_eq.trans closes)
      · cases closing
  | elementsMore noComma noClose separates =>
      obtain ⟨first, rest, rfl, resembles, last⟩ := sees.opening rfl
      obtain rfl := last.eq_self rfl
      rw [← resembles.kind_eq] at noComma noClose
      exact .elementsMore noComma noClose separates
  | expression | operandPlain | operandPrefixed | object | array | identifier | functionNamed
  | this | boolean | null | number | regex | string | parenthesized | accessMember | accessIndex
  | operatorsUpdate | continuationCall | continuationAccess | continuationConditional
  | continuationBinary | arguments | elementsHole | memberProperty | memberGetter | memberSetter
  | function | parameter | body =>
      obtain rfl := sees.eq_self rfl
      constructor <;> assumption

/-- A production of statements is one whatever is looked at instead. -/
theorem StatementRule.sees (rule : StatementRule script span phrase items)
    (sees : Item.Sees (fun kind => phrase.mayPrecede kind) phrase.ignoresLine items seen)
    : StatementRule script span phrase seen := by
  cases rule with
  | doWhile opens loops noEnd =>
      obtain ⟨_, rfl, first⟩ := sees.behind rfl
      obtain ⟨_, rfl, second⟩ := first.behind rfl
      obtain ⟨_, rfl, third⟩ := second.behind rfl
      obtain ⟨_, rfl, fourth⟩ := third.behind rfl
      obtain ⟨other, rest, rfl, follows, last⟩ := fourth.ending
      obtain rfl := last.eq_self rfl
      refine .doWhile opens loops ?_
      rcases follows with resembles | closing
      · rwa [resembles.kind_eq]
      · rintro same
        rw [same] at closing
        cases closing
  | expression plain unnamed =>
      obtain ⟨first, rest, rfl, resembles, last⟩ := sees.opening rfl
      obtain rfl := last.eq_self rfl
      rw [← resembles.kind_eq] at plain unnamed
      exact .expression plain unnamed
  | expressionNamed named noLabel =>
      cases sees with
      | two resembles follows rest =>
          obtain rfl := rest.eq_self rfl
          refine .expressionNamed (resembles.kind_eq.trans named) ?_
          rcases follows with resembles | closing
          · rwa [resembles.kind_eq]
          · exact Kind.ne_of_isClosing (Kind.isClosing_of_endsBlock closing) rfl
  | ifOnly opens noElse =>
      obtain ⟨_, rfl, first⟩ := sees.behind rfl
      obtain ⟨_, rfl, second⟩ := first.behind rfl
      obtain ⟨_, rfl, third⟩ := second.behind rfl
      obtain ⟨other, rest, rfl, follows, last⟩ := third.ending
      obtain rfl := last.eq_self rfl
      refine .ifOnly opens ?_
      rcases follows with resembles | closing
      · rwa [resembles.kind_eq]
      · exact Kind.ne_of_isClosing (Kind.isClosing_of_endsBlock closing) rfl
  | statementEndImplied noMark ends =>
      obtain ⟨other, rest, rfl, follows, last⟩ := sees.ending
      obtain rfl := last.eq_self rfl
      rcases follows with resembles | closing
      · rw [← resembles.kind_eq] at noMark
        exact .statementEndImplied noMark (resembles.endsStatement_eq.trans ends)
      · refine .statementEndImplied ?_ (endsStatement_of_endsBlock closing)
        rintro same
        rw [same] at closing
        cases closing
  | jumpLabelNone unnamed =>
      obtain ⟨other, rest, rfl, follows, last⟩ := sees.ending
      obtain rfl := last.eq_self rfl
      refine .jumpLabelNone ?_
      rcases follows with resembles | closing
      · rwa [resembles.kind_eq, resembles.newline_eq rfl]
      · exact fun named =>
          absurd named (Kind.ne_of_isClosing (Kind.isClosing_of_endsBlock closing) rfl)
  | restrictedOperandNone ends =>
      obtain ⟨other, rest, rfl, follows, last⟩ := sees.ending
      obtain rfl := last.eq_self rfl
      refine .restrictedOperandNone ?_
      rcases follows with resembles | closing
      · exact resembles.endsStatement_eq.trans ends
      · exact endsStatement_of_endsBlock closing
  | restrictedOperandSome goesOn =>
      obtain ⟨other, rest, rfl, resembles, last⟩ := sees.opening rfl
      obtain rfl := last.eq_self rfl
      exact .restrictedOperandSome (resembles.endsStatement_eq.trans goesOn)
  | declaratorPlain named plain =>
      obtain ⟨_, rfl, first⟩ := sees.behind rfl
      obtain ⟨other, rest, rfl, follows, last⟩ := first.ending
      obtain rfl := last.eq_self rfl
      refine .declaratorPlain named ?_
      rcases follows with resembles | closing
      · rwa [resembles.kind_eq]
      · exact Kind.ne_of_isClosing closing rfl
  | forStartDeclaration opens =>
      obtain ⟨other, rest, rfl, resembles, last⟩ := sees.opening rfl
      obtain rfl := last.eq_self rfl
      rw [← resembles.kind_eq] at opens
      exact .forStartDeclaration opens
  | forStartNothing missing =>
      obtain ⟨other, rest, rfl, resembles | closing, last⟩ := sees.ending
      · obtain rfl := last.eq_self rfl
        exact .forStartNothing (resembles.kind_eq.trans missing)
      · cases closing
  | forStartExpression noDeclaration present =>
      obtain ⟨other, rest, rfl, resembles, last⟩ := sees.opening rfl
      obtain rfl := last.eq_self rfl
      rw [← resembles.kind_eq] at noDeclaration present
      exact .forStartExpression noDeclaration present
  | forClauseSome present closes mark =>
      obtain ⟨other, rest, rfl, resembles, last⟩ := sees.opening rfl
      obtain rfl := last.eq_self rfl
      rw [← resembles.kind_eq] at present
      exact .forClauseSome present closes mark
  | forInTargetDeclaration opens single =>
      obtain ⟨other, rest, rfl, resembles, last⟩ := sees.opening rfl
      obtain rfl := last.eq_self rfl
      rw [← resembles.kind_eq] at opens
      exact .forInTargetDeclaration opens single
  | forInTargetExpression noDeclaration present target =>
      obtain ⟨other, rest, rfl, resembles, last⟩ := sees.opening rfl
      obtain rfl := last.eq_self rfl
      rw [← resembles.kind_eq] at noDeclaration present
      exact .forInTargetExpression noDeclaration present target
  | block | breakTo | continueTo | declaration | debugger | doWhileEnded | empty | forIn | forLoop
  | ifElse | labelled | returnValue | throwValue | switch | tryBlock | whileLoop | withObject
  | function | statementEndMark | jumpLabelSome | condition | blockOf | declarationStatement
  | declarationHeader | declaratorInitialized | initializer | handler | branch | branchTestCase
  | branchTestDefault | forClauseNone =>
      obtain rfl := sees.eq_self rfl
      constructor <;> assumption

/-- A production of repeated phrases is one whatever is looked at instead. -/
theorem RepetitionRule.sees {nonterminal : Nonterminal} (rule : RepetitionRule nonterminal items)
    (sees : Item.Sees (fun kind => nonterminal.mayPrecede kind) nonterminal.ignoresLine items seen)
    : RepetitionRule nonterminal seen := by
  cases rule with
  | listMore goesOn =>
      obtain ⟨other, rest, rfl, resembles, last⟩ :=
        sees.opening (by simp [Item.consumes, Nonterminal.consumes])
      obtain rfl := last.eq_self rfl
      rw [← resembles.kind_eq] at goesOn
      exact .listMore goesOn
  | looseListLast goesOn closes mark noComma =>
      obtain ⟨other, rest, rfl, resembles, last⟩ := sees.opening (by simp [Item.consumes])
      obtain rfl := last.eq_self rfl
      rw [← resembles.kind_eq] at goesOn
      exact .looseListLast goesOn closes mark noComma
  | looseListMore goesOn separates =>
      obtain ⟨other, rest, rfl, resembles, last⟩ := sees.opening (by simp [Item.consumes])
      obtain rfl := last.eq_self rfl
      rw [← resembles.kind_eq] at goesOn
      exact .looseListMore goesOn separates
  | separatedLast noComma =>
      obtain ⟨_, rfl, first⟩ := sees.behind rfl
      obtain ⟨other, rest, rfl, follows, last⟩ := first.ending
      obtain rfl := last.eq_self rfl
      refine .separatedLast ?_
      rcases follows with resembles | closing
      · rwa [resembles.kind_eq]
      · rw [Nonterminal.mayPrecede, Bool.and_eq_true] at closing
        exact Kind.ne_of_isClosing closing.1 rfl
  | repeatedNone stops =>
      obtain ⟨other, rest, rfl, resembles | closing, last⟩ := sees.ending
      · obtain rfl := last.eq_self rfl
        rw [← resembles.kind_eq] at stops
        exact .repeatedNone stops
      · cases closing
  | repeatedMore goesOn =>
      obtain ⟨other, rest, rfl, resembles | closing, last⟩ := sees.ending
      · obtain rfl := last.eq_self rfl
        rw [← resembles.kind_eq] at goesOn
        exact .repeatedMore goesOn
      · cases closing
  | afterKeywordNone missing =>
      obtain ⟨other, rest, rfl, follows, last⟩ := sees.ending
      obtain rfl := last.eq_self rfl
      refine .afterKeywordNone ?_
      rcases follows with resembles | closing
      · rwa [resembles.kind_eq]
      · simp only [Nonterminal.mayPrecede, Bool.and_eq_true, bne_iff_ne] at closing
        exact closing.1.2
  | listNone | listTailNone | listTailMore | looseListNone | separatedMore | afterKeywordSome =>
      obtain rfl := sees.eq_self rfl
      constructor <;> assumption

/-- A production is one whatever is looked at instead. -/
theorem Rule.sees {nonterminal : Nonterminal} (rule : Rule script span nonterminal items)
    (sees : Item.Sees (fun kind => nonterminal.mayPrecede kind) nonterminal.ignoresLine items seen)
    : Rule script span nonterminal seen := by
  cases rule with
  | expression rule => exact .expression (rule.sees sees)
  | statement rule => exact .statement (rule.sees sees)
  | repetition rule => exact .repetition (rule.sees sees)

end Grammar

end EcmaSyntax
