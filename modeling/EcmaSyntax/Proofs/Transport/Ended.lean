import EcmaSyntax.Proofs.Grammar.Edges
import EcmaSyntax.Proofs.Transport.Carrying

/-! Statements with a semicolon as their last token. Nothing of such a statement is open any more, so it may
stand in front of whatever does not go on with a conditional statement.
-/

namespace EcmaSyntax

open EcmaSyntax.Grammar

variable {script other : Script} {relocation : Relocation} {offset : Nat}
variable {tokens front back : List Token}

/-- What is read at the offset does not go on with a conditional statement. -/
def Script.ShowsNoElse (script : Script) (offset : Nat) : Prop :=
  ∃ next, script.Reads .standard offset next ∧ next.kind ≠ .keywordElse

namespace Grammar

-----------------------------------------------------------------------------------------
-- Ended phrases
-----------------------------------------------------------------------------------------

/-- A phrase that may be ended by a semicolon which is part of it. -/
def Phrase.mayEndInMark : Phrase → Bool
  | statement .. | statementEnd | jumpLabel _ | restrictedOperand ..
  | declaration _ .statement _ => true
  | _ => false

/-- With a semicolon at its end, the phrase can be had in the other text, whatever follows there. -/
def Nonterminal.Stays (relocation : Relocation) (script other : Script) (offset : Nat)
    (tokens : List Token)
    : Nonterminal → Prop
  | phrase inner =>
      inner.mayEndInMark →
      Token.endsInMark tokens →
      relocation.Carries script other false offset tokens →
      other.ShowsNoElse (relocation.stop (Token.endOf offset tokens)) →
      Parses other (.phrase (inner.moved relocation.span)) (relocation.stop offset)
        (tokens.map relocation.token)
  | _ => True

variable {phrase last : Phrase} {item : Item} {items first seen seen' : List Item}

namespace Item.Sees

variable {closes : Kind → Bool} {ignoresLine : Bool} {items' : List Item}

/-- Behind components where nothing closes what is open, others may be seen. -/
theorem append (sees : Sees (fun _ => false) false items seen)
    (behind : Sees closes ignoresLine items' seen')
    : Sees closes ignoresLine (items ++ items') (seen ++ seen') := by
  induction sees with
  | nil => exact behind
  | token _ ih => exact .token ih
  | regex _ ih => exact .regex ih
  | part _ ih => exact .part ih
  | alike resembles _ ih => exact .alike (resembles.mono fun _ => rfl) ih
  | last closing => cases closing
  | two resembles follows _ ih =>
      refine .two (resembles.mono fun _ => rfl) (.inl ?_) ih
      exact (follows.resolve_right nofun).mono fun _ => rfl

/-- What is consumed is seen as it is. -/
theorem of_consumed (consumed : item.isAhead = false) : Sees closes ignoresLine [item] [item] := by
  cases item with
  | token => exact .token .nil
  | regex => exact .regex .nil
  | part => exact .part .nil
  | ahead => cases consumed

end Item.Sees

/-- A production of statements with a semicolon as its last token, the tokens of which are carried over to a
place in front of something else.
-/
structure Phrase.Ended (relocation : Relocation) (script other : Script) (phrase : Phrase)
    (items : List Item) (offset : Nat)
    : Prop where
  rule : StatementRule script (Token.spanOf (Item.tokensOf items)) phrase items
  components
    : Components script
        (fun part offset tokens =>
          Parses script part offset tokens ∧ part.Stays relocation script other offset tokens)
        items offset
  ends : Token.endsInMark (Item.tokensOf items)
  dialect_eq : other.dialect = script.dialect
  carries : relocation.Carries script other false offset (Item.tokensOf items)
  follows : other.ShowsNoElse (relocation.stop (Token.endOf offset (Item.tokensOf items)))

namespace Phrase.Ended

/-- The parts of the production parse in the text that it is of. -/
theorem parses (ended : phrase.Ended relocation script other items offset)
    : Components script (Parses script) items offset :=
  ended.components.mono fun _ _ _ holds => holds.1

/-- The production makes the phrase in the text that it is of. -/
theorem whole (ended : phrase.Ended relocation script other items offset)
    : Parses script (.phrase phrase) offset (Item.tokensOf items) :=
  .of_rule (.statement ended.rule) ended.parses.sequence

/-- The production itself, of the tokens at their new places. -/
theorem moved (ended : phrase.Ended relocation script other items offset)
    : StatementRule other (Token.spanOf ((Item.tokensOf items).map relocation.token))
        (phrase.moved relocation.span) (items.map (Item.moved relocation)) := by
  have consumes := ended.whole.consumes
  have present : Item.tokensOf items ≠ [] := by
    intro none
    have ends := ended.ends
    rw [none] at ends
    cases ends
  refine ended.rule.moved (ended.carries.keeps consumes ended.dialect_eq fun _ => rfl) fun _ => ?_
  exact ended.carries.spanOf_map consumes present

/-- Not all that may be last in the production is something else than a semicolon. -/
theorem not_endPlain (ended : phrase.Ended relocation script other items offset)
    : ¬Item.EndPlain items := by
  intro plain
  have ends := ended.parses.endsInMark_eq_false plain (fun _ _ _ holds => holds)
    fun _ _ _ holds => holds.endsInMark_eq_false
  rw [ended.ends] at ends
  cases ends

/-- No phrase of statements goes on from an expression. -/
theorem attached (ended : phrase.Ended relocation script other items offset)
    : phrase.Attached script offset := by
  cases ended.rule <;> trivial

/-- The components in front of further tokens can be had in the other text. -/
theorem opened (first : List Item) {behind : List Item}
    (ended : phrase.Ended relocation script other (first ++ behind) offset)
    (ahead : Item.LooksAhead first) (present : Item.tokensOf behind ≠ [])
    : ∃ seen,
        Item.Sees (fun _ => false) false first seen
        ∧ Components other (Parses other) (seen.map (Item.moved relocation))
            (relocation.stop offset) := by
  have fits := (Rule.statement ended.rule).attached ended.parses ended.attached
  have parses := (components_append.mp ended.parses).1
  have consumes := ended.whole.consumes
  have carries := ended.carries
  obtain ⟨token, tokens, row⟩ := List.exists_cons_of_ne_nil present
  rw [Item.tokensOf_append] at consumes carries
  refine (parses.mono fun _ _ _ holds => ⟨holds, holds.moves ended.dialect_eq⟩).moved
    (components_append.mp fits).1 (Script.consumes_append.mp consumes).1 ended.rule.present.left
    ahead ?_ nofun carries.left ?_
  · exact nofun
  · rw [row] at carries
    exact carries.later.1.shows.follows

/-- With its last component, a production whose last token is the semicolon can be had in the other text. -/
theorem closing (first : List Item)
    (ended : phrase.Ended relocation script other (first ++ [item]) offset)
    (ahead : Item.LooksAhead first) (consumed : item.isAhead = false)
    (present : Item.tokensOf [item] ≠ [])
    (closed
      : Components other (Parses other) [item.moved relocation]
          (relocation.stop (Token.endOf offset (Item.tokensOf first))))
    : Parses other (.phrase (phrase.moved relocation.span)) (relocation.stop offset)
        ((Item.tokensOf (first ++ [item])).map relocation.token) := by
  obtain ⟨seen, sees, opened⟩ := ended.opened first ahead present
  have consumes := ended.whole.consumes
  rw [Item.tokensOf_append] at consumes
  have plain : (item.moved relocation).isAhead = false := by
    cases item <;> first | rfl | cases consumed
  have rule := ended.moved
  rw [List.map_append] at rule
  have rule := rule.sees (sees.moved.append (.of_consumed plain))
  refine .intro (.statement rule) (components_append.mpr ⟨opened, ?_⟩).sequence ?_
  · rwa [Item.tokensOf_moved, sees.tokensOf_eq,
      Relocation.endOf_map (Script.consumes_append.mp consumes).1]
  · rw [← List.map_singleton, ← List.map_append, Item.tokensOf_moved, Item.tokensOf_append,
      Item.tokensOf_append, sees.tokensOf_eq]

/-- With the semicolon itself as the last component. -/
theorem marked (first : List Item) {mark : Token}
    (ended : phrase.Ended relocation script other (first ++ [.token mark]) offset)
    (ahead : Item.LooksAhead first)
    : Parses other (.phrase (phrase.moved relocation.span)) (relocation.stop offset)
        ((Item.tokensOf (first ++ [.token mark])).map relocation.token) := by
  have carries := ended.carries
  rw [Item.tokensOf_append] at carries
  have read := carries.later.1.read
  have isMark : mark.kind = .semicolon := by
    simpa [Item.tokensOf_append, Item.tokensOf, Token.endsInMark] using ended.ends
  refine ended.closing first ahead rfl (List.cons_ne_nil _ _) ⟨?_, trivial⟩
  rwa [isMark] at read

/-- With a part as the last component that the semicolon ends. -/
theorem joining (first : List Item)
    (ended : phrase.Ended relocation script other (first ++ [.part (.phrase last) back]) offset)
    (ahead : Item.LooksAhead first) (may : last.mayEndInMark)
    (plain : last.consumes ∨ Item.EndPlain first)
    : Parses other (.phrase (phrase.moved relocation.span)) (relocation.stop offset)
        ((Item.tokensOf (first ++ [.part (.phrase last) back])).map relocation.token) := by
  obtain ⟨inFirst, ⟨parsesLast, stays⟩, _⟩ := components_append.mp ended.components
  have whole
      : Item.tokensOf (first ++ [.part (.phrase last) back]) = Item.tokensOf first ++ back := by
    simp [Item.tokensOf_append, Item.tokensOf]
  obtain ⟨-, -, ends, -, carries, follows⟩ := id ended
  rw [whole] at ends carries follows
  have present : back ≠ [] := by
    refine plain.elim (fun consumes => parsesLast.ne_nil consumes) ?_
    rintro plain rfl
    rw [List.append_nil, inFirst.endsInMark_eq_false plain (fun _ _ _ holds => holds.1)
      fun _ _ _ holds => holds.1.endsInMark_eq_false] at ends
    cases ends
  rw [Token.endsInMark_append present] at ends
  rw [Token.endOf_append] at follows
  refine ended.closing first ahead rfl (by simpa [Item.tokensOf] using present) ⟨?_, trivial⟩
  exact stays may ends carries.later follows

-----------------------------------------------------------------------------------------
-- Productions that end with a semicolon
-----------------------------------------------------------------------------------------

/-- A conditional statement without alternative has none where no alternative follows. -/
theorem stays_ifOnly {inAllowed : Bool} {span : Span} {test : Expr} {consequent : Stmt}
    {keyword next : Token} (opens : keyword.kind = .keywordIf)
    (covers : span = Token.spanOf (keyword :: (front ++ back)))
    (ended
      : (statement inAllowed (.ifElse span test consequent none)).Ended relocation script other
          ([
            .token keyword,
            .part (.phrase (.condition inAllowed test)) front
          ]
          ++ [.part (.phrase (.statement inAllowed consequent)) back, .ahead [next]])
          offset)
    : Parses other
        (.phrase ((statement inAllowed (.ifElse span test consequent none)).moved relocation.span))
        (relocation.stop offset) ((keyword :: (front ++ back)).map relocation.token) := by
  obtain ⟨_, ⟨parses, stays⟩, _⟩ := components_append.mp ended.components
  have present := parses.ne_nil rfl
  obtain ⟨seen, sees, opened⟩ := ended.opened _ trivial (by simpa [Item.tokensOf] using present)
  obtain rfl := sees.eq_self rfl
  have first_eq
      : Item.tokensOf [.token keyword, .part (.phrase (.condition inAllowed test)) front]
          = keyword :: front := by
    simp [Item.tokensOf]
  have behind_eq
      : Item.tokensOf [.part (.phrase (.statement inAllowed consequent)) back, .ahead [next]]
          = back :=
    List.append_nil back
  have consumes := ended.whole.consumes
  obtain ⟨_, _, ends, _, carries, follows⟩ := ended
  rw [Item.tokensOf_append, first_eq, behind_eq] at ends carries follows consumes
  have span_eq := carries.spanOf_map consumes (List.cons_ne_nil _ _)
  rw [Token.endsInMark_append present] at ends
  rw [Token.endOf_append] at follows
  obtain ⟨consumesFirst, consumesBack⟩ := Script.consumes_append.mp consumes
  rw [first_eq] at stays
  have parsed := stays rfl ends carries.later follows
  obtain ⟨shown, read, noElse⟩ := follows
  rw [← Relocation.endOf_map consumesBack, ← Relocation.endOf_map consumesFirst] at read
  rw [← Relocation.endOf_map consumesFirst] at parsed
  obtain ⟨readKeyword, parsesTest, _⟩ := opened
  have opens : (relocation.token keyword).kind = .keywordIf := opens
  rw [Phrase.moved, Moved.ofStmt, covers, ← List.cons_append, ← span_eq]
  refine .intro (.statement (.ifOnly opens noElse))
    (.token readKeyword (.part parsesTest (.part parsed (.ahead ⟨read, trivial⟩ .nil)))) ?_
  simp [Item.tokensOf]

/-- A statement that is ended by its semicolon stays, by cases on its production: either the mark is its
own last token, or a part at its end has it.
-/
theorem stays_statement {inAllowed : Bool} {inner : Stmt}
    (ended : (statement inAllowed inner).Ended relocation script other items offset)
    : Parses other (.phrase ((statement inAllowed inner).moved relocation.span))
        (relocation.stop offset) ((Item.tokensOf items).map relocation.token) := by
  cases ended.rule with
  | block => exact (ended.not_endPlain ⟨.inr rfl, trivial⟩).elim
  | breakTo opens =>
      exact ended.joining [_] trivial rfl (.inr ⟨.inr (by simp [opens]), trivial⟩)
  | continueTo opens =>
      exact ended.joining [_] trivial rfl (.inr ⟨.inr (by simp [opens]), trivial⟩)
  | declaration => exact ended.joining [] trivial rfl (.inl rfl)
  | debugger opens =>
      exact ended.joining [_] trivial rfl (.inr ⟨.inr (by simp [opens]), trivial⟩)
  | doWhileEnded => exact ended.marked [_, _, _, _] trivial
  | doWhile opens loops =>
      exact (ended.not_endPlain ⟨.inl rfl, .inl rfl, .inl rfl, .inr rfl, trivial⟩).elim
  | empty => exact ended.marked [] trivial
  | expression => exact ended.joining [_, _] ⟨.inl ⟨_, rfl⟩, trivial⟩ rfl (.inr ⟨.inr rfl, trivial⟩)
  | expressionNamed named =>
      exact ended.joining [_, _] ⟨.inr ⟨_, _, rfl, named, rfl⟩, trivial⟩ rfl
        (.inr ⟨.inr rfl, trivial⟩)
  | forIn | forLoop => exact ended.joining [_, _, _, _, _, _] trivial rfl (.inl rfl)
  | ifElse => exact ended.joining [_, _, _, _] trivial rfl (.inl rfl)
  | ifOnly opens => simpa [Item.tokensOf] using stays_ifOnly opens (by simp [Item.tokensOf]) ended
  | labelled | whileLoop | withObject => exact ended.joining [_, _] trivial rfl (.inl rfl)
  | returnValue opens =>
      exact ended.joining [_] trivial rfl (.inr ⟨.inr (by simp [opens]), trivial⟩)
  | throwValue opens =>
      exact ended.joining [_] trivial rfl (.inr ⟨.inr (by simp [opens]), trivial⟩)
  | switch opens encloses closes =>
      have plain {kind : Kind} (closes : kind = .braceClose) : kind ≠ .semicolon := by simp [closes]
      exact (ended.not_endPlain
        ⟨.inl rfl, .inl rfl, .inl rfl, .inl rfl, .inr (plain closes), trivial⟩).elim
  | @tryBlock inAllowed finalizer keyword front middle back block handler =>
      refine (ended.not_endPlain ⟨.inl rfl, .inr rfl, .inr ?_, .inr ?_, trivial⟩).elim
      · cases handler <;> rfl
      · cases finalizer <;> rfl
  | function => exact (ended.not_endPlain ⟨.inl rfl, .inl rfl, .inr rfl, trivial⟩).elim

/-- The end of a statement stays, since it is the semicolon. -/
theorem stays_statementEnd
    (ended : Phrase.statementEnd.Ended relocation script other items offset)
    : Parses other (.phrase .statementEnd) (relocation.stop offset)
        ((Item.tokensOf items).map relocation.token) := by
  cases ended.rule with
  | statementEndMark => exact ended.marked [] trivial
  | statementEndImplied => exact (ended.not_endPlain trivial).elim

/-- The label of a jump is ended by no semicolon. -/
theorem stays_jumpLabel {label : Option String}
    (ended : (Phrase.jumpLabel label).Ended relocation script other items offset)
    : Parses other (.phrase (.jumpLabel label)) (relocation.stop offset)
        ((Item.tokensOf items).map relocation.token) := by
  cases ended.rule with
  | jumpLabelSome named =>
      exact ended.joining [_] trivial rfl (.inr ⟨.inr (by simp [named]), trivial⟩)
  | jumpLabelNone => exact ended.joining [_] ⟨.inl ⟨_, rfl⟩, trivial⟩ rfl (.inr trivial)

/-- The operand of a jump is ended by no semicolon. -/
theorem stays_restrictedOperand {inAllowed : Bool} {value : Option Expr}
    (ended : (restrictedOperand inAllowed value).Ended relocation script other items offset)
    : Parses other (.phrase ((restrictedOperand inAllowed value).moved relocation.span))
        (relocation.stop offset) ((Item.tokensOf items).map relocation.token) := by
  cases ended.rule with
  | restrictedOperandNone => exact ended.joining [_] ⟨.inl ⟨_, rfl⟩, trivial⟩ rfl (.inr trivial)
  | restrictedOperandSome =>
      exact ended.joining [_, _] ⟨.inl ⟨_, rfl⟩, trivial⟩ rfl (.inr ⟨.inr rfl, trivial⟩)

/-- A declaration that is ended by its semicolon stays. -/
theorem stays_declaration {inAllowed : Bool} {inner : Declaration}
    (ended : (declaration inAllowed .statement inner).Ended relocation script other items offset)
    : Parses other (.phrase ((declaration inAllowed .statement inner).moved relocation.span))
        (relocation.stop offset) ((Item.tokensOf items).map relocation.token) := by
  cases ended.rule with
  | @declarationStatement mode _ keyword front back declarators declares =>
      refine ended.joining [_, _] trivial rfl (.inr ⟨.inr fun isMark => ?_, .inr ?_, trivial⟩)
      · simp [isMark, Script.declarationMode?] at declares
      · simp [Nonterminal.endsPlain, endsPlain]

/-- Whatever may be ended by a semicolon stays, by cases on what it is. -/
theorem stays (ended : phrase.Ended relocation script other items offset)
    (may : phrase.mayEndInMark)
    : Parses other (.phrase (phrase.moved relocation.span)) (relocation.stop offset)
        ((Item.tokensOf items).map relocation.token) := by
  cases phrase with
  | statement => exact ended.stays_statement
  | statementEnd => exact ended.stays_statementEnd
  | jumpLabel => exact ended.stays_jumpLabel
  | restrictedOperand => exact ended.stays_restrictedOperand
  | declaration inAllowed place =>
      cases place with
      | statement => exact ended.stays_declaration
      | forHeader => cases may
  | _ => cases may

end Phrase.Ended

/-- A statement with a semicolon as its last token stays what it is, whatever follows it but `else`. -/
theorem Parses.stays {nonterminal : Nonterminal}
    (derivation : Parses script nonterminal offset tokens)
    (dialect_eq : other.dialect = script.dialect)
    : nonterminal.Stays relocation script other offset tokens := by
  refine derivation.induction
    (motive := fun nonterminal offset tokens =>
      nonterminal.Stays relocation script other offset tokens) ?_
  intro nonterminal items offset rule components
  cases rule with
  | expression rule => cases rule <;> first | trivial | exact nofun
  | statement rule =>
      intro may ends carries follows
      exact Phrase.Ended.stays ⟨rule, components, ends, dialect_eq, carries, follows⟩ may
  | repetition rule => cases rule <;> trivial

end Grammar

end EcmaSyntax
