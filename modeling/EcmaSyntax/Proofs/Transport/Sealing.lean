import EcmaSyntax.Proofs.Form.Moved
import EcmaSyntax.Proofs.Grammar.Edges
import EcmaSyntax.Proofs.Transport.Carrying

/-! A semicolon at the end of the input. A statement that has been ended by the end of the input takes it up,
wherever in the statement that was, and stays what it is; every other statement leaves it to the next
one.
-/

namespace EcmaSyntax

open EcmaSyntax.Grammar

-----------------------------------------------------------------------------------------
-- Statements that need a semicolon
-----------------------------------------------------------------------------------------

namespace Stmt

/-- The statement at the very end of a statement, which may be itself. -/
def innermost : Stmt → Stmt
  | forIn _ _ _ body | forLoop _ _ _ _ body | labelled _ _ body | whileLoop _ _ body
  | withObject _ _ body => body.innermost
  | ifElse _ _ consequent none => consequent.innermost
  | ifElse _ _ _ (some alternate) => alternate.innermost
  | other => other

/-- The statement ends with a brace of its own, behind which no semicolon is due. -/
def endsInBrace : Stmt → Bool
  | block _ | switch .. | tryBlock .. | function .. => true
  | _ => false

/-- A semicolon ends the statement, unless it is implied. -/
def needsMark (statement : Stmt) : Bool :=
  !statement.innermost.endsInBrace

end Stmt

namespace Token

variable {front back : List Token}

/-- The semicolon, if the tokens need one and do not end in one. -/
def due (mark : Token) (needed : Bool) (tokens : List Token) : List Token :=
  if needed && !endsInMark tokens then [mark] else []

/-- No semicolon is due behind one, nor where none is needed. -/
theorem due_of_closed (mark : Token) {needed : Bool} {tokens : List Token}
    (closed : needed = false ∨ endsInMark tokens)
    : mark.due needed tokens = [] := by
  rw [due, if_neg]
  rcases closed with rfl | closed <;> simp [*]

/-- What is due behind tokens in two parts is due behind the second one. -/
theorem due_append (mark : Token) (needed : Bool)
    (plain : back ≠ [] ∨ endsInMark front = false)
    : mark.due needed (front ++ back) = mark.due needed back := by
  rw [due, due]
  rcases plain with present | plain
  · rw [endsInMark_append present]
  · rw [endsInMark_append_of_plain plain]

end Token

variable {script other : Script} {relocation : Relocation} {mark : Token} {offset : Nat}
variable {tokens front back : List Token}

/-- A semicolon is read, and behind it the input ends. -/
structure Script.MarkedAt (script : Script) (offset : Nat) (mark : Token) : Prop where
  read : script.Reads .standard offset mark
  isMark : mark.kind = .semicolon
  ends : ∃ last, script.Reads .standard mark.span.stop last ∧ last.kind = .endOfInput

/-- The semicolon may follow whatever semicolons close. -/
theorem Script.MarkedAt.follows {closes : Kind → Bool}
    (marked : other.MarkedAt (relocation.stop offset) mark) (closing : closes .semicolon)
    : relocation.Follows script other closes offset :=
  fun _ _ => ⟨mark, marked.read, .inr (by rwa [marked.isMark])⟩

/-- Behind the tokens and the semicolon, if they need it, something is read that closes what is open. -/
theorem Script.MarkedAt.exists_next
    (marked : other.MarkedAt (relocation.stop (Token.endOf offset tokens)) mark)
    (consumes : script.Consumes offset tokens) (needed : Bool)
    : ∃ next,
        other.Reads .standard
          (Token.endOf (relocation.stop offset)
            (tokens.map relocation.token ++ mark.due needed tokens))
          next
        ∧ next.kind.isClosing := by
  rw [Token.endOf_append, Relocation.endOf_map consumes, Token.due]
  split
  · obtain ⟨last, read, ends⟩ := marked.ends
    exact ⟨last, read, by rw [ends]; rfl⟩
  · exact ⟨mark, marked.read, by rw [marked.isMark]; rfl⟩

namespace Grammar

-----------------------------------------------------------------------------------------
-- Sealed phrases
-----------------------------------------------------------------------------------------

section

variable (relocation : Relocation) (script other : Script) (mark : Token)

/-- A statement, or what ends a statement, can be had in the other text with the semicolon that it needs. -/
def Phrase.Sealed (offset : Nat) (tokens : List Token) : Phrase → Prop
  | statement inAllowed inner =>
      ∃ result,
        Form.ofStmt result = Form.ofStmt inner
        ∧ Parses other (.phrase (.statement inAllowed result)) (relocation.stop offset)
            (tokens.map relocation.token ++ mark.due inner.needsMark tokens)
  | declaration inAllowed .statement inner =>
      ∃ result,
        Form.ofDeclaration result = Form.ofDeclaration inner
        ∧ Parses other (.phrase (.declaration inAllowed .statement result))
            (relocation.stop offset) (tokens.map relocation.token ++ mark.due true tokens)
  | statementEnd =>
      Parses other (.phrase .statementEnd) (relocation.stop offset)
        (tokens.map relocation.token ++ mark.due true tokens)
  | jumpLabel label =>
      Parses other (.phrase (.jumpLabel label)) (relocation.stop offset)
        (tokens.map relocation.token ++ mark.due true tokens)
  | restrictedOperand inAllowed value =>
      Parses other
        (.phrase (.restrictedOperand inAllowed (Moved.ofOptionalExpr relocation.span value)))
        (relocation.stop offset) (tokens.map relocation.token ++ mark.due true tokens)
  | _ => True

/-- Where the tokens are carried over in front of a semicolon, the phrase can be had with it. -/
def Nonterminal.Seals (offset : Nat) (tokens : List Token) : Nonterminal → Prop
  | phrase inner =>
      relocation.Carries script other false offset tokens →
      other.MarkedAt (relocation.stop (Token.endOf offset tokens)) mark →
      inner.Sealed relocation other mark offset tokens
  | _ => True

end

-----------------------------------------------------------------------------------------
-- Productions in front of a semicolon
-----------------------------------------------------------------------------------------

variable {phrase last : Phrase} {items first behind seen : List Item}

theorem Item.looksAhead_of_blind (blind : first.any Item.isAhead = false)
    : Item.LooksAhead first := by
  induction first with
  | nil => trivial
  | cons item first ih =>
      cases item with
      | token | regex | part => exact ih blind
      | ahead => cases blind

/-- A production of statements, the tokens of which are carried over to a place in front of a semicolon. -/
structure Phrase.BeforeMark (relocation : Relocation) (script other : Script) (mark : Token)
    (phrase : Phrase) (items : List Item) (offset : Nat)
    : Prop where
  rule : StatementRule script (Token.spanOf (Item.tokensOf items)) phrase items
  components
    : Components script
        (fun part offset tokens =>
          Parses script part offset tokens
          ∧ part.Seals relocation script other mark offset tokens)
        items offset
  dialect_eq : other.dialect = script.dialect
  carries : relocation.Carries script other false offset (Item.tokensOf items)
  marked : other.MarkedAt (relocation.stop (Token.endOf offset (Item.tokensOf items))) mark

/-- The components at the beginning of a production with what is put behind them make a production that ends
with the semicolon, if what was behind them needs it.
-/
theorem Parses.sealed (behind : List Item) (back : List Token) (needed : Bool)
    (sees : Item.Sees (fun kind => kind = .semicolon) false first seen)
    (opened
      : Components other (Parses other) (seen.map (Item.moved relocation)) (relocation.stop offset))
    (consumes : script.Consumes offset (Item.tokensOf first))
    (closed
      : Components other (Parses other) behind
          (relocation.stop (Token.endOf offset (Item.tokensOf first))))
    (tokens_eq : Item.tokensOf behind = back.map relocation.token ++ mark.due needed back)
    (plain : back ≠ [] ∨ Token.endsInMark (Item.tokensOf first) = false)
    (rule
      : StatementRule other
          (Token.spanOf (Item.tokensOf (seen.map (Item.moved relocation) ++ behind))) phrase
          (seen.map (Item.moved relocation) ++ behind))
    : Parses other (.phrase phrase) (relocation.stop offset)
        ((Item.tokensOf first ++ back).map relocation.token
          ++ mark.due needed (Item.tokensOf first ++ back)) := by
  have first_eq
      : Item.tokensOf (seen.map (Item.moved relocation))
          = (Item.tokensOf first).map relocation.token := by
    rw [Item.tokensOf_moved, sees.tokensOf_eq]
  have whole
      : Components other (Parses other) (seen.map (Item.moved relocation) ++ behind)
          (relocation.stop offset) := by
    refine components_append.mpr ⟨opened, ?_⟩
    rwa [first_eq, Relocation.endOf_map consumes]
  have derivation := Parses.of_rule (.statement rule) whole.sequence
  rw [Item.tokensOf_append, first_eq, tokens_eq, ← List.append_assoc, ← List.map_append]
    at derivation
  rwa [Token.due_append mark needed plain]

/-- If the last part can be had with the semicolon that it needs, so can the production. -/
def Item.Closes (relocation : Relocation) (other : Script) (mark : Token) (seen : List Item)
    (offset last : Nat) (back tokens : List Token)
    : Prop :=
  ∀ {part phrase : Phrase} {needed : Bool},
    Parses other (.phrase part) (relocation.stop last)
      (back.map relocation.token ++ mark.due needed back) →
    StatementRule other
      (Token.spanOf
        (Item.tokensOf
          (seen.map (Item.moved relocation)
            ++ [.part (.phrase part) (back.map relocation.token ++ mark.due needed back)])))
      phrase
      (seen.map (Item.moved relocation)
        ++ [.part (.phrase part) (back.map relocation.token ++ mark.due needed back)]) →
    Parses other (.phrase phrase) (relocation.stop offset)
      (tokens.map relocation.token ++ mark.due needed tokens)

namespace Phrase.BeforeMark

/-- The parts of the production parse in the text that it is of. -/
theorem parses (before : phrase.BeforeMark relocation script other mark items offset)
    : Components script (Parses script) items offset :=
  before.components.mono fun _ _ _ holds => holds.1

/-- The production consumes the tokens of its components. -/
theorem consumes (before : phrase.BeforeMark relocation script other mark items offset)
    : script.Consumes offset (Item.tokensOf items) :=
  (Parses.of_rule (.statement before.rule) before.parses.sequence).consumes

/-- The tokens of the production keep their texts and their lines. -/
theorem keeps (before : phrase.BeforeMark relocation script other mark items offset)
    (ignores : Bool)
    : relocation.Keeps script other ignores (Item.tokensOf items) :=
  before.carries.keeps before.consumes before.dialect_eq fun _ => rfl

/-- No phrase of statements goes on from an expression. -/
theorem attached (before : phrase.BeforeMark relocation script other mark items offset)
    : phrase.Attached script offset := by
  cases before.rule <;> trivial

/-- The components at the beginning can be had in the other text, with other tokens to look at, among them the
semicolon.
-/
theorem opened (first : List Item)
    (before : phrase.BeforeMark relocation script other mark (first ++ behind) offset)
    (ahead : Item.LooksAhead first) (precede : Item.mayPrecede .semicolon first)
    : ∃ seen,
        Item.Sees (fun kind => kind = .semicolon) false first seen
        ∧ Components other (Parses other) (seen.map (Item.moved relocation))
            (relocation.stop offset) := by
  have fits := (Rule.statement before.rule).attached before.parses before.attached
  have parses := (components_append.mp before.parses).1
  have present := before.rule.present.left
  obtain ⟨_, _, dialect_eq, carries, marked⟩ := id before
  have consumes := before.consumes
  rw [Item.tokensOf_append] at carries marked consumes
  refine (parses.mono fun _ _ _ holds => ⟨holds, holds.moves dialect_eq⟩).moved
    (components_append.mp fits).1 (Script.consumes_append.mp consumes).1 present ahead ?_ ?_
    carries.left ?_
  · exact nofun
  · rintro kind closing
    rw [of_decide_eq_true closing]
    exact precede
  · cases more : Item.tokensOf behind with
    | nil =>
        rw [more, List.append_nil] at marked
        exact marked.follows rfl
    | cons token tokens =>
        rw [more] at carries
        exact carries.later.1.shows.follows

/-- If the last part takes up the semicolon, so does the production. -/
theorem sealing (first : List Item)
    (before
      : phrase.BeforeMark relocation script other mark (first ++ [.part (.phrase last) back]) offset)
    (ahead : Item.LooksAhead first) (precede : Item.mayPrecede .semicolon first)
    (plain : last.consumes ∨ Item.EndPlain first)
    : ∃ seen,
        Item.Sees (fun kind => kind = .semicolon) false first seen
        ∧ last.Sealed relocation other mark (Token.endOf offset (Item.tokensOf first)) back
        ∧ Item.Closes relocation other mark seen offset (Token.endOf offset (Item.tokensOf first))
            back (Item.tokensOf (first ++ [.part (.phrase last) back])) := by
  obtain ⟨seen, sees, opened⟩ := before.opened first ahead precede
  obtain ⟨inFirst, ⟨parsesLast, seals⟩, _⟩ := components_append.mp before.components
  have whole
      : Item.tokensOf (first ++ [.part (.phrase last) back]) = Item.tokensOf first ++ back := by
    simp [Item.tokensOf_append, Item.tokensOf]
  have consumes := before.consumes
  obtain ⟨_, _, _, carries, marked⟩ := before
  rw [whole] at carries marked consumes ⊢
  rw [Token.endOf_append] at marked
  have consumesFirst := (Script.consumes_append.mp consumes).1
  refine ⟨seen, sees, seals (carries.later) marked, fun parsed rule => ?_⟩
  refine Parses.sealed _ _ _ sees opened consumesFirst ?_ (by simp [Item.tokensOf]) ?_ rule
  · exact ⟨parsed, trivial⟩
  · refine plain.imp (fun consumes => parsesLast.ne_nil consumes) fun plain => ?_
    exact inFirst.endsInMark_eq_false plain (fun _ _ _ holds => holds.1)
      fun _ _ _ holds => holds.1.endsInMark_eq_false

/-- A production that looks at nothing and that a semicolon may follow leaves it alone. -/
theorem unsealed (before : phrase.BeforeMark relocation script other mark items offset)
    (blind : items.any Item.isAhead = false) (precede : Item.mayPrecede .semicolon items)
    {needed : Bool} (closed : needed = false ∨ Token.endsInMark (Item.tokensOf items))
    : Parses other (.phrase (phrase.moved relocation.span)) (relocation.stop offset)
        ((Item.tokensOf items).map relocation.token ++ mark.due needed (Item.tokensOf items)) := by
  have whole := Parses.of_rule (.statement before.rule) before.parses.sequence
  have moved := before.rule.moved (before.keeps phrase.ignoresLine) fun holds =>
    before.carries.spanOf_map before.consumes (whole.ne_nil holds)
  rw [Token.due_of_closed mark closed, List.append_nil]
  rw [← List.append_nil items] at before
  obtain ⟨seen, sees, opened⟩ := before.opened items (Item.looksAhead_of_blind blind) precede
  obtain rfl := sees.eq_self blind
  exact .intro (.statement moved) opened.sequence (Item.tokensOf_moved _)

-----------------------------------------------------------------------------------------
-- Statements in front of a semicolon
-----------------------------------------------------------------------------------------

/-- A `do` loop without a semicolon takes it up. -/
theorem sealed_doWhile {inAllowed : Bool} {span : Span} {body : Stmt} {condition : Expr}
    {keyword whileWord next : Token} (opens : keyword.kind = .keywordDo)
    (loops : whileWord.kind = .keywordWhile)
    (before
      : (statement inAllowed (.doWhile span body condition)).BeforeMark relocation script other mark
          ([
            .token keyword,
            .part (.phrase (.statement inAllowed body)) front,
            .token whileWord,
            .part (.phrase (.condition inAllowed condition)) back
          ]
          ++ [.ahead [next]])
          offset)
    : (statement inAllowed (.doWhile span body condition)).Sealed relocation other mark offset
        (keyword :: (front ++ whileWord :: back)) := by
  obtain ⟨seen, sees, opened⟩ := before.opened _ trivial rfl
  obtain rfl := sees.eq_self rfl
  have plain := (components_append.mp before.parses).1.endsInMark_eq_false
    ⟨.inl rfl, .inl rfl, .inl rfl, .inr rfl, trivial⟩ (fun _ _ _ holds => holds)
    fun _ _ _ holds => holds.endsInMark_eq_false
  have consumes := before.consumes
  have closed := Parses.sealed [.token mark] [] true sees opened
    (by simpa [Item.tokensOf] using consumes)
    ⟨by simpa [Item.tokensOf] using before.marked.read, trivial⟩ rfl (.inr plain)
    (.doWhileEnded opens loops before.marked.isMark)
  have needed : (Stmt.doWhile span body condition).needsMark = true := rfl
  refine ⟨_, ?_, by simpa [Item.tokensOf, needed] using closed⟩
  simp [Form.ofStmt, Form.ofExpr_moved, Form.ofStmt_moved]

/-- A conditional statement without alternative ends where its statement does. No alternative follows. -/
theorem sealed_ifOnly {inAllowed : Bool} {span : Span} {test : Expr} {consequent : Stmt}
    {keyword next : Token} (opens : keyword.kind = .keywordIf)
    (before
      : (statement inAllowed (.ifElse span test consequent none)).BeforeMark relocation script other
          mark
          ([
            .token keyword,
            .part (.phrase (.condition inAllowed test)) front
          ]
          ++ [.part (.phrase (.statement inAllowed consequent)) back, .ahead [next]])
          offset)
    : (statement inAllowed (.ifElse span test consequent none)).Sealed relocation other mark offset
        (keyword :: (front ++ back)) := by
  obtain ⟨seen, sees, opened⟩ := before.opened _ trivial rfl
  obtain rfl := sees.eq_self rfl
  obtain ⟨_, ⟨parses, seals⟩, _⟩ := components_append.mp before.components
  have behind_eq
      : Item.tokensOf [.part (.phrase (.statement inAllowed consequent)) back, .ahead [next]]
          = back :=
    List.append_nil back
  have consumes := before.consumes
  obtain ⟨_, _, _, carries, marked⟩ := before
  rw [Item.tokensOf_append, behind_eq] at carries marked consumes
  rw [Token.endOf_append] at marked
  obtain ⟨consumesTest, consumesConsequent⟩ := Script.consumes_append.mp consumes
  obtain ⟨result, same, parsed⟩ := seals carries.later marked
  obtain ⟨shown, read, closing⟩ := marked.exists_next consumesConsequent consequent.needsMark
  have noElse : shown.kind ≠ .keywordElse := Kind.ne_of_isClosing closing rfl
  have closed := Parses.sealed [.part _ _, .ahead [shown]] _ _ sees opened consumesTest
    ⟨parsed, ⟨read, trivial⟩, trivial⟩ (List.append_nil _) (.inl (parses.ne_nil rfl))
    (.ifOnly opens noElse)
  have needed : (Stmt.ifElse span test consequent none).needsMark = consequent.needsMark := rfl
  refine ⟨_, ?_, by simpa [Item.tokensOf, needed] using closed⟩
  simp [Form.ofStmt, Form.ofExpr_moved, same]

/-- The semicolon ends a statement in the place of the end of the input. -/
theorem sealed_statementEnd
    (before : Phrase.statementEnd.BeforeMark relocation script other mark items offset)
    : Phrase.statementEnd.Sealed relocation other mark offset (Item.tokensOf items) := by
  cases before.rule with
  | statementEndMark ends => exact before.unsealed rfl rfl (.inr (by simp [Item.tokensOf, ends]))
  | statementEndImplied =>
      exact .intro (.statement (.statementEndMark before.marked.isMark))
        (.token before.marked.read .nil) rfl

/-- A label of a jump is sealed as it is; the jump takes the semicolon up. -/
theorem sealed_jumpLabel {label : Option String}
    (before : (Phrase.jumpLabel label).BeforeMark relocation script other mark items offset)
    : (Phrase.jumpLabel label).Sealed relocation other mark offset (Item.tokensOf items) := by
  cases before.rule with
  | jumpLabelSome named sameLine =>
      obtain ⟨seen, sees, parsed, close⟩ :=
        before.sealing [_] trivial rfl (.inr ⟨.inr (by simp [named]), trivial⟩)
      obtain rfl := sees.eq_self rfl
      rw [← (before.keeps false).newline_eq rfl _ List.mem_cons_self] at sameLine
      rw [← (before.keeps false).nameOf_eq List.mem_cons_self]
      exact close parsed (.jumpLabelSome named sameLine)
  | jumpLabelNone unnamed =>
      obtain ⟨seen, sees, parsed, close⟩ :=
        before.sealing [_] ⟨.inl ⟨_, rfl⟩, trivial⟩ rfl (.inr trivial)
      obtain ⟨next, rest, rfl, follows, last⟩ := sees.ending
      obtain rfl := last.eq_self rfl
      refine close parsed (.jumpLabelNone ?_)
      rcases follows with resembles | closing
      · rwa [resembles.kind_eq, resembles.newline_eq rfl]
      · simp [of_decide_eq_true closing]

/-- The operand of a jump is sealed as it is; the jump takes the semicolon up. -/
theorem sealed_restrictedOperand {inAllowed : Bool} {value : Option Expr}
    (before
      : (Phrase.restrictedOperand inAllowed value).BeforeMark relocation script other mark items
          offset)
    : (Phrase.restrictedOperand inAllowed value).Sealed relocation other mark offset
        (Item.tokensOf items) := by
  cases before.rule with
  | restrictedOperandNone ends =>
      obtain ⟨seen, sees, parsed, close⟩ :=
        before.sealing [_] ⟨.inl ⟨_, rfl⟩, trivial⟩ rfl (.inr trivial)
      obtain ⟨next, rest, rfl, follows, last⟩ := sees.ending
      obtain rfl := last.eq_self rfl
      refine close parsed (.restrictedOperandNone ?_)
      rcases follows with resembles | closing
      · exact resembles.endsStatement_eq.trans ends
      · simp [endsStatement, of_decide_eq_true closing]
  | restrictedOperandSome goesOn =>
      obtain ⟨seen, sees, parsed, close⟩ :=
        before.sealing [_, _] ⟨.inl ⟨_, rfl⟩, trivial⟩ rfl (.inr ⟨.inr rfl, trivial⟩)
      obtain ⟨first, rest, rfl, resembles, last⟩ := sees.opening rfl
      obtain rfl := last.eq_self rfl
      exact close parsed (.restrictedOperandSome (resembles.endsStatement_eq.trans goesOn))

/-- A declaration takes the semicolon up if it has none. -/
theorem sealed_declaration {inAllowed : Bool} {declaration : Declaration}
    (before
      : (Phrase.declaration inAllowed .statement declaration).BeforeMark relocation script other mark
          items offset)
    : (Phrase.declaration inAllowed .statement declaration).Sealed relocation other mark offset
        (Item.tokensOf items) := by
  cases before.rule with
  | @declarationStatement mode _ keyword front back declarators declares =>
      have precede
          : Item.mayPrecede .semicolon
              [.part (.separated (declarators.map (.declarator inAllowed))) front] := by
        simp [Item.mayPrecede, Nonterminal.mayPrecede, Phrase.mayPrecede, Kind.isClosing]
      have plain
          : Item.EndPlain
              [
                .token keyword,
                .part (.separated (declarators.map (.declarator inAllowed))) front
              ] := by
        refine ⟨.inr fun isMark => ?_, .inr ?_, trivial⟩
        · simp [isMark, Script.declarationMode?] at declares
        · simp [Nonterminal.endsPlain, Phrase.endsPlain]
      obtain ⟨seen, sees, parsed, close⟩ := before.sealing [_, _] trivial precede (.inr plain)
      obtain rfl := sees.eq_self rfl
      rw [← (before.keeps false).declarationMode?_eq] at declares
      simp only [Item.Closes, List.map, Item.moved, Nonterminal.moved, map_moved_declarator] at close
      refine ⟨⟨_, mode, _⟩, ?_, close parsed (.declarationStatement declares)⟩
      simp [Form.ofDeclaration, Form.ofDeclarators_moved]

/-- A statement takes up the semicolon if it needs it. -/
theorem sealed_statement {inAllowed : Bool} {inner : Stmt}
    (before
      : (Phrase.statement inAllowed inner).BeforeMark relocation script other mark items offset)
    : (Phrase.statement inAllowed inner).Sealed relocation other mark offset
        (Item.tokensOf items) := by
  cases before.rule with
  | block =>
      exact ⟨_, Form.ofStmt_moved relocation.span _, before.unsealed rfl rfl (.inl rfl)⟩
  | breakTo opens =>
      obtain ⟨seen, sees, parsed, close⟩ :=
        before.sealing [_] trivial rfl (.inr ⟨.inr (by simp [opens]), trivial⟩)
      obtain rfl := sees.eq_self rfl
      exact ⟨.breakTo _ _, by simp [Form.ofStmt], close parsed (.breakTo opens)⟩
  | continueTo opens =>
      obtain ⟨seen, sees, parsed, close⟩ :=
        before.sealing [_] trivial rfl (.inr ⟨.inr (by simp [opens]), trivial⟩)
      obtain rfl := sees.eq_self rfl
      exact ⟨.continueTo _ _, by simp [Form.ofStmt], close parsed (.continueTo opens)⟩
  | declaration =>
      obtain ⟨seen, sees, ⟨result, same, parsed⟩, close⟩ := before.sealing [] trivial rfl (.inl rfl)
      obtain rfl := sees.eq_self rfl
      exact ⟨.declaration result, by simp [Form.ofStmt, same], close parsed .declaration⟩
  | debugger opens =>
      obtain ⟨seen, sees, parsed, close⟩ :=
        before.sealing [_] trivial rfl (.inr ⟨.inr (by simp [opens]), trivial⟩)
      obtain rfl := sees.eq_self rfl
      exact ⟨.empty _, by simp [Form.ofStmt], close parsed (.debugger opens)⟩
  | doWhileEnded opens loops ends =>
      refine ⟨_, Form.ofStmt_moved relocation.span _, before.unsealed rfl rfl (.inr ?_)⟩
      simp [Item.tokensOf, Token.endsInMark, List.getLast?_cons, ends]
  | doWhile opens loops => simpa [Item.tokensOf] using sealed_doWhile opens loops before
  | empty opens =>
      refine ⟨_, Form.ofStmt_moved relocation.span _, before.unsealed rfl rfl (.inr ?_)⟩
      simp [Item.tokensOf, opens]
  | expression plain unnamed =>
      obtain ⟨seen, sees, parsed, close⟩ :=
        before.sealing [_, _] ⟨.inl ⟨_, rfl⟩, trivial⟩ rfl (.inr ⟨.inr rfl, trivial⟩)
      obtain ⟨first, rest, rfl, resembles, last⟩ := sees.opening rfl
      obtain rfl := last.eq_self rfl
      rw [← resembles.kind_eq] at plain unnamed
      refine ⟨.expression _ _, ?_, close parsed (.expression plain unnamed)⟩
      simp [Form.ofStmt, Form.ofExpr_moved]
  | expressionNamed named noLabel =>
      obtain ⟨seen, sees, parsed, close⟩ :=
        before.sealing [_, _] ⟨.inr ⟨_, _, rfl, named, rfl⟩, trivial⟩ rfl (.inr ⟨.inr rfl, trivial⟩)
      cases sees with
      | two resembles follows rest =>
          obtain rfl := rest.eq_self rfl
          rw [← resembles.kind_eq] at named
          refine ⟨.expression _ _, ?_, close parsed (.expressionNamed named ?_)⟩
          · simp [Form.ofStmt, Form.ofExpr_moved]
          · rcases follows with resembles | closing
            · rwa [resembles.kind_eq]
            · simp [of_decide_eq_true closing]
  | forIn opens parenthesis within closes =>
      obtain ⟨seen, sees, ⟨body, same, parsed⟩, close⟩ :=
        before.sealing [_, _, _, _, _, _] trivial rfl (.inl rfl)
      obtain rfl := sees.eq_self rfl
      refine ⟨.forIn _ _ _ body, ?_, close parsed (.forIn opens parenthesis within closes)⟩
      simp [Form.ofStmt, Form.ofForInTarget_moved, Form.ofExpr_moved, same]
  | forLoop opens parenthesis divides =>
      obtain ⟨seen, sees, ⟨body, same, parsed⟩, close⟩ :=
        before.sealing [_, _, _, _, _, _] trivial rfl (.inl rfl)
      obtain rfl := sees.eq_self rfl
      refine ⟨.forLoop _ _ _ _ body, ?_, close parsed (.forLoop opens parenthesis divides)⟩
      simp [Form.ofStmt, Form.ofForStart_moved, Form.ofOptionalExpr_moved, same]
  | ifElse opens otherwise =>
      obtain ⟨seen, sees, ⟨body, same, parsed⟩, close⟩ :=
        before.sealing [_, _, _, _] trivial rfl (.inl rfl)
      obtain rfl := sees.eq_self rfl
      refine ⟨.ifElse _ _ _ (some body), ?_, close parsed (.ifElse opens otherwise)⟩
      simp [Form.ofStmt, Form.ofExpr_moved, Form.ofStmt_moved, same]
  | ifOnly opens => simpa [Item.tokensOf] using sealed_ifOnly opens before
  | labelled named divides =>
      obtain ⟨seen, sees, ⟨body, same, parsed⟩, close⟩ :=
        before.sealing [_, _] trivial rfl (.inl rfl)
      obtain rfl := sees.eq_self rfl
      refine ⟨.labelled _ _ body, ?_, close parsed (.labelled named divides)⟩
      simp [Form.ofStmt, (before.keeps false).nameOf_eq List.mem_cons_self, same]
  | returnValue opens =>
      obtain ⟨seen, sees, parsed, close⟩ :=
        before.sealing [_] trivial rfl (.inr ⟨.inr (by simp [opens]), trivial⟩)
      obtain rfl := sees.eq_self rfl
      refine ⟨.returnValue _ _, ?_, close parsed (.returnValue opens)⟩
      simp [Form.ofStmt, Form.withValue_moved]
  | throwValue opens =>
      obtain ⟨seen, sees, parsed, close⟩ :=
        before.sealing [_] trivial rfl (.inr ⟨.inr (by simp [opens]), trivial⟩)
      obtain rfl := sees.eq_self rfl
      refine ⟨.throwValue _ _, ?_, close parsed (.throwValue opens)⟩
      simp [Form.ofStmt, Form.withValue_moved]
  | switch =>
      exact ⟨_, Form.ofStmt_moved relocation.span _, before.unsealed rfl rfl (.inl rfl)⟩
  | @tryBlock inAllowed finalizer keyword front middle back block handler =>
      have precede
          : Item.mayPrecede .semicolon
              [
                .part (.afterKeyword .keywordCatch (handler.map (.handler inAllowed))) middle,
                .part (.afterKeyword .keywordFinally (finalizer.map (.block inAllowed))) back
              ] := by
        simp [Item.mayPrecede, Nonterminal.mayPrecede, Phrase.mayPrecede, all_map_of, Kind.isClosing]
      exact ⟨_, Form.ofStmt_moved relocation.span _, before.unsealed rfl precede (.inl rfl)⟩
  | whileLoop opens =>
      obtain ⟨seen, sees, ⟨body, same, parsed⟩, close⟩ :=
        before.sealing [_, _] trivial rfl (.inl rfl)
      obtain rfl := sees.eq_self rfl
      refine ⟨.whileLoop _ _ body, ?_, close parsed (.whileLoop opens)⟩
      simp [Form.ofStmt, Form.ofExpr_moved, same]
  | withObject opens =>
      obtain ⟨seen, sees, ⟨body, same, parsed⟩, close⟩ :=
        before.sealing [_, _] trivial rfl (.inl rfl)
      obtain rfl := sees.eq_self rfl
      refine ⟨.withObject _ _ body, ?_, close parsed (.withObject opens)⟩
      simp [Form.ofStmt, Form.ofExpr_moved, same]
  | function =>
      exact ⟨_, Form.ofStmt_moved relocation.span _, before.unsealed rfl rfl (.inl rfl)⟩

/-- Every production can be had with the semicolon that it needs, by cases on what it is. -/
theorem seals (before : phrase.BeforeMark relocation script other mark items offset)
    : phrase.Sealed relocation other mark offset (Item.tokensOf items) := by
  cases phrase with
  | statement => exact before.sealed_statement
  | statementEnd => exact before.sealed_statementEnd
  | jumpLabel => exact before.sealed_jumpLabel
  | restrictedOperand => exact before.sealed_restrictedOperand
  | declaration inAllowed place =>
      cases place with
      | statement => exact before.sealed_declaration
      | forHeader => trivial
  | _ => trivial

end Phrase.BeforeMark

/-- A statement takes up a semicolon at the end of the input if it needs it. -/
theorem Parses.seals {nonterminal : Nonterminal}
    (derivation : Parses script nonterminal offset tokens)
    (dialect_eq : other.dialect = script.dialect)
    : nonterminal.Seals relocation script other mark offset tokens := by
  refine derivation.induction
    (motive := fun nonterminal offset tokens =>
      nonterminal.Seals relocation script other mark offset tokens) ?_
  intro nonterminal items offset rule components
  cases rule with
  | expression rule =>
      intro _ _
      cases rule <;> trivial
  | statement rule =>
      intro carries marked
      exact Phrase.BeforeMark.seals ⟨rule, components, dialect_eq, carries, marked⟩
  | repetition rule => cases rule <;> trivial

end Grammar

end EcmaSyntax
