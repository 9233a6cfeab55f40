import EcmaSyntax.Proofs.Grammar.Locations
import EcmaSyntax.Proofs.Tree.Moved

/-! Productions in another text. When tokens keep their kinds and texts and are moved in the text, a production
is one of the tokens at their new places, and makes the moved node.
-/

namespace EcmaSyntax

open EcmaSyntax.Grammar

/-- How the tokens of one text are moved into another: what becomes of a span, of the offset at which a
token ends, and of the line before a token. Spans of tokens one after the other are moved together.
-/
structure Relocation where
  span : Span → Span
  stop : Nat → Nat
  newline : Token → Bool
  stop_span : ∀ place : Span, place.start < place.stop → (span place).stop = stop place.stop
  span_cover
    : ∀ first second : Span,
        first.start < first.stop →
        second.start < second.stop →
        span (first.cover second) = (span first).cover (span second)
  span_point : ∀ offset, 0 < offset → span (.point offset) = .point (stop offset)

/-- The token at its new place. -/
def Relocation.token (relocation : Relocation) (token : Token) : Token :=
  { token with span := relocation.span token.span, afterNewline := relocation.newline token }

/-- The token at its new place has the moved span. -/
theorem Relocation.span_token (relocation : Relocation) (token : Token)
    : (relocation.token token).span = relocation.span token.span :=
  rfl

namespace Grammar

-----------------------------------------------------------------------------------------
-- Moved phrases
-----------------------------------------------------------------------------------------

/-- The phrase with the spans of its results moved. -/
def Phrase.moved (move : Span → Span) : Phrase → Phrase
  | expression inAllowed least value => expression inAllowed least (Moved.ofExpr move value)
  | operand inAllowed value => operand inAllowed (Moved.ofExpr move value)
  | primary value => primary (Moved.ofExpr move value)
  | operators inAllowed least left value =>
      operators inAllowed least (Moved.ofExpr move left) (Moved.ofExpr move value)
  | continuation inAllowed operator left value =>
      continuation inAllowed operator (Moved.ofExpr move left) (Moved.ofExpr move value)
  | access operator object value =>
      access operator (Moved.ofExpr move object) (Moved.ofExpr move value)
  | accesses constructor value =>
      accesses (Moved.ofExpr move constructor) (Moved.ofExpr move value)
  | arguments inner => arguments (Moved.ofArguments move inner)
  | elements inner => elements (Moved.ofElements move inner)
  | member inner => member (Moved.ofMember move inner)
  | function inner => function (Moved.ofFunc move inner)
  | parameter inner => parameter (Moved.ofParameter move inner)
  | body inner => body (Moved.ofBody move inner)
  | statement inAllowed inner => statement inAllowed (Moved.ofStmt move inner)
  | statementEnd => statementEnd
  | jumpLabel label => jumpLabel label
  | restrictedOperand inAllowed value =>
      restrictedOperand inAllowed (Moved.ofOptionalExpr move value)
  | condition inAllowed value => condition inAllowed (Moved.ofExpr move value)
  | block inAllowed inner => block inAllowed (Moved.ofBlock move inner)
  | declaration inAllowed place inner =>
      declaration inAllowed place (Moved.ofDeclaration move inner)
  | declarator inAllowed inner => declarator inAllowed (Moved.ofDeclarator move inner)
  | initializer inAllowed inner => initializer inAllowed (Moved.ofInitializer move inner)
  | handler inAllowed inner => handler inAllowed (Moved.ofHandler move inner)
  | branch inAllowed inner => branch inAllowed (Moved.ofBranch move inner)
  | branchTest inAllowed test => branchTest inAllowed (Moved.ofOptionalExpr move test)
  | forStart start => forStart (Moved.ofForStart move start)
  | forClause inAllowed close clause =>
      forClause inAllowed close (Moved.ofOptionalExpr move clause)
  | forInTarget target => forInTarget (Moved.ofForInTarget move target)

def Nonterminal.moved (move : Span → Span) : Nonterminal → Nonterminal
  | phrase inner => phrase (inner.moved move)
  | list close phrases => list close (phrases.map (Phrase.moved move))
  | listTail close phrases => listTail close (phrases.map (Phrase.moved move))
  | looseList close phrases => looseList close (phrases.map (Phrase.moved move))
  | separated phrases => separated (phrases.map (Phrase.moved move))
  | repeated goes phrases => repeated goes (phrases.map (Phrase.moved move))
  | afterKeyword keyword phrase? => afterKeyword keyword (phrase?.map (Phrase.moved move))

/-- The components with their tokens at their new places, apart from those that are looked at only. -/
def Item.moved (relocation : Relocation) : Item → Item
  | token inner => token (relocation.token inner)
  | regex inner => regex (relocation.token inner)
  | ahead tokens => ahead tokens
  | part nonterminal tokens =>
      part (nonterminal.moved relocation.span) (tokens.map relocation.token)

section Lists

variable (move : Span → Span) (inAllowed : Bool)

/-- The phrases of moved expressions are the moved phrases. -/
theorem map_moved_expression (least : Nat) (values : List Expr)
    : (values.map (.expression inAllowed least)).map (Phrase.moved move)
      = (Moved.ofExprs move values).map (.expression inAllowed least) := by
  rw [Moved.ofExprs_eq_map, List.map_map, List.map_map]
  rfl

theorem map_moved_member (members : List Member)
    : (members.map .member).map (Phrase.moved move)
      = (Moved.ofMembers move members).map .member := by
  rw [Moved.ofMembers_eq_map, List.map_map, List.map_map]
  rfl

theorem map_moved_parameter (parameters : List Parameter)
    : (parameters.map .parameter).map (Phrase.moved move)
      = (Moved.ofParameters move parameters).map .parameter := by
  rw [Moved.ofParameters_eq_map, List.map_map, List.map_map]
  rfl

theorem map_moved_statement (statements : List Stmt)
    : (statements.map (.statement inAllowed)).map (Phrase.moved move)
      = (Moved.ofStmts move statements).map (.statement inAllowed) := by
  rw [Moved.ofStmts_eq_map, List.map_map, List.map_map]
  rfl

theorem map_moved_branch (branches : List Branch)
    : (branches.map (.branch inAllowed)).map (Phrase.moved move)
      = (Moved.ofBranches move branches).map (.branch inAllowed) := by
  rw [Moved.ofBranches_eq_map, List.map_map, List.map_map]
  rfl

theorem map_moved_declarator (declarators : List Declarator)
    : (declarators.map (.declarator inAllowed)).map (Phrase.moved move)
      = (Moved.ofDeclarators move declarators).map (.declarator inAllowed) := by
  rw [Moved.ofDeclarators_eq_map, List.map_map, List.map_map]
  rfl

theorem map_moved_handler (handler : Option Handler)
    : (handler.map (.handler inAllowed)).map (Phrase.moved move)
      = (Moved.ofOptionalHandler move handler).map (.handler inAllowed) := by
  cases handler <;> rfl

theorem map_moved_block (block : Option Block)
    : (block.map (.block inAllowed)).map (Phrase.moved move)
      = (Moved.ofOptionalBlock move block).map (.block inAllowed) := by
  cases block <;> rfl

end Lists

-----------------------------------------------------------------------------------------
-- What a production needs to know of its tokens
-----------------------------------------------------------------------------------------

/-- The phrase does not tell whether its first token begins a line. -/
def Phrase.ignoresLine : Phrase → Bool
  | expression .. | operand .. | primary _ | statement .. | block .. | declaration .. => true
  | _ => false

/-- What goes on from an expression stands right behind it. -/
def Phrase.Attached (script : Script) (offset : Nat) : Phrase → Prop
  | operators _ _ left _ | continuation _ _ left _ | access _ left _ | accesses left _ =>
      ∃ origin front, script.Spans origin front left.span ∧ Token.endOf origin front = offset
  | _ => True

end Grammar

namespace Relocation

variable (relocation : Relocation) {script other : Script}

/-- The tokens have their texts at their new places, and their lines unless these are ignored. -/
structure Keeps (script other : Script) (ignoresLine : Bool) (tokens : List Token) : Prop where
  dialect_eq : other.dialect = script.dialect
  nonempty : ∀ token ∈ tokens, token.span.start < token.span.stop
  text_eq
    : ∀ token ∈ tokens, other.textOf (relocation.span token.span) = script.textOf token.span
  newline_eq
    : ignoresLine = false → ∀ token ∈ tokens, relocation.newline token = token.afterNewline

variable {relocation} {ignoresLine : Bool} {tokens : List Token} {token : Token}

/-- A token that is kept has its text at its new place. -/
theorem Keeps.textOf_eq (keeps : relocation.Keeps script other ignoresLine tokens)
    (member : token ∈ tokens)
    : other.textOf (relocation.token token).span = script.textOf token.span :=
  keeps.text_eq token member

theorem Keeps.nameOf_eq (keeps : relocation.Keeps script other ignoresLine tokens)
    (member : token ∈ tokens)
    : other.nameOf (relocation.token token) = script.nameOf token := by
  rw [Script.nameOf, Script.nameOf, keeps.textOf_eq member]

/-- A token that is kept stands for the same string. -/
theorem Keeps.stringOf?_eq (keeps : relocation.Keeps script other ignoresLine tokens)
    (member : token ∈ tokens)
    : other.stringOf? (relocation.token token) = script.stringOf? token := by
  rw [Script.stringOf?, Script.stringOf?, keeps.textOf_eq member]

theorem Keeps.numberOf?_eq (keeps : relocation.Keeps script other ignoresLine tokens)
    (member : token ∈ tokens)
    : other.numberOf? (relocation.token token) = script.numberOf? token := by
  rw [Script.numberOf?, Script.numberOf?, keeps.textOf_eq member]

/-- A token that is kept is the same key of a property. -/
theorem Keeps.keyOf?_eq (keeps : relocation.Keeps script other ignoresLine tokens)
    (member : token ∈ tokens)
    : other.keyOf? (relocation.token token) = script.keyOf? token := by
  rw [Script.keyOf?, Script.keyOf?, keeps.nameOf_eq member, keeps.stringOf?_eq member,
    keeps.numberOf?_eq member, keeps.textOf_eq member]
  rfl

/-- What a keyword declares is a matter of the dialect, which is kept. -/
theorem Keeps.declarationMode?_eq (keeps : relocation.Keeps script other ignoresLine tokens)
    (kind : Kind)
    : other.declarationMode? kind = script.declarationMode? kind := by
  rw [Script.declarationMode?, Script.declarationMode?, keeps.dialect_eq]

/-- A token that is kept with its line is the same update, or none. -/
theorem Keeps.updateOperator?_eq (keeps : relocation.Keeps script other false tokens)
    (member : token ∈ tokens)
    : updateOperator? (relocation.token token) = updateOperator? token := by
  rw [updateOperator?, updateOperator?, Relocation.token, keeps.newline_eq rfl token member]

end Relocation

/-- What tokens span is not empty. -/
theorem Script.Spans.nonempty {script : Script} {offset : Nat} {tokens : List Token} {span : Span}
    (spans : script.Spans offset tokens span)
    : span.start < span.stop := by
  rw [spans.span_eq]
  exact (spans.consumes.spanOf spans.present).2.1

-----------------------------------------------------------------------------------------
-- Productions
-----------------------------------------------------------------------------------------

namespace Grammar

variable {script other : Script} {relocation : Relocation} {offset : Nat} {span span' : Span}
variable {items : List Item}

/-- A production of expressions is one of the tokens at their new places. -/
theorem ExpressionRule.moved {phrase : Phrase} (rule : ExpressionRule script span phrase items)
    (components : Components script (Parses script) items offset)
    (attached : phrase.Attached script offset)
    (keeps : relocation.Keeps script other phrase.ignoresLine (Item.tokensOf items))
    (moves : phrase.consumes → span' = relocation.span span)
    : ExpressionRule other span' (phrase.moved relocation.span)
        (items.map (Item.moved relocation)) := by
  have nonempty := keeps.nonempty
  have first {token : Token} {tokens : List Token} : token ∈ token :: tokens := List.mem_cons_self
  have second {one token : Token} {tokens : List Token} : token ∈ one :: token :: tokens :=
    List.mem_cons_of_mem _ List.mem_cons_self
  cases rule with
  | expression => exact .expression
  | operandPlain => exact .operandPlain
  | operandPrefixed opens target =>
      obtain ⟨_, argument, _⟩ := components
      have cover := relocation.span_cover _ _ (nonempty _ first) argument.spans.nonempty
      simp only [List.map, Item.moved, Nonterminal.moved, Phrase.moved, Moved.ofExpr, cover,
        ← relocation.span_token, ← Moved.span_ofExpr relocation.span]
      exact .operandPrefixed opens (by simpa using target)
  | object opens =>
      obtain rfl := moves rfl
      simp only [List.map, Item.moved, Nonterminal.moved, Phrase.moved, Moved.ofExpr,
        map_moved_member]
      exact .object opens
  | array opens closes =>
      obtain rfl := moves rfl
      exact .array opens closes
  | identifier named =>
      obtain rfl := moves rfl
      simp only [Phrase.moved, Moved.ofExpr, ← keeps.nameOf_eq first]
      exact .identifier named
  | functionAnonymous opens anonymous =>
      obtain rfl := moves rfl
      exact .functionAnonymous opens anonymous
  | functionNamed opens named =>
      obtain rfl := moves rfl
      simp only [Phrase.moved, Moved.ofExpr, ← keeps.nameOf_eq second]
      exact .functionNamed opens named
  | construct opens called =>
      obtain ⟨_, _, _, _, arguments, _⟩ := components
      have cover := relocation.span_cover _ _ (nonempty _ first) arguments.spans.nonempty
      simp only [List.map, Item.moved, Nonterminal.moved, Phrase.moved, Moved.ofExpr, cover,
        ← relocation.span_token, ← Moved.span_ofArguments relocation.span]
      exact .construct opens called
  | constructBare opens bare =>
      obtain ⟨_, head, accesses, _⟩ := components
      have spans := accesses.spans _ _ head.spans rfl
      have cover := relocation.span_cover _ _ (nonempty _ first) spans.nonempty
      have point := relocation.span_point _ (Nat.zero_lt_of_lt spans.nonempty)
      simp only [List.map, Item.moved, Nonterminal.moved, Phrase.moved, Moved.ofExpr,
        Moved.ofArguments, Moved.ofExprs, cover, point,
        ← relocation.stop_span _ spans.nonempty, ← relocation.span_token,
        ← Moved.span_ofExpr relocation.span]
      exact .constructBare opens bare
  | this opens =>
      obtain rfl := moves rfl
      exact .this opens
  | @boolean token opens =>
      obtain rfl := moves rfl
      have kind_eq : (relocation.token token).kind = token.kind := rfl
      simp only [List.map, Item.moved, Phrase.moved, Moved.ofExpr, ← kind_eq]
      exact .boolean opens
  | null opens =>
      obtain rfl := moves rfl
      exact .null opens
  | number opens denotes =>
      obtain rfl := moves rfl
      exact .number opens ((keeps.numberOf?_eq first).trans denotes)
  | regex opens =>
      obtain rfl := moves rfl
      simp only [Phrase.moved, Moved.ofExpr, ← keeps.textOf_eq first]
      exact .regex opens
  | string opens denotes =>
      obtain rfl := moves rfl
      exact .string opens ((keeps.stringOf?_eq first).trans denotes)
  | parenthesized opens closes =>
      obtain rfl := moves rfl
      exact .parenthesized opens closes
  | accessesNone noPoint noBracket => exact .accessesNone noPoint noBracket
  | accessesMore opens isAccess => exact .accessesMore opens isAccess
  | accessMember opens named =>
      obtain ⟨_, _, spans, _⟩ := attached
      have cover := relocation.span_cover _ _ spans.nonempty (nonempty _ second)
      simp only [Phrase.moved, Moved.ofExpr, cover, ← Moved.span_ofExpr relocation.span,
        ← relocation.span_token, ← keeps.nameOf_eq second]
      exact .accessMember opens named
  | accessIndex opens closes =>
      obtain ⟨_, _, spans, _⟩ := attached
      have last : _ < _ := nonempty _ (List.mem_cons_of_mem _ (List.mem_append_right _ first))
      have cover := relocation.span_cover _ _ spans.nonempty last
      simp only [Phrase.moved, Moved.ofExpr, cover, ← Moved.span_ofExpr relocation.span,
        ← relocation.span_token]
      exact .accessIndex opens closes
  | operatorsNone stops => exact .operatorsNone stops
  | operatorsUpdate updates binds target =>
      obtain ⟨_, _, spans, _⟩ := attached
      have cover := relocation.span_cover _ _ spans.nonempty (nonempty _ first)
      simp only [List.map, Item.moved, Nonterminal.moved, Phrase.moved, Moved.ofExpr, cover,
        ← relocation.span_token, ← Moved.span_ofExpr relocation.span]
      exact .operatorsUpdate ((keeps.updateOperator?_eq first).trans updates) binds
        (by simpa using target)
  | operatorsMore noUpdate opens binds allowed => exact .operatorsMore noUpdate opens binds allowed
  | continuationCall =>
      obtain ⟨_, _, spans, _⟩ := attached
      have cover := relocation.span_cover _ _ spans.nonempty components.1.spans.nonempty
      simp only [Phrase.moved, Moved.ofExpr, cover, ← Moved.span_ofExpr relocation.span,
        ← Moved.span_ofArguments relocation.span]
      exact .continuationCall
  | continuationAccess isAccess => exact .continuationAccess isAccess
  | continuationConditional opens divides =>
      obtain ⟨_, _, spans, _⟩ := attached
      obtain ⟨_, _, _, alternate, _⟩ := components
      have cover := relocation.span_cover _ _ spans.nonempty alternate.spans.nonempty
      simp only [Phrase.moved, Moved.ofExpr, cover, ← Moved.span_ofExpr relocation.span]
      exact .continuationConditional opens divides
  | continuationBinary opens isBinary target =>
      obtain ⟨_, _, spans, _⟩ := attached
      obtain ⟨_, right, _⟩ := components
      have cover := relocation.span_cover _ _ spans.nonempty right.spans.nonempty
      simp only [Phrase.moved, Moved.ofExpr, cover, ← Moved.span_ofExpr relocation.span]
      exact .continuationBinary opens isBinary (by simpa using target)
  | arguments opens =>
      obtain rfl := moves rfl
      simp only [List.map, Item.moved, Nonterminal.moved, Phrase.moved, Moved.ofArguments,
        map_moved_expression]
      exact .arguments opens
  | elementsNone closes => exact .elementsNone closes
  | elementsHole separates => exact .elementsHole separates
  | elementsLast noComma noClose closes => exact .elementsLast noComma noClose closes
  | elementsMore noComma noClose separates => exact .elementsMore noComma noClose separates
  | memberProperty named divides =>
      obtain rfl := moves rfl
      exact .memberProperty ((keeps.keyOf?_eq first).trans named) divides
  | memberGetter opens spelled named arity =>
      obtain rfl := moves rfl
      refine .memberGetter opens ?_ ((keeps.keyOf?_eq second).trans named) ?_
      · rw [keeps.textOf_eq first, spelled]
      · rw [← arity]
        exact Moved.length_parameters ..
  | memberSetter opens spelled named arity =>
      obtain rfl := moves rfl
      refine .memberSetter opens ?_ ((keeps.keyOf?_eq second).trans named) ?_
      · rw [keeps.textOf_eq first, spelled]
      · rw [← arity]
        exact Moved.length_parameters ..
  | function opens =>
      obtain rfl := moves rfl
      simp only [List.map, Item.moved, Nonterminal.moved, Phrase.moved, Moved.ofFunc,
        map_moved_parameter]
      exact .function opens
  | parameter named =>
      obtain rfl := moves rfl
      simp only [Phrase.moved, Moved.ofParameter, ← keeps.nameOf_eq first]
      exact .parameter named
  | body opens closes =>
      obtain rfl := moves rfl
      simp only [List.map, Item.moved, Nonterminal.moved, Phrase.moved, Moved.ofBody,
        map_moved_statement]
      exact .body opens closes

/-- A production of statements is one of the tokens at their new places. -/
theorem StatementRule.moved {phrase : Phrase} (rule : StatementRule script span phrase items)
    (keeps : relocation.Keeps script other phrase.ignoresLine (Item.tokensOf items))
    (moves : phrase.consumes → span' = relocation.span span)
    : StatementRule other span' (phrase.moved relocation.span)
        (items.map (Item.moved relocation)) := by
  have first {token : Token} {tokens : List Token} : token ∈ token :: tokens := List.mem_cons_self
  have second {one token : Token} {tokens : List Token} : token ∈ one :: token :: tokens :=
    List.mem_cons_of_mem _ List.mem_cons_self
  cases rule with
  | block => exact .block
  | breakTo opens =>
      obtain rfl := moves rfl
      exact .breakTo opens
  | continueTo opens =>
      obtain rfl := moves rfl
      exact .continueTo opens
  | declaration => exact .declaration
  | debugger opens =>
      obtain rfl := moves rfl
      exact .debugger opens
  | doWhileEnded opens loops ends =>
      obtain rfl := moves rfl
      exact .doWhileEnded opens loops ends
  | doWhile opens loops noEnd =>
      obtain rfl := moves rfl
      exact .doWhile opens loops noEnd
  | empty opens =>
      obtain rfl := moves rfl
      exact .empty opens
  | expression plain unnamed =>
      obtain rfl := moves rfl
      exact .expression plain unnamed
  | expressionNamed named noLabel =>
      obtain rfl := moves rfl
      exact .expressionNamed named noLabel
  | forIn opens parenthesis within closes =>
      obtain rfl := moves rfl
      exact .forIn opens parenthesis within closes
  | forLoop opens parenthesis divides =>
      obtain rfl := moves rfl
      exact .forLoop opens parenthesis divides
  | ifElse opens otherwise =>
      obtain rfl := moves rfl
      exact .ifElse opens otherwise
  | ifOnly opens noElse =>
      obtain rfl := moves rfl
      exact .ifOnly opens noElse
  | labelled named divides =>
      obtain rfl := moves rfl
      simp only [Phrase.moved, Moved.ofStmt, ← keeps.nameOf_eq first]
      exact .labelled named divides
  | returnValue opens =>
      obtain rfl := moves rfl
      exact .returnValue opens
  | throwValue opens =>
      obtain rfl := moves rfl
      exact .throwValue opens
  | switch opens encloses closes =>
      obtain rfl := moves rfl
      simp only [List.map, Item.moved, Nonterminal.moved, Phrase.moved, Moved.ofStmt,
        map_moved_branch]
      exact .switch opens encloses closes
  | tryBlock opens guarded =>
      obtain rfl := moves rfl
      simp only [List.map, Item.moved, Nonterminal.moved, Phrase.moved, Moved.ofStmt,
        map_moved_handler, map_moved_block]
      refine .tryBlock opens ?_
      simpa [Moved.ofOptionalHandler_eq_map, Moved.ofOptionalBlock_eq_map] using guarded
  | whileLoop opens =>
      obtain rfl := moves rfl
      exact .whileLoop opens
  | withObject opens =>
      obtain rfl := moves rfl
      exact .withObject opens
  | function opens named =>
      obtain rfl := moves rfl
      simp only [Phrase.moved, Moved.ofStmt, ← keeps.nameOf_eq second]
      exact .function opens named
  | statementEndMark ends => exact .statementEndMark ends
  | statementEndImplied noMark ends => exact .statementEndImplied noMark ends
  | jumpLabelSome named sameLine =>
      simp only [Phrase.moved, ← keeps.nameOf_eq first]
      exact .jumpLabelSome named ((keeps.newline_eq rfl _ first).trans sameLine)
  | jumpLabelNone unnamed => exact .jumpLabelNone unnamed
  | restrictedOperandNone ends => exact .restrictedOperandNone ends
  | restrictedOperandSome goesOn => exact .restrictedOperandSome goesOn
  | condition opens closes => exact .condition opens closes
  | blockOf opens closes =>
      obtain rfl := moves rfl
      simp only [List.map, Item.moved, Nonterminal.moved, Phrase.moved, Moved.ofBlock,
        map_moved_statement]
      exact .blockOf opens closes
  | declarationStatement declares =>
      obtain rfl := moves rfl
      simp only [List.map, Item.moved, Nonterminal.moved, Phrase.moved, Moved.ofDeclaration,
        map_moved_declarator]
      exact .declarationStatement ((keeps.declarationMode?_eq _).trans declares)
  | declarationHeader declares =>
      obtain rfl := moves rfl
      simp only [List.map, Item.moved, Nonterminal.moved, Phrase.moved, Moved.ofDeclaration,
        map_moved_declarator]
      exact .declarationHeader ((keeps.declarationMode?_eq _).trans declares)
  | declaratorInitialized named assigns =>
      simp only [Phrase.moved, Moved.ofDeclarator, Moved.ofOptionalInitializer,
        ← keeps.nameOf_eq first]
      exact .declaratorInitialized named assigns
  | declaratorPlain named plain =>
      simp only [Phrase.moved, Moved.ofDeclarator, Moved.ofOptionalInitializer,
        ← keeps.nameOf_eq first]
      exact .declaratorPlain named plain
  | initializer =>
      obtain rfl := moves rfl
      exact .initializer
  | handler opens named closes =>
      obtain rfl := moves rfl
      simp only [Phrase.moved, Moved.ofHandler, ← keeps.nameOf_eq second]
      exact .handler opens named closes
  | branch divides =>
      obtain rfl := moves rfl
      simp only [List.map, Item.moved, Nonterminal.moved, Phrase.moved, Moved.ofBranch,
        map_moved_statement]
      exact .branch divides
  | branchTestCase opens => exact .branchTestCase opens
  | branchTestDefault opens => exact .branchTestDefault opens
  | forStartDeclaration opens => exact .forStartDeclaration opens
  | forStartNothing missing => exact .forStartNothing missing
  | forStartExpression noDeclaration present => exact .forStartExpression noDeclaration present
  | forClauseNone closes mark => exact .forClauseNone closes mark
  | forClauseSome present closes mark => exact .forClauseSome present closes mark
  | forInTargetDeclaration opens single =>
      exact .forInTargetDeclaration opens ((Moved.length_declarators ..).trans single)
  | forInTargetExpression noDeclaration present target =>
      exact .forInTargetExpression noDeclaration present (by simpa using target)

/-- A production of repeated phrases is one of the tokens at their new places. -/
theorem RepetitionRule.moved {nonterminal : Nonterminal} (relocation : Relocation)
    (rule : RepetitionRule nonterminal items)
    : RepetitionRule (nonterminal.moved relocation.span)
        (items.map (Item.moved relocation)) := by
  cases rule with
  | listNone closes mark => exact .listNone closes mark
  | listMore goesOn => exact .listMore goesOn
  | listTailNone closes mark noComma => exact .listTailNone closes mark noComma
  | listTailMore separates => exact .listTailMore separates
  | looseListNone closes mark => exact .looseListNone closes mark
  | looseListLast goesOn closes mark noComma => exact .looseListLast goesOn closes mark noComma
  | looseListMore goesOn separates => exact .looseListMore goesOn separates
  | separatedLast noComma => exact .separatedLast noComma
  | separatedMore separates => exact .separatedMore separates
  | repeatedNone stops => exact .repeatedNone stops
  | repeatedMore goesOn => exact .repeatedMore goesOn
  | afterKeywordNone missing => exact .afterKeywordNone missing
  | afterKeywordSome opens mark => exact .afterKeywordSome opens mark

/-- Whether the first token begins a line is ignored. -/
def Nonterminal.ignoresLine : Nonterminal → Bool
  | phrase inner => inner.ignoresLine
  | _ => false

/-- What goes on from an expression is not repeated. -/
def Nonterminal.Attached (script : Script) (offset : Nat) : Nonterminal → Prop
  | phrase inner => inner.Attached script offset
  | list _ phrases | listTail _ phrases | looseList _ phrases | separated phrases
  | repeated _ phrases => ∀ phrase ∈ phrases, ∀ offset, phrase.Attached script offset
  | afterKeyword _ phrase? => ∀ phrase ∈ phrase?, ∀ offset, phrase.Attached script offset

/-- A production is one of the tokens at their new places. -/
theorem Rule.moved {nonterminal : Nonterminal} (rule : Rule script span nonterminal items)
    (components : Components script (Parses script) items offset)
    (attached : nonterminal.Attached script offset)
    (keeps : relocation.Keeps script other nonterminal.ignoresLine (Item.tokensOf items))
    (moves : nonterminal.consumes → span' = relocation.span span)
    : Rule other span' (nonterminal.moved relocation.span)
        (items.map (Item.moved relocation)) := by
  cases rule with
  | expression rule => exact .expression (rule.moved components attached keeps moves)
  | statement rule => exact .statement (rule.moved keeps moves)
  | repetition rule => exact .repetition (rule.moved relocation)

end Grammar

end EcmaSyntax
