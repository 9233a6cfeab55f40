import EcmaSyntax.Proofs.Printing.Reparsing
import EcmaSyntax.Proofs.Printing.Statement.Printable

/-! The words of what stands in statements beside statements parse as it, up to the places of its nodes:
names, conditions and the operands of jumps, declarations, the headers of loops, and parameters.
-/

namespace EcmaSyntax

open EcmaSyntax.Grammar

variable {script : Script} {offset : Nat} {tokens : List Token} {inAllowed : Bool}

-----------------------------------------------------------------------------------------
-- Names
-----------------------------------------------------------------------------------------

/-- A free name is spelled by an identifier. -/
theorem Script.spells_name {name : String} {words : List Word} (isFree : IsFreeName name)
    (spells : script.Spells offset tokens (.ofName name :: words))
    : ∃ token rest,
        tokens = token :: rest
        ∧ script.Reads .standard offset token
        ∧ token.kind = .identifier
        ∧ token.afterNewline = false
        ∧ script.nameOf token = name
        ∧ script.Spells token.span.stop rest words := by
  obtain ⟨token, rest, rfl, read, kind_eq, sameLine, text_eq, spells⟩ := spells_cons spells
  exact ⟨token, rest, rfl, read, kind_eq.trans isFree.kind_ofName, sameLine,
    nameOf_ofName isFree.written text_eq, spells⟩

/-- A word of a fixed spelling is spelled by a token of its kind. -/
theorem Script.spells_kind {kind : Kind} {words : List Word}
    (spells : script.Spells offset tokens (.ofKind kind :: words))
    : ∃ token rest,
        tokens = token :: rest
        ∧ script.Reads .standard offset token
        ∧ token.kind = kind
        ∧ token.afterNewline = false
        ∧ script.Spells token.span.stop rest words := by
  obtain ⟨token, rest, rfl, read, kind_eq, sameLine, _, spells⟩ := spells_cons spells
  exact ⟨token, rest, rfl, read, kind_eq, sameLine, spells⟩

/-- An expression of a complete tree is a free name. -/
theorem Node.Complete.exists_name {value : Expr} (complete : (Node.expression value).Complete)
    : ∃ span name, value = .identifier span name ∧ IsFreeName name := by
  obtain ⟨span, name, rfl⟩ := complete.1.printed
  exact ⟨span, name, rfl, complete.1.names name (List.mem_singleton_self _)⟩

namespace Grammar

/-- A name is an expression where no operator goes on from it. -/
theorem parses_name {least : Nat} {name : String} (isFree : IsFreeName name)
    (spells : script.Spells offset tokens [.ofName name]) {next : Token}
    (read : script.Reads .standard (Token.endOf offset tokens) next)
    (stops : StopsOperators inAllowed least next)
    : Parses script
        (.phrase (.expression inAllowed least (.identifier (Token.spanOf tokens) name)))
        offset tokens := by
  obtain ⟨token, rest, rfl, readName, named, _, name_eq, behind⟩ := Script.spells_name isFree spells
  obtain rfl := Script.spells_nil behind
  subst name_eq
  have primary
      : Parses script
          (.phrase (.primary (.identifier (Token.spanOf [token]) (script.nameOf token)))) offset
          [token] :=
    .intro (.expression (.identifier named)) (.token readName .nil) rfl
  have operand
      : Parses script
          (.phrase
            (.operand inAllowed (.identifier (Token.spanOf [token]) (script.nameOf token)))) offset
          [token] :=
    .intro (.expression .operandPlain) (.part primary .nil) rfl
  have none
      : Parses script
          (.phrase
            (.operators inAllowed least (.identifier (Token.spanOf [token]) (script.nameOf token))
              (.identifier (Token.spanOf [token]) (script.nameOf token))))
          (Token.endOf offset [token]) [] :=
    .intro (.expression (.operatorsNone stops)) (.ahead ⟨read, trivial⟩ .nil) rfl
  exact .intro (.expression .expression) (.part operand (.part none .nil)) rfl

/-- An expression that is a name parses where no operator goes on from it. -/
theorem reparses_name {least : Nat} {value : Expr} (complete : (Node.expression value).Complete)
    (spells : script.Spells offset tokens (Printed.ofExpr value)) {next : Token}
    (read : script.Reads .standard (Token.endOf offset tokens) next)
    (stops : StopsOperators inAllowed least next)
    : ∃ result first : _,
        Placeless.ofExpr result = Placeless.ofExpr value
        ∧ result.isAssignmentTarget
        ∧ Parses script (.phrase (.expression inAllowed least result)) offset tokens
        ∧ script.Reads .standard offset first
        ∧ first.kind = .identifier
        ∧ first.afterNewline = false
        ∧ first.span.stop = Token.endOf offset tokens := by
  obtain ⟨span, name, rfl, isFree⟩ := complete.exists_name
  have parses := parses_name isFree spells read stops
  obtain ⟨first, rest, rfl, readFirst, named, sameLine, _, behind⟩ :=
    Script.spells_name isFree spells
  obtain rfl := Script.spells_nil behind
  exact ⟨.identifier (Token.spanOf [first]) name, first, rfl, rfl, parses, readFirst, named,
    sameLine, rfl⟩

/-- A token of a kind that is no operator stops the operators in front of it. -/
theorem stopsOperators_of_kind {least : Nat} {token : Token} {kind : Kind}
    (kind_eq : token.kind = kind) (ends : endsOperand kind)
    : StopsOperators inAllowed least token :=
  stopsOperators_of_endsOperand (kind_eq ▸ ends)

/-- A semicolon ends a statement. -/
theorem parses_statementEnd (spells : script.Spells offset tokens [.ofKind .semicolon])
    : Parses script (.phrase .statementEnd) offset tokens := by
  obtain ⟨semicolon, rest, rfl, read, kind_eq, _, behind⟩ := Script.spells_kind spells
  obtain rfl := Script.spells_nil behind
  exact .intro (.statement (.statementEndMark kind_eq)) (.token read .nil) rfl

/-- A condition is reparsed in its parentheses. -/
theorem reparses_condition {value : Expr} (complete : (Node.expression value).Complete)
    (spells : script.Spells offset tokens (Printed.ofCondition value))
    : ∃ result : Expr,
        Placeless.ofExpr result = Placeless.ofExpr value
        ∧ Parses script (.phrase (.condition inAllowed result)) offset tokens := by
  obtain ⟨parenthesis, tokens, rfl, read, kind_eq, _, spells⟩ := Script.spells_kind spells
  obtain ⟨front, back, rfl, spelled, spells⟩ := Script.spells_append spells
  obtain ⟨close, rest, rfl, readClose, close_eq, _, behind⟩ := Script.spells_kind spells
  obtain rfl := Script.spells_nil behind
  obtain ⟨result, _, alike, _, parses, _⟩ :=
    reparses_name complete spelled readClose (stopsOperators_of_kind close_eq rfl)
  exact ⟨result, alike,
    .intro (.statement (.condition kind_eq close_eq))
      (.token read (.part parses (.token readClose .nil))) (by simp [Item.tokensOf])⟩

/-- The operand of `return` or `throw`, which may be missing, up to the semicolon. -/
theorem reparses_restrictedOperand {value : Option Expr}
    (complete : ∀ inner, value = some inner → (Node.expression inner).Complete)
    (spells
      : script.Spells offset tokens (Printed.ofOptionalExpr value ++ [.ofKind .semicolon]))
    : ∃ result : Option Expr,
        Placeless.ofOptionalExpr result = Placeless.ofOptionalExpr value
        ∧ Parses script (.phrase (.restrictedOperand inAllowed result)) offset tokens := by
  cases value with
  | none =>
      have ended := parses_statementEnd spells
      obtain ⟨next, rest, rfl, read, kind_eq, _⟩ := Script.spells_kind spells
      refine ⟨none, rfl, ?_⟩
      exact .intro (.statement (.restrictedOperandNone (by simp [endsStatement, kind_eq])))
        (.ahead ⟨read, trivial⟩ (.part ended .nil)) (by simp [Item.tokensOf])
  | some value =>
      obtain ⟨front, back, rfl, spelled, spells⟩ := Script.spells_append spells
      have ended := parses_statementEnd spells
      obtain ⟨semicolon, rest, rfl, read, kind_eq, _⟩ := Script.spells_kind spells
      obtain ⟨result, first, alike, _, parses, readFirst, named, sameLine, _⟩ :=
        reparses_name (complete value rfl) spelled read (stopsOperators_of_kind kind_eq rfl)
      refine ⟨some result, congrArg some alike, ?_⟩
      exact .intro
        (.statement (.restrictedOperandSome (by simp [endsStatement, named, sameLine])))
        (.ahead ⟨readFirst, trivial⟩ (.part parses (.part ended .nil))) (by simp [Item.tokensOf])

/-- The label of `break` or `continue`, which may be missing, up to the semicolon. -/
theorem parses_jumpLabel {label : Option String} (names : ∀ name ∈ label.toList, IsFreeName name)
    (spells : script.Spells offset tokens (Printed.ofLabel label ++ [.ofKind .semicolon]))
    : Parses script (.phrase (.jumpLabel label)) offset tokens := by
  cases label with
  | none =>
      have ended := parses_statementEnd spells
      obtain ⟨next, rest, rfl, read, kind_eq, _⟩ := Script.spells_kind spells
      exact .intro (.statement (.jumpLabelNone (by simp [kind_eq])))
        (.ahead ⟨read, trivial⟩ (.part ended .nil)) (by simp [Item.tokensOf])
  | some label =>
      have isFree := names label (List.mem_singleton_self _)
      obtain ⟨token, rest, rfl, read, named, sameLine, name_eq, behind⟩ :=
        Script.spells_name isFree spells
      have ended := parses_statementEnd behind
      subst name_eq
      exact .intro (.statement (.jumpLabelSome named sameLine))
        (.token read (.part ended .nil)) (by simp [Item.tokensOf])

/-- A clause of a loop, which may be missing, up to the mark behind it. -/
theorem reparses_forClause {value : Option Expr} {close : Kind}
    (complete : ∀ inner, value = some inner → (Node.expression inner).Complete)
    (ends : endsOperand close) (mark : close.isPlain) (noName : close ≠ .identifier)
    (spells : script.Spells offset tokens (Printed.ofOptionalExpr value ++ [.ofKind close]))
    : ∃ result : Option Expr,
        Placeless.ofOptionalExpr result = Placeless.ofOptionalExpr value
        ∧ Parses script (.phrase (.forClause inAllowed close result)) offset tokens := by
  cases value with
  | none =>
      obtain ⟨token, rest, rfl, read, kind_eq, _, behind⟩ := Script.spells_kind spells
      obtain rfl := Script.spells_nil behind
      exact ⟨none, rfl,
        .intro (.statement (.forClauseNone kind_eq mark)) (.token read .nil) rfl⟩
  | some value =>
      obtain ⟨front, back, rfl, spelled, spells⟩ := Script.spells_append spells
      obtain ⟨token, rest, rfl, read, kind_eq, _, behind⟩ := Script.spells_kind spells
      obtain rfl := Script.spells_nil behind
      obtain ⟨result, first, alike, _, parses, readFirst, named, _⟩ :=
        reparses_name (complete value rfl) spelled read (stopsOperators_of_kind kind_eq ends)
      have present : first.kind ≠ close := named ▸ noName.symm
      exact ⟨some result, congrArg some alike,
        .intro (.statement (.forClauseSome present kind_eq mark))
          (.ahead ⟨readFirst, trivial⟩ (.part parses (.token read .nil)))
          (by simp [Item.tokensOf])⟩

-----------------------------------------------------------------------------------------
-- Declarations
-----------------------------------------------------------------------------------------

/-- The token stands behind declarators: it neither goes on with them nor with an initializer. -/
structure EndsDeclarators (inAllowed : Bool) (next : Token) : Prop where
  noComma : next.kind ≠ .comma
  noEquals : next.kind ≠ .equals
  stops : StopsOperators inAllowed Operator.assignmentPrecedence next

/-- A semicolon ends declarators everywhere. -/
theorem endsDeclarators_semicolon {next : Token} (kind_eq : next.kind = .semicolon)
    : EndsDeclarators inAllowed next where
  noComma := by simp [kind_eq]
  noEquals := by simp [kind_eq]
  stops := stopsOperators_of_kind kind_eq rfl

/-- The word `in` is no operator where operators must not be it. -/
theorem stopsOperators_in {least : Nat} {next : Token} (kind_eq : next.kind = .keywordIn)
    : StopsOperators false least next := by
  unfold StopsOperators
  rw [show updateOperator? next = none by simp [updateOperator?, kind_eq]]
  rintro operator opens
  rw [kind_eq] at opens
  cases opens
  exact .inr ⟨rfl, rfl⟩

/-- In the header of a loop, `in` ends declarators. -/
theorem endsDeclarators_in {next : Token} (kind_eq : next.kind = .keywordIn)
    : EndsDeclarators false next where
  noComma := by simp [kind_eq]
  noEquals := by simp [kind_eq]
  stops := stopsOperators_in kind_eq

/-- One declarator, in front of a token that goes on neither with it nor with its value. -/
theorem reparses_declarator {declarator : Declarator} (isFree : IsFreeName declarator.name)
    (complete : ∀ node ∈ declarator.children, node.Everywhere Node.Complete)
    (spells
      : script.Spells offset tokens
          (.ofName declarator.name :: Printed.ofInitializer declarator.initializer))
    {next : Token} (read : script.Reads .standard (Token.endOf offset tokens) next)
    (noEquals : next.kind ≠ .equals)
    (stops : StopsOperators inAllowed Operator.assignmentPrecedence next)
    : ∃ result : Declarator,
        Placeless.ofDeclarator result = Placeless.ofDeclarator declarator
        ∧ Parses script (.phrase (.declarator inAllowed result)) offset tokens := by
  obtain ⟨token, rest, rfl, readName, named, _, name_eq, behind⟩ := Script.spells_name isFree spells
  obtain ⟨name, _ | ⟨span, value⟩⟩ := declarator
  · obtain rfl := Script.spells_nil behind
    subst name_eq
    exact ⟨{ name := script.nameOf token, initializer := none }, rfl,
      .intro (.statement (.declaratorPlain named noEquals))
        (.token readName (.ahead ⟨read, trivial⟩ .nil)) rfl⟩
  · obtain ⟨equals, rest, rfl, readEquals, equals_eq, _, spelled⟩ := Script.spells_kind behind
    subst name_eq
    have inner : (Node.initializer { span, value }).Everywhere Node.Complete :=
      complete _ (List.mem_singleton_self _)
    have valueComplete := (inner.child (List.mem_singleton_self _)).self
    obtain ⟨result, _, alike, _, parses, _⟩ := reparses_name valueComplete spelled read stops
    have initializer
        : Parses script
            (.phrase (.initializer inAllowed { span := Token.spanOf rest, value := result }))
            equals.span.stop rest :=
      .intro (.statement .initializer) (.part parses .nil) (by simp [Item.tokensOf])
    refine ⟨{ name := script.nameOf token, initializer := some { span := _, value := result } },
      ?_, .intro (.statement (.declaratorInitialized named equals_eq))
        (.token readName (.token readEquals (.part initializer .nil))) (by simp [Item.tokensOf])⟩
    simp [Placeless.ofDeclarator, Placeless.ofOptionalInitializer, Placeless.ofInitializer, alike]

/-- Declarators are reparsed one after the other, by induction on their list. -/
theorem reparses_declarators {declarators : List Declarator} (declares : declarators ≠ [])
    (names : ∀ declarator ∈ declarators, IsFreeName declarator.name)
    (complete
      : ∀ declarator ∈ declarators,
          ∀ node ∈ declarator.children, node.Everywhere Node.Complete)
    (spells : script.Spells offset tokens (Printed.ofDeclarators declarators)) {next : Token}
    (read : script.Reads .standard (Token.endOf offset tokens) next)
    (ends : EndsDeclarators inAllowed next)
    : ∃ results : List Declarator,
        Placeless.ofDeclarators results = Placeless.ofDeclarators declarators
        ∧ Parses script (.separated (results.map (.declarator inAllowed))) offset tokens := by
  induction declarators generalizing offset tokens with
  | nil => exact absurd rfl declares
  | cons declarator rest ih =>
      obtain ⟨isFree, names⟩ := List.forall_mem_cons.mp names
      obtain ⟨inner, complete⟩ := List.forall_mem_cons.mp complete
      cases rest with
      | nil =>
          obtain ⟨result, alike, parses⟩ :=
            reparses_declarator isFree inner spells read ends.noEquals ends.stops
          refine ⟨[result], by simp [Placeless.ofDeclarators, alike], ?_⟩
          exact .intro (.repetition (.separatedLast ends.noComma))
            (.part parses (.ahead ⟨read, trivial⟩ .nil)) (by simp [Item.tokensOf])
      | cons second rest =>
          have spells
              : script.Spells offset tokens
                  ((.ofName declarator.name :: Printed.ofInitializer declarator.initializer)
                    ++ .ofKind .comma :: Printed.ofDeclarators (second :: rest)) :=
            spells
          obtain ⟨front, back, rfl, spelled, spells⟩ := Script.spells_append spells
          obtain ⟨comma, back, rfl, readComma, comma_eq, _, spells⟩ := Script.spells_kind spells
          have separates : comma.kind.infixOperator? = some .comma := by
            rw [comma_eq]
            rfl
          have stops : StopsOperators inAllowed Operator.assignmentPrecedence comma :=
            stopsOperators_of_binary separates (by decide)
          obtain ⟨result, alike, parses⟩ :=
            reparses_declarator isFree inner spelled readComma (by simp [comma_eq]) stops
          rw [Token.endOf_append, Token.endOf_cons] at read
          obtain ⟨results, others, parsesRest⟩ := ih (by simp) names complete spells read
          refine ⟨result :: results, ?_, ?_⟩
          · rw [Placeless.ofDeclarators, Placeless.ofDeclarators, alike, others]
          · exact .intro (.repetition (.separatedMore comma_eq))
              (.part parses (.token readComma (.part parsesRest .nil))) (by simp [Item.tokensOf])

/-- Declarations with one keyword and like declarators differ in places only. -/
theorem ofDeclaration_eq {first second : Declaration} (mode_eq : first.mode = second.mode)
    (alike : Placeless.ofDeclarators first.declarators = Placeless.ofDeclarators second.declarators)
    : Placeless.ofDeclaration first = Placeless.ofDeclaration second := by
  obtain ⟨_, mode, declarators⟩ := first
  obtain ⟨_, other, others⟩ := second
  obtain rfl : mode = other := mode_eq
  exact congrArg (Declaration.mk .nowhere mode) alike

/-- The keyword of a declaration tells its mode, where constants are known. -/
theorem declarationMode?_declarationKind (isJs : script.dialect = .js) (mode : DeclarationMode)
    : script.declarationMode? (Printed.declarationKind mode) = some mode := by
  cases mode <;> simp [Script.declarationMode?, Printed.declarationKind, Parser.isReservedIn,
    Kind.isFutureReserved, isJs]

/-- The parts of a declaration: its keyword and its declarators. -/
theorem reparses_declaration {declaration : Declaration} (isJs : script.dialect = .js)
    (complete : (Node.declaration declaration).Everywhere Node.Complete)
    (spells : script.Spells offset tokens (Printed.ofDeclaration declaration)) {next : Token}
    (read : script.Reads .standard (Token.endOf offset tokens) next)
    (ends : EndsDeclarators inAllowed next)
    : ∃ keyword rest results,
        tokens = keyword :: rest
        ∧ script.Reads .standard offset keyword
        ∧ opensDeclaration keyword.kind
        ∧ script.declarationMode? keyword.kind = some declaration.mode
        ∧ Placeless.ofDeclarators results = Placeless.ofDeclarators declaration.declarators
        ∧ Parses script (.separated (results.map (.declarator inAllowed))) keyword.span.stop rest := by
  have declares := complete.self.2
  have names := complete.self.1.names
  simp only [Node.names, List.forall_mem_map] at names
  obtain ⟨keyword, rest, rfl, readKeyword, kind_eq, _, spells⟩ := Script.spells_kind spells
  obtain ⟨results, alike, parses⟩ :=
    reparses_declarators declares names
      (fun declarator listed node below =>
        complete.child (List.mem_flatMap_of_mem listed below))
      spells read ends
  refine ⟨keyword, rest, results, rfl, readKeyword, ?_, ?_, alike, parses⟩
  · rw [kind_eq]
    cases declaration.mode <;> rfl
  · rw [kind_eq, declarationMode?_declarationKind isJs]

/-- A declaration up to the semicolon behind it. -/
theorem reparses_declarationStatement {declaration : Declaration} (isJs : script.dialect = .js)
    (complete : (Node.declaration declaration).Everywhere Node.Complete)
    (spells
      : script.Spells offset tokens (Printed.ofDeclaration declaration ++ [.ofKind .semicolon]))
    : ∃ result : Declaration,
        Placeless.ofDeclaration result = Placeless.ofDeclaration declaration
        ∧ Parses script (.phrase (.declaration inAllowed .statement result)) offset tokens := by
  obtain ⟨front, back, rfl, spelled, spells⟩ := Script.spells_append spells
  have ended := parses_statementEnd spells
  obtain ⟨semicolon, last, rfl, read, kind_eq, _, behind⟩ := Script.spells_kind spells
  obtain rfl := Script.spells_nil behind
  obtain ⟨keyword, rest, results, rfl, readKeyword, _, declares, alike, parses⟩ :=
    reparses_declaration isJs complete spelled read (endsDeclarators_semicolon kind_eq)
  rw [Token.endOf_cons] at ended
  refine ⟨
    {
      span := Token.spanOf (keyword :: rest ++ [semicolon])
      mode := declaration.mode
      declarators := results
    },
    ofDeclaration_eq rfl alike, ?_⟩
  exact .intro (.statement (.declarationStatement declares))
    (.token readKeyword (.part parses (.part ended .nil))) (by simp [Item.tokensOf])

-----------------------------------------------------------------------------------------
-- Headers of loops
-----------------------------------------------------------------------------------------

/-- A declaration in the header of a loop, where the word `in` ends it. -/
theorem reparses_headerDeclaration {declaration : Declaration} (isJs : script.dialect = .js)
    (complete : (Node.declaration declaration).Everywhere Node.Complete)
    (spells : script.Spells offset tokens (Printed.ofDeclaration declaration)) {next : Token}
    (read : script.Reads .standard (Token.endOf offset tokens) next)
    (ends : EndsDeclarators false next)
    : ∃ (result : Declaration) (first : Token),
        Placeless.ofDeclaration result = Placeless.ofDeclaration declaration
        ∧ Parses script (.phrase (.declaration false .forHeader result)) offset tokens
        ∧ script.Reads .standard offset first
        ∧ opensDeclaration first.kind := by
  obtain ⟨keyword, rest, results, rfl, readKeyword, opens, declares, alike, parses⟩ :=
    reparses_declaration isJs complete spells read ends
  refine ⟨
    {
      span := Token.spanOf (keyword :: rest)
      mode := declaration.mode
      declarators := results
    },
    keyword, ofDeclaration_eq rfl alike, ?_, readKeyword, opens⟩
  exact .intro (.statement (.declarationHeader declares)) (.token readKeyword (.part parses .nil))
    (by simp [Item.tokensOf])

/-- The start of a loop, in front of the semicolon behind it. -/
theorem reparses_forStart {start : ForStart} (isJs : script.dialect = .js)
    (complete : ∀ node ∈ start.children, node.Everywhere Node.Complete)
    (spells : script.Spells offset tokens (Printed.ofForStart start)) {next : Token}
    (read : script.Reads .standard (Token.endOf offset tokens) next)
    (divides : next.kind = .semicolon)
    : ∃ result : ForStart,
        Placeless.ofForStart result = Placeless.ofForStart start
        ∧ Parses script (.phrase (.forStart result)) offset tokens := by
  cases start with
  | nothing =>
      obtain rfl := Script.spells_nil spells
      exact ⟨.nothing, rfl,
        .intro (.statement (.forStartNothing divides)) (.ahead ⟨read, trivial⟩ .nil) rfl⟩
  | expression value =>
      have valueComplete := (complete _ (List.mem_singleton_self _)).self
      obtain ⟨result, first, alike, _, parses, readFirst, named, _⟩ :=
        reparses_name valueComplete spells read (stopsOperators_of_kind divides rfl)
      have noDeclaration : opensDeclaration first.kind = false := by rw [named]; rfl
      exact ⟨.expression result, congrArg ForStart.expression alike,
        .intro (.statement (.forStartExpression noDeclaration (by simp [named])))
          (.ahead ⟨readFirst, trivial⟩ (.part parses .nil)) (by simp [Item.tokensOf])⟩
  | declaration inner =>
      obtain ⟨result, first, alike, parses, readFirst, opens⟩ :=
        reparses_headerDeclaration isJs (complete _ (List.mem_singleton_self _)) spells read
          (endsDeclarators_semicolon divides)
      exact ⟨.declaration result, congrArg ForStart.declaration alike,
        .intro (.statement (.forStartDeclaration opens))
          (.ahead ⟨readFirst, trivial⟩ (.part parses .nil)) (by simp [Item.tokensOf])⟩

/-- Places do not change how many declarators there are. -/
theorem length_placeless_declarators (declaration : Declaration)
    : (Placeless.ofDeclaration declaration).declarators.length
      = declaration.declarators.length := by
  obtain ⟨_, _, declarators⟩ := declaration
  rw [Placeless.ofDeclaration]
  induction declarators with
  | nil => rfl
  | cons declarator rest ih => simpa [Placeless.ofDeclarators] using ih

/-- The target of a `for`-`in` loop, in front of the `in`. -/
theorem reparses_forInTarget {target : ForInTarget} (isJs : script.dialect = .js)
    (complete : ∀ node ∈ target.children, node.Everywhere Node.Complete)
    (single : ∀ inner, target = .declaration inner → inner.declarators.length = 1)
    (spells : script.Spells offset tokens (Printed.ofForInTarget target)) {next : Token}
    (read : script.Reads .standard (Token.endOf offset tokens) next)
    (within : next.kind = .keywordIn)
    : ∃ result : ForInTarget,
        Placeless.ofForInTarget result = Placeless.ofForInTarget target
        ∧ Parses script (.phrase (.forInTarget result)) offset tokens := by
  cases target with
  | expression value =>
      have valueComplete := (complete _ (List.mem_singleton_self _)).self
      obtain ⟨result, first, alike, assignable, parses, readFirst, named, _⟩ :=
        reparses_name valueComplete spells read (stopsOperators_in within)
      have noDeclaration : opensDeclaration first.kind = false := by rw [named]; rfl
      exact ⟨.expression result, congrArg ForInTarget.expression alike,
        .intro (.statement (.forInTargetExpression noDeclaration (by simp [named]) assignable))
          (.ahead ⟨readFirst, trivial⟩ (.part parses .nil)) (by simp [Item.tokensOf])⟩
  | declaration inner =>
      obtain ⟨result, first, alike, parses, readFirst, opens⟩ :=
        reparses_headerDeclaration isJs (complete _ (List.mem_singleton_self _)) spells read
          (endsDeclarators_in within)
      have single : result.declarators.length = 1 := by
        rw [← length_placeless_declarators, alike, length_placeless_declarators, single inner rfl]
      exact ⟨.declaration result, congrArg ForInTarget.declaration alike,
        .intro (.statement (.forInTargetDeclaration opens single))
          (.ahead ⟨readFirst, trivial⟩ (.part parses .nil)) (by simp [Item.tokensOf])⟩

-----------------------------------------------------------------------------------------
-- Tests of branches
-----------------------------------------------------------------------------------------

/-- The words in front of the colon of a branch. -/
theorem reparses_branchTest {test : Option Expr}
    (complete : ∀ inner, test = some inner → (Node.expression inner).Complete)
    (spells : script.Spells offset tokens (Printed.ofBranchTest test)) {colon : Token}
    (read : script.Reads .standard (Token.endOf offset tokens) colon)
    (divides : colon.kind = .colon)
    : ∃ (result : Option Expr) (first : Token),
        Placeless.ofOptionalExpr result = Placeless.ofOptionalExpr test
        ∧ Parses script (.phrase (.branchTest inAllowed result)) offset tokens
        ∧ script.Reads .standard offset first
        ∧ (first.kind = .keywordCase ∨ first.kind = .keywordDefault) := by
  cases test with
  | none =>
      obtain ⟨keyword, rest, rfl, readKeyword, kind_eq, _, behind⟩ := Script.spells_kind spells
      obtain rfl := Script.spells_nil behind
      exact ⟨none, keyword, rfl,
        .intro (.statement (.branchTestDefault kind_eq)) (.token readKeyword .nil) rfl, readKeyword,
        .inr kind_eq⟩
  | some value =>
      obtain ⟨keyword, rest, rfl, readKeyword, kind_eq, _, spelled⟩ := Script.spells_kind spells
      obtain ⟨result, _, alike, _, parses, _⟩ :=
        reparses_name (complete value rfl) spelled read (stopsOperators_of_kind divides rfl)
      exact ⟨some result, keyword, congrArg some alike,
        .intro (.statement (.branchTestCase kind_eq)) (.token readKeyword (.part parses .nil))
          (by simp [Item.tokensOf]),
        readKeyword, .inl kind_eq⟩

-----------------------------------------------------------------------------------------
-- Parameters
-----------------------------------------------------------------------------------------

/-- A parameter is reparsed from its name. -/
theorem reparses_parameter {parameter : Parameter} {words : List Word}
    (isFree : IsFreeName parameter.name)
    (spells : script.Spells offset tokens (.ofName parameter.name :: words))
    : ∃ token rest result,
        tokens = token :: rest
        ∧ script.Reads .standard offset token
        ∧ token.kind = .identifier
        ∧ result.name = parameter.name
        ∧ Parses script (.phrase (.parameter result)) offset [token]
        ∧ script.Spells token.span.stop rest words := by
  obtain ⟨token, rest, rfl, read, named, _, name_eq, behind⟩ := Script.spells_name isFree spells
  exact ⟨token, rest, { span := Token.spanOf [token], name := script.nameOf token }, rfl, read, named,
    name_eq, .intro (.expression (.parameter named)) (.token read .nil) rfl, behind⟩

theorem ofParameters_cons {first second : Parameter} {rest others : List Parameter}
    (name_eq : first.name = second.name)
    (alike : Placeless.ofParameters rest = Placeless.ofParameters others)
    : Placeless.ofParameters (first :: rest) = Placeless.ofParameters (second :: others) := by
  obtain ⟨_, name⟩ := first
  obtain ⟨_, other⟩ := second
  obtain rfl : name = other := name_eq
  rw [Placeless.ofParameters, Placeless.ofParameters, alike]

/-- The parameters behind the first are reparsed, by induction on their list. -/
theorem reparses_parameterTail {parameters : List Parameter}
    (names : ∀ parameter ∈ parameters, IsFreeName parameter.name)
    (spells : script.Spells offset tokens (Printed.ofParameterTail parameters))
    : ∃ results : List Parameter,
        Placeless.ofParameters results = Placeless.ofParameters parameters
        ∧ Parses script (.listTail .parenthesisClose (results.map .parameter)) offset tokens := by
  induction parameters generalizing offset tokens with
  | nil =>
      obtain ⟨close, rest, rfl, read, kind_eq, _, behind⟩ := Script.spells_kind spells
      obtain rfl := Script.spells_nil behind
      exact ⟨[], rfl,
        .intro (.repetition (.listTailNone kind_eq rfl (by simp [kind_eq]))) (.token read .nil) rfl⟩
  | cons parameter rest ih =>
      obtain ⟨isFree, names⟩ := List.forall_mem_cons.mp names
      obtain ⟨comma, back, rfl, read, kind_eq, _, spells⟩ := Script.spells_kind spells
      obtain ⟨token, back, result, rfl, _, _, name_eq, parses, spells⟩ :=
        reparses_parameter isFree spells
      obtain ⟨results, alike, parsesRest⟩ := ih names spells
      exact ⟨result :: results, ofParameters_cons name_eq alike,
        .intro (.repetition (.listTailMore kind_eq))
          (.token read (.part parses (.part parsesRest .nil))) (by simp [Item.tokensOf])⟩

/-- Parameters are reparsed, with their parentheses. -/
theorem reparses_parameters {parameters : List Parameter}
    (names : ∀ parameter ∈ parameters, IsFreeName parameter.name)
    (spells : script.Spells offset tokens (Printed.ofParameters parameters))
    : ∃ results : List Parameter,
        Placeless.ofParameters results = Placeless.ofParameters parameters
        ∧ Parses script (.list .parenthesisClose (results.map .parameter)) offset tokens := by
  cases parameters with
  | nil =>
      obtain ⟨close, rest, rfl, read, kind_eq, _, behind⟩ := Script.spells_kind spells
      obtain rfl := Script.spells_nil behind
      exact ⟨[], rfl, .intro (.repetition (.listNone kind_eq rfl)) (.token read .nil) rfl⟩
  | cons parameter rest =>
      obtain ⟨isFree, names⟩ := List.forall_mem_cons.mp names
      obtain ⟨token, back, result, rfl, read, named, name_eq, parses, spells⟩ :=
        reparses_parameter isFree spells
      obtain ⟨results, alike, parsesRest⟩ := reparses_parameterTail names spells
      have goesOn : token.kind ≠ .parenthesisClose := by simp [named]
      exact ⟨result :: results, ofParameters_cons name_eq alike,
        .intro (.repetition (.listMore goesOn))
          (.ahead ⟨read, trivial⟩ (.part parses (.part parsesRest .nil)))
          (by simp [Item.tokensOf])⟩

end Grammar

end EcmaSyntax
