import EcmaSyntax.Proofs.Grammar.Names
import EcmaSyntax.Proofs.Tree.Nodes

/-! What the shape of a tree leaves open and parsing settles: which operators stand where and what they
assign to, how many parameters accessors have, that a `try` guards something, and that nothing in the
header of a `for` loop could be taken for the `in` of one.
-/

namespace EcmaSyntax

open EcmaSyntax.Grammar

-----------------------------------------------------------------------------------------
-- Well-built nodes
-----------------------------------------------------------------------------------------

namespace Operator

/-- The operators that stand between two operands: binary operators, assignments and the comma. -/
def infixes : List Operator :=
  [
    .multiplication, .division, .remainder, .addition, .subtraction, .bitwiseLeftShift,
    .bitwiseRightShift, .bitwiseUnsignedRightShift, .lessThan, .lessThanOrEqual, .greaterThan,
    .greaterThanOrEqual, .instanceof, .isIn, .equality, .inequality, .strictEquality,
    .strictInequality, .bitwiseAnd, .bitwiseXor, .bitwiseOr, .logicalAnd, .logicalOr, .assignment,
    .assignmentAddition, .assignmentBitwiseAnd, .assignmentBitwiseLeftShift, .assignmentBitwiseOr,
    .assignmentBitwiseRightShift, .assignmentBitwiseUnsignedRightShift, .assignmentBitwiseXor,
    .assignmentDivision, .assignmentMultiplication, .assignmentRemainder, .assignmentSubtraction,
    .comma
  ]

/-- The operators that stand in front of their operand. -/
def prefixes : List Operator :=
  [
    .bitwiseNot, .delete, .logicalNot, .prefixDecrement, .prefixIncrement, .typeof, .unaryNegation,
    .unaryPlus, .void
  ]

/-- The operators that stand behind their operand. -/
def postfixes : List Operator :=
  [.postfixDecrement, .postfixIncrement]

end Operator

/-- The operator `in` stands somewhere in the expression where no token closes what it is in. -/
def Expr.hasOpenIn : Expr → Bool
  | binary _ operator left right => operator = .isIn || left.hasOpenIn || right.hasOpenIn
  | conditional _ test _ alternate => test.hasOpenIn || alternate.hasOpenIn
  | call _ base _ | member _ base _ | index _ base _ | construct _ base _ => base.hasOpenIn
  | unary _ _ argument | update _ _ argument => argument.hasOpenIn
  | identifier .. | this _ | boolean .. | null _ | number .. | regex .. | string .. | array ..
  | object .. | function .. | parenthesized .. => false

/-- The operator stands where it may, and what it assigns to can be assigned to. -/
def Expr.WellBuilt : Expr → Prop
  | binary _ operator left _ =>
      operator ∈ Operator.infixes ∧ (operator.isAssignment → left.isAssignmentTarget)
  | unary _ operator argument =>
      operator ∈ Operator.prefixes
      ∧ (operator = .prefixDecrement ∨ operator = .prefixIncrement → argument.isAssignmentTarget)
  | update _ operator argument => operator ∈ Operator.postfixes ∧ argument.isAssignmentTarget
  | _ => True

/-- Getters have no parameters, and setters have one. -/
def Member.WellBuilt : Member → Prop
  | property .. => True
  | getter _ _ function => function.parameters.length = 0
  | setter _ _ function => function.parameters.length = 1

/-- No initializer has an open `in`. -/
def Declaration.ClosedToIn (declaration : Declaration) : Prop :=
  ∀ declarator ∈ declaration.declarators,
    ∀ initializer ∈ declarator.initializer, initializer.value.hasOpenIn = false

def ForStart.WellBuilt : ForStart → Prop
  | nothing => True
  | expression value => value.hasOpenIn = false
  | declaration inner => inner.ClosedToIn

def ForInTarget.WellBuilt : ForInTarget → Prop
  | declaration inner => inner.declarators.length = 1 ∧ inner.ClosedToIn
  | expression target => target.isAssignmentTarget ∧ target.hasOpenIn = false

/-- Headers of loops have no open `in` in front of their own, and a `try` has a handler or a finalizer. -/
def Stmt.WellBuilt : Stmt → Prop
  | forIn _ target _ _ => target.WellBuilt
  | forLoop _ start _ _ _ => start.WellBuilt
  | tryBlock _ _ handler finalizer => handler.isSome ∨ finalizer.isSome
  | _ => True

/-- The node has the parts that its kind asks for. -/
def Node.WellBuilt : Node → Prop
  | statement inner => inner.WellBuilt
  | expression value => value.WellBuilt
  | member inner => inner.WellBuilt
  | declaration inner => inner.declarators ≠ []
  | program _ | arguments _ | function _ | parameter _ | body _ | block _ | handler _ | branch _
  | initializer _ => True

variable {script : Script} {offset : Nat} {tokens : List Token} {inAllowed : Bool}

namespace Grammar

-----------------------------------------------------------------------------------------
-- Where `in` is not allowed
-----------------------------------------------------------------------------------------

/-- Where `in` is not allowed, a phrase makes no open one. A phrase that goes on from an expression adds
none to it.
-/
def Nonterminal.ClosedToIn : Nonterminal → Prop
  | phrase (.expression inAllowed _ value) | phrase (.operand inAllowed value) =>
      inAllowed = false → value.hasOpenIn = false
  | phrase (.primary value) => value.hasOpenIn = false
  | phrase (.operators inAllowed _ left value) =>
      inAllowed = false → left.hasOpenIn = false → value.hasOpenIn = false
  | phrase (.continuation inAllowed operator left value) =>
      inAllowed = false →
      operator ≠ .isIn →
      left.hasOpenIn = false →
      value.hasOpenIn = false
  | phrase (.access _ object value) | phrase (.accesses object value) =>
      object.hasOpenIn = false → value.hasOpenIn = false
  | _ => True

/-- Each production of an expression makes no open `in` where its parts make none. -/
theorem ExpressionRule.closedToIn {span : Span} {phrase : Phrase} {items : List Item}
    (rule : ExpressionRule script span phrase items)
    (components : Components script (fun part _ _ => part.ClosedToIn) items offset)
    : (Nonterminal.phrase phrase).ClosedToIn := by
  cases rule with
  | expression =>
      obtain ⟨operand, operators, _⟩ := components
      exact fun barred => operators barred (operand barred)
  | operandPlain => exact fun _ => components.1
  | operandPrefixed => exact components.2.1
  | construct | constructBare =>
      obtain ⟨_, head, accesses, _⟩ := components
      exact accesses head
  | accessesNone => exact id
  | accessesMore =>
      obtain ⟨_, access, accesses, _⟩ := components
      exact fun object => accesses (access object)
  | accessMember | accessIndex => exact id
  | operatorsNone => exact fun _ => id
  | operatorsUpdate =>
      obtain ⟨_, operators, _⟩ := components
      exact operators
  | operatorsMore _ _ _ allowed =>
      obtain ⟨_, continuation, operators, _⟩ := components
      intro barred left
      refine operators barred (continuation barred (fun isIn => ?_) left)
      exact absurd (allowed isIn) (by simp [barred])
  | continuationCall => exact fun _ _ => id
  | continuationAccess => exact fun _ _ => components.1
  | continuationConditional =>
      obtain ⟨_, _, _, alternate, _⟩ := components
      intro barred _ left
      simp [Expr.hasOpenIn, left, alternate barred]
  | continuationBinary =>
      obtain ⟨_, right, _⟩ := components
      intro barred other left
      simp [Expr.hasOpenIn, other, left, right barred]
  | object | array | identifier | functionAnonymous | functionNamed | this | boolean | null
  | number | regex | string | parenthesized =>
      rfl
  | arguments | elementsNone | elementsHole | elementsLast | elementsMore | memberProperty
  | memberGetter | memberSetter | function | parameter | body =>
      trivial

/-- Where `in` is not allowed, no open one is parsed. -/
theorem Parses.closedToIn {nonterminal : Nonterminal}
    (derivation : Parses script nonterminal offset tokens)
    : nonterminal.ClosedToIn := by
  refine derivation.induction (motive := fun nonterminal _ _ => nonterminal.ClosedToIn) ?_
  intro nonterminal items offset rule components
  cases rule with
  | expression rule => exact rule.closedToIn (components.mono fun _ _ _ holds => holds.2)
  | statement rule => cases rule <;> trivial
  | repetition rule => cases rule <;> trivial

/-- The initializer of a declarator has no open `in` where none is allowed. -/
theorem Parses.closedToIn_declarator {declarator : Declarator}
    (derivation : Parses script (.phrase (.declarator false declarator)) offset tokens)
    : ∀ initializer ∈ declarator.initializer, initializer.value.hasOpenIn = false := by
  obtain ⟨items, rfl, rule, components⟩ := derivation.statement_components rfl
  cases rule with
  | declaratorPlain => nofun
  | declaratorInitialized =>
      obtain ⟨_, _, initializer, _⟩ := components
      rintro _ ⟨⟩
      obtain ⟨items, rfl, rule, inner⟩ := initializer.statement_components rfl
      cases rule with
      | initializer => exact inner.1.closedToIn rfl

/-- A declaration in the header of a loop has no open `in`. -/
theorem Parses.closedToIn_declaration {place : DeclarationPlace} {declaration : Declaration}
    (derivation : Parses script (.phrase (.declaration false place declaration)) offset tokens)
    : declaration.ClosedToIn := by
  intro declarator listed
  obtain ⟨items, rfl, rule, components⟩ := derivation.statement_components rfl
  cases rule with
  | declarationStatement | declarationHeader =>
      obtain ⟨_, separated, _⟩ := components
      obtain ⟨_, _, parsed⟩ := separated.of_separated _ (List.mem_map_of_mem listed)
      exact parsed.closedToIn_declarator

-----------------------------------------------------------------------------------------
-- What parses is well-built
-----------------------------------------------------------------------------------------

/-- What is read between two operands is an operator that stands there. -/
theorem mem_infixes_of_infixOperator? {kind : Kind} {operator : Operator}
    (opens : kind.infixOperator? = some operator) (isBinary : operator.isBinary)
    : operator ∈ Operator.infixes := by
  cases kind <;> cases opens <;> first | decide | cases isBinary

/-- What is read in front of an operand is an operator that stands there. -/
theorem mem_prefixes_of_prefixOperator? {kind : Kind} {operator : Operator}
    (opens : kind.prefixOperator? = some operator)
    : operator ∈ Operator.prefixes := by
  cases kind <;> cases opens <;> decide

/-- What a chain of operators makes is well built, by induction on the chain. -/
theorem Chains.wellBuilt {value : Expr} (chains : Chains script inAllowed offset tokens value)
    : value.WellBuilt := by
  cases chains with
  | update _ _ updates assignable =>
      refine ⟨?_, assignable⟩
      rcases eq_postfix_of_updateOperator? updates with rfl | rfl <;> decide
  | operand operand =>
      obtain ⟨items, rfl, rule, components⟩ := operand.expression_components rfl
      cases rule with
      | operandPrefixed opens target => exact ⟨mem_prefixes_of_prefixOperator? opens, target⟩
      | operandPlain =>
          obtain ⟨items, rfl, rule, _⟩ := components.1.expression_components rfl
          cases rule <;> trivial
  | more _ _ _ _ continuation =>
      obtain ⟨items, rfl, rule, components⟩ := continuation.expression_components rfl
      cases rule with
      | continuationBinary opens isBinary target =>
          exact ⟨mem_infixes_of_infixOperator? opens isBinary, target⟩
      | continuationCall | continuationConditional => trivial
      | continuationAccess =>
          obtain ⟨items, rfl, rule, _⟩ := components.1.expression_components rfl
          cases rule <;> trivial

theorem Parses.wellBuilt_member {member : Member}
    (derivation : Parses script (.phrase (.member member)) offset tokens)
    : member.WellBuilt := by
  obtain ⟨items, rfl, rule, _⟩ := derivation.expression_components rfl
  cases rule with
  | memberProperty => trivial
  | memberGetter _ _ _ arity => exact arity
  | memberSetter _ _ _ arity => exact arity

theorem Parses.wellBuilt_forStart {start : ForStart}
    (derivation : Parses script (.phrase (.forStart start)) offset tokens)
    : start.WellBuilt := by
  obtain ⟨items, rfl, rule, components⟩ := derivation.statement_components rfl
  cases rule with
  | forStartNothing => trivial
  | forStartDeclaration => exact components.2.1.closedToIn_declaration
  | forStartExpression => exact components.2.1.closedToIn rfl

theorem Parses.wellBuilt_forInTarget {target : ForInTarget}
    (derivation : Parses script (.phrase (.forInTarget target)) offset tokens)
    : target.WellBuilt := by
  obtain ⟨items, rfl, rule, components⟩ := derivation.statement_components rfl
  cases rule with
  | forInTargetDeclaration _ single => exact ⟨single, components.2.1.closedToIn_declaration⟩
  | forInTargetExpression _ _ assignable => exact ⟨assignable, components.2.1.closedToIn rfl⟩

/-- What parses as a statement is well built, by cases on its production. -/
theorem Parses.wellBuilt_statement {statement : Stmt}
    (derivation : Parses script (.phrase (.statement inAllowed statement)) offset tokens)
    : statement.WellBuilt := by
  obtain ⟨items, rfl, rule, components⟩ := derivation.statement_components rfl
  cases rule with
  | forIn => exact components.2.2.1.wellBuilt_forInTarget
  | forLoop => exact components.2.2.1.wellBuilt_forStart
  | tryBlock _ guarded => exact guarded
  | _ => trivial

/-- Phrases with commas between them are one at least. -/
theorem Parses.separated_ne_nil {phrases : List Phrase}
    (derivation : Parses script (.separated phrases) offset tokens)
    : phrases ≠ [] := by
  obtain ⟨items, rfl, rule | rule | rule, _⟩ := derivation.components
  cases rule <;> exact List.cons_ne_nil _ _

theorem Parses.wellBuilt_declaration {place : DeclarationPlace} {declaration : Declaration}
    (derivation
      : Parses script (.phrase (.declaration inAllowed place declaration)) offset tokens)
    : (Node.declaration declaration).WellBuilt := by
  obtain ⟨items, rfl, rule, components⟩ := derivation.statement_components rfl
  cases rule with
  | declarationStatement | declarationHeader =>
      exact fun empty => components.2.1.separated_ne_nil (List.map_eq_nil_iff.mpr empty)

end Grammar

/-- What parses as a node is well built, by cases on the kind of node. -/
theorem Node.Parsed.wellBuilt {node : Node} (parsed : node.Parsed script offset tokens)
    : node.WellBuilt := by
  cases parsed with
  | statement parses => exact parses.wellBuilt_statement
  | expression chains => exact chains.wellBuilt
  | member parses => exact parses.wellBuilt_member
  | declaration parses => exact parses.wellBuilt_declaration
  | arguments | function | parameter | body | block | handler | branch | initializer => trivial

namespace Program

variable {source : List Char} {dialect : Dialect} {program : Program}

/-- Everywhere in a parsed program, operators stand where they may and assign to what can be assigned to,
accessors have the parameters that they should, declarations declare something, a `try` has a handler or
a finalizer, and no `in` is open in front of the one that a `for` header might have.
-/
theorem wellBuilt_of_parse (parsed : parse source dialect = .ok program)
    : (Node.program program).Everywhere Node.WellBuilt := by
  intro node within
  cases located_of_parse parsed within with
  | root => trivial
  | parsed derived => exact derived.wellBuilt
  | missing => trivial

/-- An `in` in parentheses, in the header of a loop whose body has an operator on either side. -/
theorem wellBuilt_of_parse_loops
    : ∃ program,
        parse "for (var a = (b in c); ; ) -d++".toList .ecma = .ok program
        ∧ program.nodes.length = 7
        ∧ (Node.program program).Everywhere Node.WellBuilt := by
  have counted
      : (parse "for (var a = (b in c); ; ) -d++".toList .ecma).toOption.map
            (fun program => program.nodes.length)
          = some 7 := by
    decide +kernel
  cases parsed : parse "for (var a = (b in c); ; ) -d++".toList .ecma with
  | error failure =>
      rw [parsed] at counted
      cases counted
  | ok program =>
      rw [parsed] at counted
      exact ⟨program, rfl, Option.some.inj counted, wellBuilt_of_parse parsed⟩

end Program

end EcmaSyntax
