import EcmaSyntax.Proofs.Grammar.Soundness.Program
import EcmaSyntax.Proofs.Tree.Grouping
import EcmaSyntax.Proofs.Tree.Nodes

/-! Every expression that is parsed groups as the precedences of its operators ask. Operators are read from
left to right, so what is known of the left operand is why the loop did not stop before the operator.
-/

namespace EcmaSyntax

open EcmaSyntax.Parser EcmaSyntax.Grammar

namespace Grammar

variable {script : Script} {span : Span} {items : List Item} {offset : Nat} {tokens : List Token}

/-- The precedence of the tightest operators in front of an operand. -/
def prefixPrecedence : Nat := 14

/-- No operator of the precedence or above goes on at the offset. -/
def StopsAt (script : Script) (inAllowed : Bool) (least offset : Nat) : Prop :=
  ∀ next, script.Reads .standard offset next → StopsOperators inAllowed least next

/-- Every operator between operands that goes on at the offset takes the expression as its left operand.
-/
def Precedes (script : Script) (inAllowed : Bool) (left : Expr) (offset : Nat) : Prop :=
  ∀ next operator,
    script.Reads .standard offset next →
    updateOperator? next = none →
    next.kind.infixOperator? = some operator →
    (operator = .isIn → inAllowed = true) →
    operator.precedence < prefixPrecedence →
    operator.leftPrecedence ≤ left.level

theorem Precedes.of_level {inAllowed : Bool} {left : Expr}
    (tight : prefixPrecedence ≤ left.level)
    : Precedes script inAllowed left offset := by
  intro next operator _ _ _ _ loose
  exact (operator.leftPrecedence_le.trans loose).trans tight

/-- After an operand that ended before the operators of a precedence only looser operators go on. -/
theorem StopsAt.precedes {inAllowed : Bool} {left : Expr} {least : Nat}
    (stops : StopsAt script inAllowed least offset)
    (level
      : ∀ following : Operator,
          following.precedence < least → following.leftPrecedence ≤ left.level)
    : Precedes script inAllowed left offset := by
  intro next following read noUpdate opens allowed _
  have stops := stops next read
  unfold StopsOperators at stops
  rw [noUpdate] at stops
  rcases stops following opens with loose | ⟨isIn, barred⟩
  · exact level following loose
  · exact absurd (allowed isIn) (by simp [barred])

/-- What the place of an expression in the grammar says about its level. -/
def Phrase.Leveled (script : Script) (offset : Nat) (tokens : List Token) : Phrase → Prop
  | expression inAllowed least value =>
      least ≤ prefixPrecedence →
      least ≤ value.level ∧ StopsAt script inAllowed least (Token.endOf offset tokens)
  | operand _ value => prefixPrecedence ≤ value.level
  | primary value => prefixPrecedence ≤ value.level
  | operators inAllowed least left value =>
      least ≤ left.level →
      least ≤ prefixPrecedence →
      least ≤ value.level ∧ StopsAt script inAllowed least (Token.endOf offset tokens)
  | continuation inAllowed operator _ value =>
      min operator.precedence prefixPrecedence ≤ value.level
      ∧ Precedes script inAllowed value (Token.endOf offset tokens)
  | access _ _ value => prefixPrecedence ≤ value.level
  | _ => True

/-- What the place of a part in the grammar says about the level of its result. -/
def Nonterminal.Leveled (script : Script) (offset : Nat) (tokens : List Token)
    : Nonterminal → Prop
  | phrase inner => inner.Leveled script offset tokens
  | _ => True

/-- All operators in front of an operand ask for an operand of one precedence. -/
theorem rightPrecedence_of_prefixOperator? {kind : Kind} {operator : Operator}
    (opens : kind.prefixOperator? = some operator)
    : operator.rightPrecedence = prefixPrecedence := by
  cases kind <;> first | (cases opens; rfl) | cases opens

/-- Binary operators are looser than those in front of an operand, and group to the left unless they
assign.
-/
theorem associativity_of_isBinary {kind : Kind} {operator : Operator}
    (opens : kind.infixOperator? = some operator) (isBinary : operator.isBinary)
    : operator.precedence < prefixPrecedence
      ∧ (operator.associativity = .left ∨ operator.isAssignment) := by
  cases kind <;> first | (cases opens; revert isBinary; decide) | cases opens

/-- No binary operator asks for more on its right than an operand with operators in front of it. -/
theorem rightPrecedence_le_of_isBinary {kind : Kind} {operator : Operator}
    (opens : kind.infixOperator? = some operator) (isBinary : operator.isBinary)
    : operator.rightPrecedence ≤ prefixPrecedence := by
  have loose := (associativity_of_isBinary opens isBinary).1
  exact operator.rightPrecedence_le.trans loose

/-- A production of expressions makes an expression of the level that its place asks for. -/
theorem ExpressionRule.leveled {phrase : Phrase} (rule : ExpressionRule script span phrase items)
    (components
      : Components script
          (fun part offset tokens => part.Leveled script offset tokens) items offset)
    : phrase.Leveled script offset (Item.tokensOf items) := by
  cases rule with
  | expression =>
      obtain ⟨operand, operators, _⟩ := components
      simp only [Item.tokensOf, List.append_nil, Phrase.Leveled, Token.endOf_append]
      intro bound
      exact operators (bound.trans operand) bound
  | operandPlain =>
      obtain ⟨primary, _⟩ := components
      exact primary
  | operatorsNone stops =>
      obtain ⟨⟨read, _⟩, _⟩ := components
      intro level _
      refine ⟨level, fun next readNext => ?_⟩
      obtain rfl := read.unique readNext
      exact stops
  | operatorsUpdate updates binds target =>
      obtain ⟨read, rest, _⟩ := components
      simp only [Item.tokensOf, List.append_nil, Phrase.Leveled, Token.endOf_cons]
      intro _ bound
      exact rest (bound.trans (by simp [Expr.level, prefixPrecedence])) bound
  | operatorsMore noUpdate opens binds allowed =>
      obtain ⟨_, ⟨level, _⟩, rest, _⟩ := components
      simp only [Item.tokensOf, List.append_nil, Phrase.Leveled, Token.endOf_append]
      intro _ bound
      exact rest ((le_min binds bound).trans level) bound
  | continuationConditional opens divides =>
      obtain ⟨_, _, _, alternate, _⟩ := components
      obtain ⟨_, stops⟩ := alternate (by decide)
      simp only [Phrase.Leveled, Item.tokensOf, Token.endOf_cons, Token.endOf_append, List.append_nil]
      refine ⟨Nat.min_le_left _ _, stops.precedes fun following loose => ?_⟩
      exact (following.leftPrecedence_le.trans loose).trans (Nat.le_succ 2)
  | continuationBinary opens isBinary target =>
      obtain ⟨_, right, _⟩ := components
      obtain ⟨_, stops⟩ := right (rightPrecedence_le_of_isBinary opens isBinary)
      simp only [Phrase.Leveled, Item.tokensOf, Token.endOf_cons, List.append_nil]
      refine ⟨Nat.min_le_left _ _, stops.precedes fun following loose => ?_⟩
      exact Operator.leftPrecedence_le_precedence loose
  | continuationCall =>
      refine ⟨by simp [Expr.level, Operator.precedence, prefixPrecedence], .of_level ?_⟩
      simp [Expr.level, prefixPrecedence]
  | continuationAccess isAccess =>
      obtain ⟨access, _⟩ := components
      exact ⟨(Nat.min_le_right _ _).trans access, .of_level access⟩
  | _ => simp [Phrase.Leveled, Expr.level, prefixPrecedence]

/-- Whatever parses has the level that its place asks for, by induction on the derivation. -/
theorem Parses.leveled {nonterminal : Nonterminal}
    (derivation : Parses script nonterminal offset tokens)
    : nonterminal.Leveled script offset tokens := by
  refine derivation.induction
    (motive := fun nonterminal offset tokens => nonterminal.Leveled script offset tokens) ?_
  intro nonterminal items offset rule components
  cases rule with
  | expression rule => exact rule.leveled (components.mono fun _ _ _ holds => holds.2)
  | statement rule => cases rule <;> trivial
  | repetition rule => cases rule <;> trivial

-----------------------------------------------------------------------------------------
-- All expressions
-----------------------------------------------------------------------------------------

/-- The expressions that are made by a phrase, apart from those that it is given. -/
def Phrase.nodes : Phrase → List Expr
  | expression _ _ value | operand _ value | primary value | condition _ value => Nodes.ofExpr value
  | operators .. | continuation .. | access .. | accesses .. | statementEnd | jumpLabel _ => []
  | arguments value => Nodes.ofArguments value
  | elements values => Nodes.ofElements values
  | member value => Nodes.ofMember value
  | function value => Nodes.ofFunc value
  | parameter _ => []
  | body value => Nodes.ofBody value
  | statement _ value => Nodes.ofStmt value
  | restrictedOperand _ value | branchTest _ value | forClause _ _ value =>
      Nodes.ofOptionalExpr value
  | block _ value => Nodes.ofBlock value
  | declaration _ _ value => Nodes.ofDeclaration value
  | declarator _ value => Nodes.ofDeclarator value
  | initializer _ value => Nodes.ofInitializer value
  | handler _ value => Nodes.ofHandler value
  | branch _ value => Nodes.ofBranch value
  | forStart value => Nodes.ofForStart value
  | forInTarget value => Nodes.ofForInTarget value

/-- All expressions in the list group as they should. -/
def AllGrouped (nodes : List Expr) : Prop :=
  ∀ node ∈ nodes, node.WellGrouped

@[simp]
theorem allGrouped_nil : AllGrouped [] := by
  simp [AllGrouped]

@[simp]
theorem allGrouped_cons {node : Expr} {nodes : List Expr}
    : AllGrouped (node :: nodes) ↔ node.WellGrouped ∧ AllGrouped nodes := by
  simp [AllGrouped]

@[simp]
theorem allGrouped_append {first second : List Expr}
    : AllGrouped (first ++ second) ↔ AllGrouped first ∧ AllGrouped second := by
  simp only [AllGrouped, List.mem_append, or_imp, forall_and]

theorem allGrouped_flatMap {α : Type} {values : List α} {nodes : α → List Expr}
    : AllGrouped (values.flatMap nodes) ↔ ∀ value ∈ values, AllGrouped (nodes value) := by
  induction values with
  | nil => simp
  | cons value rest ih => simp [ih]

/-- The expressions that are made by a phrase group as they should, if those that it is given do and are
tight enough to be its left operands.
-/
def Phrase.Grouped (script : Script) (offset : Nat) : Phrase → Prop
  | operators inAllowed _ left value =>
      AllGrouped (Nodes.ofExpr left) →
      Precedes script inAllowed left offset →
      AllGrouped (Nodes.ofExpr value)
  | continuation _ operator left value =>
      AllGrouped (Nodes.ofExpr left) →
      (operator.precedence < prefixPrecedence → operator.leftPrecedence ≤ left.level) →
      AllGrouped (Nodes.ofExpr value)
  | access _ object value | accesses object value =>
      AllGrouped (Nodes.ofExpr object) → AllGrouped (Nodes.ofExpr value)
  | phrase => AllGrouped phrase.nodes

def Nonterminal.Grouped (script : Script) (offset : Nat) : Nonterminal → Prop
  | phrase inner => inner.Grouped script offset
  | list _ phrases | listTail _ phrases | looseList _ phrases | separated phrases
  | repeated _ phrases => ∀ phrase ∈ phrases, AllGrouped phrase.nodes
  | afterKeyword _ phrase? => ∀ phrase ∈ phrase?, AllGrouped phrase.nodes

/-- What a phrase makes groups as it should, whatever it is given. -/
theorem Phrase.Grouped.nodes {phrase : Phrase} (grouped : phrase.Grouped script offset)
    : AllGrouped phrase.nodes := by
  cases phrase <;> first | exact grouped | exact allGrouped_nil

/-- Items that are repeated group as they should one by one. -/
theorem RepetitionRule.grouped {nonterminal : Nonterminal}
    (rule : RepetitionRule nonterminal items)
    (components
      : Components script
          (fun part offset tokens =>
            Parses script part offset tokens ∧ part.Grouped script offset) items offset)
    : nonterminal.Grouped script offset := by
  cases rule with
  | listNone | listTailNone | looseListNone | repeatedNone | afterKeywordNone =>
      simp [Nonterminal.Grouped]
  | looseListLast =>
      obtain ⟨_, ⟨_, only⟩, _⟩ := components
      simpa [Nonterminal.Grouped] using only.nodes
  | separatedLast =>
      obtain ⟨⟨_, only⟩, _⟩ := components
      simpa [Nonterminal.Grouped] using only.nodes
  | afterKeywordSome =>
      obtain ⟨_, ⟨_, only⟩, _⟩ := components
      simpa [Nonterminal.Grouped] using only.nodes
  | listMore | listTailMore | repeatedMore =>
      obtain ⟨_, ⟨_, first⟩, ⟨_, rest⟩, _⟩ := components
      exact List.forall_mem_cons.mpr ⟨first.nodes, rest⟩
  | looseListMore =>
      obtain ⟨_, ⟨_, first⟩, _, ⟨_, rest⟩, _⟩ := components
      exact List.forall_mem_cons.mpr ⟨first.nodes, rest⟩
  | separatedMore =>
      obtain ⟨⟨_, first⟩, _, ⟨_, rest⟩, _⟩ := components
      exact List.forall_mem_cons.mpr ⟨first.nodes, rest⟩

/-- What a production of expressions makes groups as it should. A left operand is tight enough, because
the loop did not stop in front of the operator.
-/
theorem ExpressionRule.grouped {phrase : Phrase} (rule : ExpressionRule script span phrase items)
    (components
      : Components script
          (fun part offset tokens =>
            Parses script part offset tokens ∧ part.Grouped script offset) items offset)
    : phrase.Grouped script offset := by
  cases rule with
  | expression =>
      obtain ⟨⟨derived, operand⟩, ⟨_, operators⟩, _⟩ := components
      exact operators operand (.of_level derived.leveled)
  | operatorsNone => exact fun left _ => left
  | operatorsUpdate updates binds target =>
      obtain ⟨_, ⟨_, rest⟩, _⟩ := components
      intro left _
      refine rest ?_ (.of_level (by simp [Expr.level, prefixPrecedence]))
      simpa [Nodes.ofExpr, Expr.WellGrouped, target] using left
  | operatorsMore noUpdate opens binds allowed =>
      obtain ⟨⟨read, _⟩, ⟨derived, continuation⟩, ⟨_, rest⟩, _⟩ := components
      intro left precedes
      refine rest (continuation left ?_) derived.leveled.2
      exact precedes _ _ read noUpdate opens allowed
  | continuationBinary opens isBinary target =>
      obtain ⟨_, ⟨derived, right⟩, _⟩ := components
      obtain ⟨loose, groups⟩ := associativity_of_isBinary opens isBinary
      obtain ⟨level, _⟩ := derived.leveled (rightPrecedence_le_of_isBinary opens isBinary)
      intro left precedes
      have precedes := precedes loose
      simp only [Nodes.ofExpr, allGrouped_cons, allGrouped_append]
      refine ⟨⟨groups, fun isLeft => ?_, fun isAssignment => ⟨target isAssignment, ?_⟩⟩, left, right⟩
      · rw [Operator.leftPrecedence_of_left isLeft] at precedes
        rw [Operator.rightPrecedence_of_left isLeft] at level
        exact ⟨precedes, level⟩
      · exact (Operator.assignmentPrecedence_le_rightPrecedence _).trans level
  | continuationConditional opens divides =>
      obtain ⟨_, ⟨derivedFirst, consequent⟩, _, ⟨derivedLast, alternate⟩, _⟩ := components
      obtain ⟨levelFirst, _⟩ := derivedFirst.leveled (by decide)
      obtain ⟨levelLast, _⟩ := derivedLast.leveled (by decide)
      intro left precedes
      simp only [Nodes.ofExpr, allGrouped_cons, allGrouped_append]
      exact ⟨⟨precedes (by decide), levelFirst, levelLast⟩, ⟨left, consequent⟩, alternate⟩
  | continuationCall =>
      obtain ⟨⟨_, arguments⟩, _⟩ := components
      intro left _
      simp only [Nodes.ofExpr, allGrouped_cons, allGrouped_append]
      exact ⟨trivial, left, arguments⟩
  | continuationAccess =>
      obtain ⟨⟨_, access⟩, _⟩ := components
      exact fun left _ => access left
  | accessMember =>
      intro object
      simpa [Nodes.ofExpr, Expr.WellGrouped] using object
  | accessIndex =>
      obtain ⟨_, ⟨_, key⟩, _⟩ := components
      intro object
      simp only [Nodes.ofExpr, allGrouped_cons, allGrouped_append]
      exact ⟨trivial, object, key⟩
  | accessesNone => exact id
  | accessesMore =>
      obtain ⟨_, ⟨_, access⟩, ⟨_, rest⟩, _⟩ := components
      exact fun object => rest (access object)
  | operandPlain => exact components.1.2
  | operandPrefixed opens target =>
      obtain ⟨_, ⟨derived, argument⟩, _⟩ := components
      have bound := rightPrecedence_of_prefixOperator? opens
      obtain ⟨level, _⟩ := derived.leveled bound.le
      simp only [Phrase.Grouped, Phrase.nodes, Nodes.ofExpr, allGrouped_cons]
      exact ⟨bound.ge.trans level, argument⟩
  | object =>
      obtain ⟨_, ⟨_, members⟩, _⟩ := components
      simpa [Phrase.Grouped, Phrase.nodes, Nodes.ofExpr, Nodes.ofMembers_eq_flatMap,
        allGrouped_flatMap, Expr.WellGrouped, Nonterminal.Grouped] using members
  | construct =>
      obtain ⟨_, ⟨_, head⟩, ⟨_, accesses⟩, _, ⟨_, arguments⟩, _⟩ := components
      simp only [Phrase.Grouped, Phrase.nodes, Nodes.ofExpr, allGrouped_cons, allGrouped_append]
      exact ⟨trivial, accesses head, arguments⟩
  | constructBare =>
      obtain ⟨_, ⟨_, head⟩, ⟨_, accesses⟩, _⟩ := components
      simp only [Phrase.Grouped, Phrase.nodes, Nodes.ofExpr, Nodes.ofArguments, Nodes.ofExprs,
        allGrouped_cons, allGrouped_append, allGrouped_nil]
      exact ⟨trivial, accesses head, trivial⟩
  | arguments opens =>
      obtain ⟨_, ⟨_, values⟩, _⟩ := components
      simpa [Phrase.Grouped, Phrase.nodes, Nodes.ofArguments, Nodes.ofExprs_eq_flatMap,
        allGrouped_flatMap, Nonterminal.Grouped] using values
  | body opens closes =>
      obtain ⟨_, ⟨_, statements⟩, _⟩ := components
      simpa [Phrase.Grouped, Phrase.nodes, Nodes.ofBody, Nodes.ofStmts_eq_flatMap,
        allGrouped_flatMap, Nonterminal.Grouped] using statements
  | _ =>
      simp_all [Components, Nonterminal.Grouped, Phrase.Grouped, Phrase.nodes, Nodes.ofExpr,
        Nodes.ofElements, Nodes.ofMember, Nodes.ofFunc, Expr.WellGrouped]

/-- What a production of statements makes groups as it should, given that its parts do. -/
theorem StatementRule.grouped {phrase : Phrase} (rule : StatementRule script span phrase items)
    (components
      : Components script
          (fun part offset tokens =>
            Parses script part offset tokens ∧ part.Grouped script offset) items offset)
    : phrase.Grouped script offset := by
  cases rule with
  | blockOf =>
      obtain ⟨_, ⟨_, statements⟩, _⟩ := components
      simpa [Phrase.Grouped, Phrase.nodes, Nodes.ofBlock, Nodes.ofStmts_eq_flatMap,
        allGrouped_flatMap, Nonterminal.Grouped] using statements
  | declarationStatement | declarationHeader =>
      obtain ⟨_, ⟨_, declarators⟩, _⟩ := components
      simpa [Phrase.Grouped, Phrase.nodes, Nodes.ofDeclaration, Nodes.ofDeclarators_eq_flatMap,
        allGrouped_flatMap, Nonterminal.Grouped] using declarators
  | switch =>
      obtain ⟨_, ⟨_, test⟩, _, ⟨_, branches⟩, _⟩ := components
      simp only [Phrase.Grouped, Phrase.nodes, Nodes.ofStmt, Nodes.ofBranches_eq_flatMap,
        allGrouped_flatMap, allGrouped_append]
      exact ⟨test, by simpa [Nonterminal.Grouped, Phrase.nodes] using branches⟩
  | branch =>
      obtain ⟨⟨_, test⟩, _, ⟨_, body⟩, _⟩ := components
      simp only [Phrase.Grouped, Phrase.nodes, Nodes.ofBranch, Nodes.ofStmts_eq_flatMap,
        allGrouped_flatMap, allGrouped_append]
      exact ⟨test, by simpa [Nonterminal.Grouped, Phrase.nodes] using body⟩
  | tryBlock =>
      obtain ⟨_, ⟨_, block⟩, ⟨_, handler⟩, ⟨_, finalizer⟩, _⟩ := components
      simp only [Phrase.Grouped, Phrase.nodes, Nodes.ofStmt, Nodes.ofOptionalHandler_eq_flatMap,
        Nodes.ofOptionalBlock_eq_flatMap, allGrouped_flatMap, allGrouped_append]
      refine ⟨⟨block, ?_⟩, ?_⟩
      · simpa [Nonterminal.Grouped, Phrase.nodes] using handler
      · simpa [Nonterminal.Grouped, Phrase.nodes] using finalizer
  | _ =>
      simp_all [Components, Nonterminal.Grouped, Phrase.Grouped, Phrase.nodes, Nodes.ofStmt,
        Nodes.ofOptionalStmt, Nodes.ofOptionalExpr, Nodes.ofOptionalInitializer, Nodes.ofInitializer,
        Nodes.ofDeclarator, Nodes.ofHandler, Nodes.ofForStart, Nodes.ofForInTarget]

/-- Whatever parses groups as it should, by induction on the derivation. -/
theorem Parses.grouped {nonterminal : Nonterminal}
    (derivation : Parses script nonterminal offset tokens)
    : nonterminal.Grouped script offset := by
  refine derivation.induction
    (motive := fun nonterminal offset _ => nonterminal.Grouped script offset) ?_
  intro nonterminal items offset rule components
  cases rule with
  | expression rule => exact rule.grouped components
  | statement rule => exact rule.grouped components
  | repetition rule => exact rule.grouped components

end Grammar

/-- Every expression of a program that is parsed, at any depth, groups as the precedence and the
associativity of its operators ask.
-/
theorem Program.wellGrouped_of_parse {source : List Char} {dialect : Dialect} {program : Program}
    (parsed : Program.parse source dialect = .ok program)
    : ∀ node ∈ program.nodes, node.WellGrouped := by
  obtain ⟨after, ran⟩ := Program.parse_eq_ok.mp parsed
  obtain ⟨tokens, last, _, holds, _⟩ := program_sound (ParserState.shows_ofSource source dialect) ran
  have grouped := holds.statements.grouped
  rw [Program.nodes, Nodes.ofStmts_eq_flatMap]
  exact allGrouped_flatMap.mpr (by simpa [Nonterminal.Grouped, Phrase.nodes] using grouped)

/-- Operators of both associativities, in front of, between and behind operands. -/
theorem Program.wellGrouped_of_parse_assignment
    : ∃ program,
        Program.parse "x = -a - b * c ? d : e++, f".toList .ecma = .ok program
        ∧ program.nodes.length = 14
        ∧ ∀ node ∈ program.nodes, node.WellGrouped := by
  have counted
      : (Program.parse "x = -a - b * c ? d : e++, f".toList .ecma).toOption.map
            (fun program => program.nodes.length)
          = some 14 := by
    decide +kernel
  cases parsed : Program.parse "x = -a - b * c ? d : e++, f".toList .ecma with
  | error failure =>
      rw [parsed] at counted
      cases counted
  | ok program =>
      rw [parsed] at counted
      exact ⟨program, rfl, Option.some.inj counted, Program.wellGrouped_of_parse parsed⟩

end EcmaSyntax
