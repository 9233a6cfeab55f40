import EcmaSyntax.Proofs.Grammar.Nesting

/-! Trees without `const` declarations. A derivation of such a tree is one in both dialects, for the
productions of declarations are the only ones that the dialect is part of.
-/

namespace EcmaSyntax

open EcmaSyntax.Grammar

/-- No declaration at the node or below it declares constants. -/
def Node.ConstFree (node : Node) : Prop :=
  ∀ declaration, node.Within (.declaration declaration) → declaration.mode ≠ .constants

/-- Where a tree has no `const`, no tree in it has one. -/
theorem Node.ConstFree.within {root node : Node} (free : root.ConstFree)
    (within : root.Within node)
    : node.ConstFree :=
  fun declaration below => free declaration (below.trans within)

/-- Each of the nodes is at one of the roots or below it. -/
def Node.Cover (roots nodes : List Node) : Prop :=
  ∀ node ∈ nodes, ∃ root ∈ roots, root.Within node

namespace Node.Cover

variable {roots nodes : List Node} {root : Node}

theorem of_subset (among : nodes ⊆ roots) : Cover roots nodes :=
  fun node member => ⟨node, among member, .self⟩

/-- The children of a node are below it. -/
theorem of_children (below : nodes ⊆ root.children) : Cover [root] nodes :=
  fun _ member => ⟨root, List.mem_singleton_self root, .child .self (below member)⟩

theorem cons {node : Node} (first : ∃ root ∈ roots, root.Within node) (rest : Cover roots nodes)
    : Cover roots (node :: nodes) :=
  List.forall_mem_cons.mpr ⟨first, rest⟩

/-- What is covered by trees without `const` has none. -/
theorem constFree (cover : Cover roots nodes) (free : ∀ root ∈ roots, root.ConstFree)
    : ∀ node ∈ nodes, node.ConstFree := by
  intro node member
  obtain ⟨root, among, within⟩ := cover node member
  exact (free root among).within within

end Node.Cover

namespace Grammar

-----------------------------------------------------------------------------------------
-- What a production makes of the results of its parts
-----------------------------------------------------------------------------------------

/-- The nodes that a phrase results in, those among them that are parts of a chain included. -/
def Phrase.results : Phrase → List Node
  | operand _ value | primary value | operators _ _ _ value | continuation _ _ _ value
  | access _ _ value | accesses _ value => [.expression value]
  | phrase => phrase.constituents

def Nonterminal.results : Nonterminal → List Node
  | phrase inner => inner.results
  | list _ phrases | listTail _ phrases | looseList _ phrases | separated phrases
  | repeated _ phrases => phrases.flatMap Phrase.results
  | afterKeyword _ phrase? => phrase?.toList.flatMap Phrase.results

/-- What operators and properties are applied to is in the expression that they make. -/
def Phrase.KeepsLeft : Phrase → Prop
  | operators _ _ left value | continuation _ _ left value | access _ left value
  | accesses left value => (Node.expression value).Within (.expression left)
  | _ => True

def Nonterminal.KeepsLeft : Nonterminal → Prop
  | phrase inner => inner.KeepsLeft
  | _ => True

/-- The results of all parts satisfy the condition, and these keep what they are applied to. -/
def Item.PartsKeepLeft : List Item → Prop
  | [] => True
  | .token _ :: items | .regex _ :: items | .ahead _ :: items => PartsKeepLeft items
  | .part nonterminal _ :: items => nonterminal.KeepsLeft ∧ PartsKeepLeft items

/-- The nodes that the parts of a production result in. -/
def Item.results : List Item → List Node
  | [] => []
  | .token _ :: items | .regex _ :: items | .ahead _ :: items => results items
  | .part nonterminal _ :: items => nonterminal.results ++ results items

variable {script : Script} {span : Span} {phrase : Phrase} {nonterminal : Nonterminal}
variable {items : List Item} {offset : Nat} {tokens : List Token}

/-- A production of expressions keeps what operators are applied to, if its parts do. -/
theorem ExpressionRule.keepsLeft (rule : ExpressionRule script span phrase items)
    (parts : Item.PartsKeepLeft items)
    : phrase.KeepsLeft := by
  cases rule with
  | operatorsNone | accessesNone => exact .self
  | operatorsUpdate =>
      exact Node.Within.trans (.child .self (List.mem_singleton_self _)) parts.1
  | operatorsMore | accessesMore => exact parts.1.trans parts.2.1
  | continuationAccess => exact parts.1
  | continuationCall | continuationConditional | continuationBinary | accessMember
  | accessIndex =>
      exact .child .self List.mem_cons_self
  | _ => trivial

/-- Only productions of expressions apply anything, so every production keeps it. -/
theorem Rule.keepsLeft (rule : Rule script span nonterminal items)
    (parts : Item.PartsKeepLeft items)
    : nonterminal.KeepsLeft := by
  cases rule with
  | expression rule => exact rule.keepsLeft parts
  | statement rule => cases rule <;> trivial
  | repetition rule => cases rule <;> trivial

/-- A result of a part is a result of the production, or lies below one. -/
theorem ExpressionRule.cover_results (rule : ExpressionRule script span phrase items)
    (parts : Item.PartsKeepLeft items)
    : Node.Cover phrase.results (Item.results items) := by
  cases rule with
  | expression | operatorsMore | accessesMore =>
      rintro node (_ | ⟨_, _ | ⟨_, none⟩⟩)
      · exact ⟨_, List.mem_singleton_self _, parts.2.1⟩
      · exact ⟨_, List.mem_singleton_self _, .self⟩
      · cases none
  | construct | constructBare =>
      -- The operand of `new` is in the expression that its properties make.
      refine Node.Cover.cons ⟨_, List.mem_singleton_self _, ?_⟩ (.of_children ?_)
      · exact parts.2.1.trans (.child .self List.mem_cons_self)
      · simp [Item.results, Nonterminal.results, Phrase.results, Phrase.constituents,
          Node.children, Expr.children]
  | operandPlain | operatorsUpdate | continuationAccess | elementsNone | elementsHole
  | elementsLast | elementsMore =>
      refine .of_subset ?_
      simp [Item.results, Nonterminal.results, Phrase.results, Phrase.constituents,
        Element.children]
  | _ =>
      refine .of_children ?_
      simp [Item.results, Nonterminal.results, Phrase.results, Phrase.constituents,
        Node.children, Expr.children, Member.children, List.flatMap_map, ← List.map_eq_flatMap]

/-- What the parts of a statement result in lies below the statement. -/
theorem StatementRule.cover_results (rule : StatementRule script span phrase items)
    : Node.Cover phrase.results (Item.results items) := by
  cases phrase with
  | statement | block | declaration | initializer | handler | branch =>
      cases rule <;>
      · refine .of_children ?_
        simp [Item.results, Nonterminal.results, Phrase.results, Phrase.constituents,
          Node.children, Stmt.children, Option.toList_map, List.flatMap_map,
          ← List.map_eq_flatMap]
  | _ =>
      cases rule <;>
      · refine .of_subset ?_
        simp [Item.results, Nonterminal.results, Phrase.results, Phrase.constituents,
          Declarator.children, ForStart.children, ForInTarget.children]

/-- The items of a repetition are its results. -/
theorem RepetitionRule.cover_results (rule : RepetitionRule nonterminal items)
    : Node.Cover nonterminal.results (Item.results items) := by
  cases rule <;> exact .of_subset (by simp [Item.results, Nonterminal.results])

/-- What the parts of a production result in lies below what the production results in. -/
theorem Rule.cover_results (rule : Rule script span nonterminal items)
    (parts : Item.PartsKeepLeft items)
    : Node.Cover nonterminal.results (Item.results items) := by
  cases rule with
  | expression rule => exact rule.cover_results parts
  | statement rule => exact rule.cover_results
  | repetition rule => exact rule.cover_results

-----------------------------------------------------------------------------------------
-- Derivations in another dialect
-----------------------------------------------------------------------------------------

variable {source : List Char} {dialect other : Dialect}

/-- The mode of a declaration without constants is the same in all dialects. -/
theorem declarationMode?_inDialect {kind : Kind} {mode : DeclarationMode}
    (declares : Script.declarationMode? { source, dialect } kind = some mode)
    (free : mode ≠ .constants)
    : Script.declarationMode? { source, dialect := other } kind = some mode := by
  unfold Script.declarationMode? at declares ⊢
  split_ifs at declares with reserved isConst isVar
  · exact absurd (Option.some.inj declares).symm free
  · subst isVar
    exact declares

/-- No production of expressions asks for the dialect. -/
theorem ExpressionRule.inDialect (rule : ExpressionRule { source, dialect } span phrase items)
    : ExpressionRule { source, dialect := other } span phrase items := by
  cases rule <;> constructor <;> assumption

/-- Productions of statements ask for the dialect where a declaration has its mode. Without a `const`
the mode is the same.
-/
theorem StatementRule.inDialect (rule : StatementRule { source, dialect } span phrase items)
    (free : ∀ root ∈ phrase.results, root.ConstFree)
    : StatementRule { source, dialect := other } span phrase items := by
  cases rule with
  | declarationStatement declares =>
      have vars := free _ (List.mem_singleton_self _) _ .self
      exact .declarationStatement (declarationMode?_inDialect declares vars)
  | declarationHeader declares =>
      have vars := free _ (List.mem_singleton_self _) _ .self
      exact .declarationHeader (declarationMode?_inDialect declares vars)
  | _ => constructor <;> assumption

/-- A production is one in all dialects, unless it is a `const` declaration. -/
theorem Rule.inDialect (rule : Rule { source, dialect } span nonterminal items)
    (free : ∀ root ∈ nonterminal.results, root.ConstFree)
    : Rule { source, dialect := other } span nonterminal items := by
  cases rule with
  | expression rule => exact .expression rule.inDialect
  | statement rule => exact .statement (rule.inDialect free)
  | repetition rule => exact .repetition rule

/-- A part keeps what it is applied to, and parses in the dialect too if its results have no `const`. -/
def Nonterminal.Carries (source : List Char) (dialect : Dialect) (nonterminal : Nonterminal)
    (offset : Nat) (tokens : List Token)
    : Prop :=
  nonterminal.KeepsLeft
  ∧ ((∀ root ∈ nonterminal.results, root.ConstFree) →
      Parses { source, dialect } nonterminal offset tokens)

/-- Each part of a production keeps what it is applied to. -/
theorem Components.partsKeepLeft
    (components : Components script (Nonterminal.Carries source other) items offset)
    : Item.PartsKeepLeft items := by
  induction items generalizing offset with
  | nil => trivial
  | cons item items ih =>
      cases item with
      | token | regex | ahead => exact ih components.2
      | part => exact ⟨components.1.1, ih components.2⟩

/-- Tokens are read alike in both dialects. -/
theorem readsAhead_inDialect (reads : Script.ReadsAhead { source, dialect } offset tokens)
    : Script.ReadsAhead { source, dialect := other } offset tokens := by
  induction tokens generalizing offset with
  | nil => trivial
  | cons token rest ih => exact ⟨reads.1, ih reads.2⟩

/-- The components of a production are the same in the other dialect, one after the other. -/
theorem Components.sequence_inDialect
    (components : Components { source, dialect } (Nonterminal.Carries source other) items offset)
    (free : ∀ node ∈ Item.results items, node.ConstFree)
    : Sequence { source, dialect := other } (Parses { source, dialect := other }) items offset := by
  induction items generalizing offset with
  | nil => exact .nil
  | cons item items ih =>
      cases item with
      | token => exact .token components.1 (ih components.2 free)
      | regex => exact .regex components.1 (ih components.2 free)
      | ahead => exact .ahead (readsAhead_inDialect components.1) (ih components.2 free)
      | part =>
          obtain ⟨freeFirst, freeRest⟩ := List.forall_mem_append.mp free
          exact .part (components.1.2 freeFirst) (ih components.2 freeRest)

/-- A derivation whose results have no `const` is one in every dialect. -/
theorem Parses.inDialect (derivation : Parses { source, dialect } nonterminal offset tokens)
    (free : ∀ root ∈ nonterminal.results, root.ConstFree) (other : Dialect)
    : Parses { source, dialect := other } nonterminal offset tokens := by
  refine (derivation.induction (motive := Nonterminal.Carries source other) ?_).2 free
  intro nonterminal items offset rule components
  have components := components.mono fun _ _ _ holds => holds.2
  have parts := components.partsKeepLeft
  refine ⟨rule.keepsLeft parts, fun free => ?_⟩
  exact .of_rule (rule.inDialect free)
    (components.sequence_inDialect ((rule.cover_results parts).constFree free))

end Grammar

/-- A text whose program has no `const` declaration is parsed to it in every dialect. -/
theorem Program.parse_inDialect {source : List Char} {dialect : Dialect} {program : Program}
    (parsed : parse source dialect = .ok program) (free : (Node.program program).ConstFree)
    (other : Dialect)
    : parse source other = .ok program := by
  obtain ⟨⟨last, holds⟩, span⟩ := holds_of_parse parsed
  have results
      : ∀ root ∈ (program.body.map (Phrase.statement true)).flatMap Phrase.results,
          root.ConstFree := by
    intro root member
    refine free.within (.child .self ?_)
    simpa [Node.children, List.flatMap_map, ← List.map_eq_flatMap, Phrase.results,
      Phrase.constituents] using member
  have statements := holds.statements.inDialect results other
  rw [parse_of_holds ⟨statements, holds.read, holds.ends⟩, ← span]

/-- In the dialect without `const` no program has a `const` declaration. -/
theorem Program.constFree_of_parse {source : List Char} {program : Program}
    (parsed : parse source .ecma = .ok program)
    : (Node.program program).ConstFree := by
  intro declaration within isConst
  have located := located_of_parse parsed within
  cases located with | parsed placed => ?_
  cases placed with | declaration derivation => ?_
  obtain ⟨items, rfl, rule, _⟩ := derivation.statement_components rfl
  cases rule with
  | declarationStatement declares | declarationHeader declares =>
      obtain rfl := isConst
      unfold Script.declarationMode? at declares
      split_ifs at declares with reserved isConst isVar
      · exact reserved (by rw [isConst]; rfl)
      · cases declares

end EcmaSyntax
