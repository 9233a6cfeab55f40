import EcmaSyntax.Proofs.Grammar.Consumed
import EcmaSyntax.Proofs.Grammar.Locations

/-! Spans nest. The nodes right below a node have tokens of their own among those of the node, so that
their spans lie in its span and apart from each other. The one node without tokens is that of the
arguments of a `new` without parentheses.
-/

namespace EcmaSyntax

open EcmaSyntax.Grammar

variable {script : Script} {offset : Nat} {tokens front back : List Token} {nodes : List Node}

namespace Span

/-- The first span lies in the second. -/
def Inside (first second : Span) : Prop :=
  second.start ≤ first.start ∧ first.stop ≤ second.stop

/-- The first span ends before the second begins. -/
def Precedes (first second : Span) : Prop :=
  first.stop ≤ second.start

/-- Neither span has a byte of the other. -/
def Apart (first second : Span) : Prop :=
  first.stop ≤ second.start ∨ second.stop ≤ first.start

/-- Being apart goes both ways. -/
theorem Apart.symm {first second : Span} (apart : first.Apart second) : second.Apart first :=
  Or.symm apart

end Span

namespace Token

/-- The span of some tokens begins where one of them does. -/
theorem exists_start_spanOf (present : tokens ≠ [])
    : ∃ first ∈ tokens, first.span.start = (spanOf tokens).start := by
  obtain ⟨token, rest, rfl⟩ := List.exists_cons_of_ne_nil present
  exact ⟨token, List.mem_cons_self, rfl⟩

/-- The span of some tokens ends where one of them does. -/
theorem exists_stop_spanOf (present : tokens ≠ [])
    : ∃ last ∈ tokens, last.span.stop = (spanOf tokens).stop := by
  obtain ⟨token, rest, rfl⟩ := List.exists_cons_of_ne_nil present
  refine ⟨_, List.getElem_mem (Nat.lt_succ_self rest.length), ?_⟩
  rw [stop_getElem_length]
  rfl

end Token

-----------------------------------------------------------------------------------------
-- Nodes among the tokens of a node
-----------------------------------------------------------------------------------------

/-- Tokens among others in a row span a part of what the others span. -/
theorem Script.Consumes.spanOf_inside {inner : List Token}
    (consumes : script.Consumes offset (front ++ inner ++ back)) (present : inner ≠ [])
    : (Token.spanOf inner).Inside (Token.spanOf (front ++ inner ++ back)) := by
  obtain ⟨consumesUpTo, consumesBack⟩ := Script.consumes_append.mp consumes
  obtain ⟨consumesFront, consumesInner⟩ := Script.consumes_append.mp consumesUpTo
  have whole := consumes.spanOf (by simp [present])
  have bounds := consumesInner.spanOf present
  have further := consumesBack.le_endOf
  simp only [Token.endOf_append] at whole further
  refine ⟨?_, by omega⟩
  cases front with
  | nil =>
      obtain ⟨token, inner, rfl⟩ := List.exists_cons_of_ne_nil present
      exact Nat.le_refl _
  | cons token front =>
      have first := consumesFront.spanOf (List.cons_ne_nil _ _)
      have starts
          : (Token.spanOf (token :: front ++ inner ++ back)).start
            = (Token.spanOf (token :: front)).start :=
        rfl
      omega

namespace Node.Spread

/-- Each of the nodes has tokens of its own among the tokens. -/
theorem parsed_of_mem (spread : Spread script offset tokens nodes) {node : Node}
    (member : node ∈ nodes)
    : ∃ start inner, node.Parsed script start inner ∧ inner <:+: tokens := by
  induction spread with
  | nil => cases member
  | token _ ih =>
      obtain ⟨start, inner, parsed, among⟩ := ih member
      exact ⟨start, inner, parsed, among.trans (List.suffix_cons _ _).isInfix⟩
  | node parsed _ ih =>
      rcases List.mem_cons.mp member with rfl | member
      · exact ⟨_, _, parsed, (List.prefix_append _ _).isInfix⟩
      · obtain ⟨start, inner, parsed, among⟩ := ih member
        exact ⟨start, inner, parsed, among.trans (List.suffix_append _ _).isInfix⟩

/-- The nodes begin at or after the offset. -/
theorem le_start (spread : Spread script offset tokens nodes)
    (consumes : script.Consumes offset tokens)
    : ∀ node ∈ nodes, offset ≤ node.span.start := by
  induction spread with
  | nil => simp
  | token _ ih =>
      obtain ⟨read, present, consumes⟩ := consumes
      have bounds := read.start_lt_stop present
      intro node member
      have := ih consumes node member
      omega
  | node parsed _ ih =>
      have consumesRest := (Script.consumes_append.mp consumes).2
      have spans := parsed.spans
      have bounds := spans.consumes.spanOf spans.present
      rw [← spans.span_eq] at bounds
      rintro other (_ | ⟨_, member⟩)
      · exact bounds.1
      · have := ih consumesRest other member
        omega

/-- Each of the nodes ends before the next ones begin. -/
theorem precede (spread : Spread script offset tokens nodes)
    (consumes : script.Consumes offset tokens)
    : nodes.Pairwise fun first second => first.span.Precedes second.span := by
  induction spread with
  | nil => exact .nil
  | token _ ih => exact ih consumes.2.2
  | node parsed rest ih =>
      have consumesRest := (Script.consumes_append.mp consumes).2
      have spans := parsed.spans
      have bounds := spans.consumes.spanOf spans.present
      rw [← spans.span_eq] at bounds
      refine .cons (fun other member => ?_) (ih consumesRest)
      exact bounds.2.2.trans_le (rest.le_start consumesRest other member)

/-- The nodes lie apart from each other. -/
theorem apart (spread : Spread script offset tokens nodes)
    (consumes : script.Consumes offset tokens)
    : nodes.Pairwise fun first second => first.span.Apart second.span :=
  (spread.precede consumes).imp .inl

end Node.Spread

-----------------------------------------------------------------------------------------
-- The nodes below an expression
-----------------------------------------------------------------------------------------

/-- The arguments of a `new` without parentheses: none, at the end of what is constructed. -/
def Arguments.missing (constructor : Expr) : Arguments :=
  {
    span := Span.point constructor.span.stop
    values := []
  }

/-- The nodes right below a node, in the order of their text. -/
def Node.inTextOrder : Node → List Node
  | statement (.doWhile _ repeated condition) => [.statement repeated, .expression condition]
  | node => node.children

/-- In the order of the text there are the same nodes. Only a `do` statement lists them in another one. -/
theorem Node.perm_inTextOrder (node : Node) : node.inTextOrder.Perm node.children := by
  unfold inTextOrder
  split
  · exact .swap ..
  · exact .refl _

/-- The nodes that spread over the tokens of a node: those right below it, apart from the arguments of a
`new` without parentheses.
-/
inductive Node.Spreads : Node → List Node → Prop
  | inTextOrder {node : Node} : Spreads node node.inTextOrder
  | bare {span : Span} {constructor : Expr} (stop_eq : span.stop = constructor.span.stop)
    : Spreads (.expression (.construct span constructor (Arguments.missing constructor)))
        [.expression constructor]

theorem Node.Spreads.of_eq {node : Node} (same : nodes = node.inTextOrder) : node.Spreads nodes :=
  same ▸ .inTextOrder

namespace Grammar

variable {items : List Item} {span : Span} {inAllowed : Bool}

/-- The chain that is an operand without operators and the properties after it. -/
theorem chains_accesses {head constructor : Expr}
    (operand : Parses script (.phrase (.primary head)) offset front)
    (accesses
      : Parses script (.phrase (.accesses head constructor)) (Token.endOf offset front) back)
    : Chains script true offset (front ++ back) constructor := by
  have operand : Parses script (.phrase (.operand true head)) offset front :=
    .intro (.expression .operandPlain) (.part operand .nil) (List.append_nil _)
  exact accesses.spreads trivial _ _ (.operand operand) rfl

/-- The nodes below a primary expression spread over its tokens, by cases on its production. -/
theorem primary_children {value : Expr}
    (derivation : Parses script (.phrase (.primary value)) offset tokens)
    : ∃ nodes,
        Node.Spread script offset tokens nodes ∧ (Node.expression value).Spreads nodes := by
  obtain ⟨items, rfl, rule, components⟩ := derivation.expression_components rfl
  have allowed := rule.allowsIn
  cases rule with
  | construct =>
      obtain ⟨_, head, accesses, _, arguments, _⟩ := components
      have constructor := Node.Parsed.expression (chains_accesses head accesses)
      have arguments := (Node.Parsed.arguments arguments).spread_single
      rw [← Token.endOf_append] at arguments
      have spread : Node.Spread script offset _ _ :=
        .token (constructor.spread_single.append arguments)
      refine ⟨_, ?_, .of_eq rfl⟩
      simpa [Item.tokensOf, Node.inTextOrder, Node.children, Expr.children] using spread
  | constructBare =>
      obtain ⟨read, head, accesses, _, _⟩ := components
      have constructor := Node.Parsed.expression (chains_accesses head accesses)
      have spread : Node.Spread script offset _ _ := .token constructor.spread_single
      refine ⟨_, by simpa [Item.tokensOf] using spread, .bare ?_⟩
      -- The constructor stands behind the keyword, so that it ends last.
      have spans := (chains_accesses head accesses).spans
      have bounds := spans.consumes.spanOf spans.present
      rw [← spans.span_eq] at bounds
      exact Nat.max_eq_right (by omega)
  | _ =>
      refine ⟨_, components.spread allowed, .of_eq ?_⟩
      simp [Item.constituents, Nonterminal.constituents, Phrase.constituents, Node.inTextOrder,
        Node.children, Expr.children, List.flatMap_map, ← List.map_eq_flatMap]

/-- What continues a chain adds nodes behind those of the chain. -/
theorem continuation_children {operator : Operator} {left value : Expr}
    (derivation
      : Parses script (.phrase (.continuation inAllowed operator left value))
          (Token.endOf offset front) back)
    (chains : Chains script inAllowed offset front left)
    : ∃ nodes,
        Node.Spread script offset (front ++ back) nodes
        ∧ (Node.expression value).Spreads nodes := by
  have first := Node.Parsed.expression chains
  obtain ⟨items, rfl, rule, components⟩ := derivation.expression_components rfl
  have allowed := rule.allowsIn
  cases rule with
  | continuationAccess =>
      obtain ⟨access, _⟩ := components
      obtain ⟨items, rfl, rule, components⟩ := access.expression_components rfl
      have allowedInside := rule.allowsIn
      simp only [Item.tokensOf, List.append_nil]
      cases rule with
      | accessMember | accessIndex =>
          exact ⟨_, first.spread_single.append (components.spread allowedInside), .of_eq rfl⟩
  | _ => exact ⟨_, first.spread_single.append (components.spread allowed), .of_eq rfl⟩

/-- The nodes below an expression spread over its tokens, by cases on how its chain ends. -/
theorem Chains.children {value : Expr} (chains : Chains script inAllowed offset tokens value)
    : ∃ nodes,
        Node.Spread script offset tokens nodes ∧ (Node.expression value).Spreads nodes := by
  cases chains with
  | operand operand =>
      obtain ⟨items, rfl, rule, components⟩ := operand.expression_components rfl
      have allowed := rule.allowsIn
      cases rule with
      | operandPlain =>
          simpa [Item.tokensOf] using primary_children components.1
      | operandPrefixed => exact ⟨_, components.spread allowed, .of_eq rfl⟩
  | update chains =>
      have target := (Node.Parsed.expression chains).spread_single
      exact ⟨_, target.append (Node.spread_nil ..), .of_eq rfl⟩
  | more chains _ _ _ continuation => exact continuation_children continuation chains

/-- The nodes below a statement spread over its tokens, by cases on its production. -/
theorem statement_children {statement : Stmt}
    (derivation : Parses script (.phrase (.statement true statement)) offset tokens)
    : ∃ nodes,
        Node.Spread script offset tokens nodes ∧ (Node.statement statement).Spreads nodes := by
  obtain ⟨items, rfl, rule, components⟩ := derivation.statement_components rfl
  have allowed := rule.allowsIn rfl
  cases rule with
  | _ =>
      refine ⟨_, components.spread allowed, .of_eq ?_⟩
      simp [Item.constituents, Nonterminal.constituents, Phrase.constituents, Node.inTextOrder,
        Node.children, Stmt.children, List.flatMap_map, ← List.map_eq_flatMap, Option.toList_map]

end Grammar

/-- The nodes right below a node spread over its tokens. -/
theorem Node.Parsed.children {node : Node} (parsed : node.Parsed script offset tokens)
    : ∃ nodes, Spread script offset tokens nodes ∧ node.Spreads nodes := by
  cases parsed with
  | expression chains => exact chains.children
  | statement parses => exact statement_children parses
  | arguments parses | member parses | function parses | parameter parses | body parses
  | block parses | handler parses | branch parses | declaration parses | initializer parses =>
      obtain ⟨items, rfl, rule, components⟩ := parses.components
      refine ⟨_, components.spread (rule.allowsIn (by trivial)), .of_eq ?_⟩
      rcases rule with rule | rule | rule <;> cases rule <;>
        simp [Item.constituents, Nonterminal.constituents, Phrase.constituents, Node.inTextOrder,
          Node.children, Member.children, List.flatMap_map, ← List.map_eq_flatMap]

-----------------------------------------------------------------------------------------
-- The nodes of a program
-----------------------------------------------------------------------------------------

namespace Node

/-- The spans of the nodes right below the node lie in its span and apart from each other. -/
def Nests (node : Node) : Prop :=
  (∀ child ∈ node.children, child.span.Inside node.span)
  ∧ node.children.Pairwise fun first second => first.span.Apart second.span

/-- Spans nest in whatever order the nodes are listed. -/
theorem Nests.of_perm {node : Node} (perm : nodes.Perm node.children)
    (inside : ∀ child ∈ nodes, child.span.Inside node.span)
    (apart : nodes.Pairwise fun first second => first.span.Apart second.span)
    : node.Nests :=
  ⟨fun child below => inside child (perm.mem_iff.mpr below),
    (perm.pairwise_iff Span.Apart.symm).mp apart⟩

/-- The spans below a node that has tokens of its own nest, since the tokens follow each other. -/
theorem Parsed.nests {node : Node} (parsed : node.Parsed script offset tokens) : node.Nests := by
  have spans := parsed.spans
  have bounds := spans.consumes.spanOf spans.present
  obtain ⟨nodes, spread, spreads⟩ := parsed.children
  have inside : ∀ child ∈ nodes, child.span.Inside node.span := by
    intro child member
    obtain ⟨_, inner, among, front, back, rfl⟩ := spread.parsed_of_mem member
    rw [among.spans.span_eq, spans.span_eq]
    exact spans.consumes.spanOf_inside among.spans.present
  have apart := spread.apart spans.consumes
  rw [← spans.span_eq] at bounds
  cases spreads with
  | inTextOrder => exact .of_perm node.perm_inTextOrder inside apart
  | @bare span constructor stop_eq =>
      have start_le : span.start ≤ constructor.span.stop := stop_eq ▸ Nat.le_of_lt bounds.2.1
      refine ⟨?_, by simp [Node.children, Expr.children, Node.span, Span.Apart, Arguments.missing, Span.point]⟩
      rintro child (_ | ⟨_, _ | ⟨_, none⟩⟩)
      · exact inside _ (List.mem_singleton_self _)
      · exact ⟨start_le, Nat.le_of_eq stop_eq.symm⟩
      · cases none

/-- Where a node of a program comes from: it is the program itself, or has tokens of its own, or is the
arguments of a `new` without parentheses.
-/
inductive Located (script : Script) (tokens : List Token) (root : Node) : Node → Prop
  | root : Located script tokens root root
  | parsed {node : Node} {offset : Nat} {inner : List Token}
    (parsed : node.Parsed script offset inner) (among : inner <:+: tokens)
    : Located script tokens root node
  | missing {span : Span} {constructor : Expr}
    (within
      : root.Within
          (.expression (.construct span constructor (Arguments.missing constructor))))
    (stop_eq : span.stop = constructor.span.stop)
    : Located script tokens root (.arguments (Arguments.missing constructor))

end Node

namespace Program

variable {source : List Char} {dialect : Dialect} {program : Program}

/-- The statements of a parsed program spread over its tokens. -/
theorem spread_of_parse (parsed : parse source dialect = .ok program)
    : Node.Spread { source, dialect } 0 (Program.tokens source dialect)
        (Node.program program).children := by
  obtain ⟨⟨last, holds⟩, _⟩ := holds_of_parse parsed
  have allowed : ∀ phrase ∈ program.body.map (Phrase.statement true), phrase.AllowsIn := by
    simp [Phrase.AllowsIn]
  have spread := (holds.statements.spreads allowed).spread
  simp only [Nonterminal.constituents, List.flatMap_map, Phrase.constituents,
    ← List.map_eq_flatMap] at spread
  exact spread

/-- Every node of a parsed program is located. -/
theorem located_of_parse (parsed : parse source dialect = .ok program) {node : Node}
    (within : (Node.program program).Within node)
    : (Node.program program).Located { source, dialect } (Program.tokens source dialect) node := by
  induction within with
  | self => exact .root
  | @child parent child within below located =>
      cases located with
      | root =>
          obtain ⟨_, _, derived, inside⟩ := (spread_of_parse parsed).parsed_of_mem below
          exact .parsed derived inside
      | parsed derived among =>
          obtain ⟨nodes, spread, spreads⟩ := derived.children
          have of_mem (member : child ∈ nodes)
              : (Node.program program).Located { source, dialect } (Program.tokens source dialect)
                  child := by
            obtain ⟨_, _, derived, inside⟩ := spread.parsed_of_mem member
            exact .parsed derived (inside.trans among)
          cases spreads with
          | inTextOrder => exact of_mem (parent.perm_inTextOrder.mem_iff.mpr below)
          | bare stop_eq =>
              rcases below with _ | ⟨_, _ | ⟨_, none⟩⟩
              · exact of_mem (List.mem_singleton_self _)
              · exact .missing within stop_eq
              · cases none
      | missing => cases below

/-- The spans below the program nest, as its statements are in a row. -/
theorem nests_of_parse (parsed : parse source dialect = .ok program)
    : (Node.program program).Nests := by
  obtain ⟨⟨last, holds⟩, span⟩ := holds_of_parse parsed
  have spread := spread_of_parse parsed
  refine ⟨fun child below => ?_, spread.apart holds.statements.consumes⟩
  obtain ⟨_, _, derived, _⟩ := spread.parsed_of_mem below
  have spans := derived.spans
  have bounds := spans.consumes.spanOf spans.present
  rw [← spans.span_eq] at bounds
  rw [Node.span, span]
  exact ⟨Nat.zero_le _, bounds.2.2 ▸ spans.consumes.endOf_le spans.present⟩

/-- Spans nest: the spans of the nodes right below a node of a parsed program lie in the span of the node
and apart from each other. The program spans the text, the missing arguments of a `new` are at its end,
and every other node spans tokens, from the first byte of one to the last byte of one.
-/
theorem spans_nest_of_parse (parsed : parse source dialect = .ok program) {node : Node}
    (within : (Node.program program).Within node)
    : (∀ child ∈ node.children, child.span.Inside node.span)
      ∧ (node.children.Pairwise fun first second => first.span.Apart second.span)
      ∧ (node = .program program ∧ node.span = { start := 0, stop := Text.size source }
        ∨ (∃ span constructor,
            (Node.program program).Within
                (.expression (.construct span constructor (Arguments.missing constructor)))
            ∧ span.stop = constructor.span.stop
            ∧ node = .arguments (Arguments.missing constructor))
        ∨ node.span.start < node.span.stop
          ∧ (∃ first ∈ Program.tokens source dialect, first.span.start = node.span.start)
          ∧ ∃ last ∈ Program.tokens source dialect, last.span.stop = node.span.stop) := by
  cases located_of_parse parsed within with
  | root =>
      have nests := nests_of_parse parsed
      exact ⟨nests.1, nests.2, .inl ⟨rfl, (holds_of_parse parsed).2⟩⟩
  | parsed derived among =>
      have spans := derived.spans
      have bounds := spans.consumes.spanOf spans.present
      obtain ⟨first, first_mem, first_eq⟩ := Token.exists_start_spanOf spans.present
      obtain ⟨last, last_mem, last_eq⟩ := Token.exists_stop_spanOf spans.present
      rw [← spans.span_eq] at bounds first_eq last_eq
      refine ⟨derived.nests.1, derived.nests.2, .inr (.inr ⟨bounds.2.1, ?_, ?_⟩)⟩
      · exact ⟨first, among.subset first_mem, first_eq⟩
      · exact ⟨last, among.subset last_mem, last_eq⟩
  | missing inside stop_eq =>
      refine ⟨?_, .nil, .inr (.inl ⟨_, _, inside, stop_eq, rfl⟩)⟩
      rintro child ⟨⟩

/-- The header of a loop has clauses with spans of their own, the first one with a `new` without
arguments.
-/
theorem spans_nest_of_parse_for
    : ∃ program statement,
        parse "for (i = new a.b; i; ) i++".toList .ecma = .ok program
        ∧ program.body = [statement]
        ∧ (∀ child ∈ statement.children, child.span.Inside statement.span)
        ∧ statement.children.Pairwise fun first second => first.span.Apart second.span := by
  have counted
      : (parse "for (i = new a.b; i; ) i++".toList .ecma).toOption.map
            (fun program => program.body.length)
          = some 1 := by
    decide +kernel
  cases parsed : parse "for (i = new a.b; i; ) i++".toList .ecma with
  | error failure =>
      rw [parsed] at counted
      cases counted
  | ok program =>
      rw [parsed] at counted
      obtain ⟨statement, single⟩ := List.length_eq_one_iff.mp (Option.some.inj counted)
      have below : Node.statement statement ∈ (Node.program program).children := by
        simp [Node.children, single]
      have nests := spans_nest_of_parse parsed (.child .self below)
      exact ⟨program, statement, rfl, single, nests.1, nests.2.1⟩

end Program

end EcmaSyntax
