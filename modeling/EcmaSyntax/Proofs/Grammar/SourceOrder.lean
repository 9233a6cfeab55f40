import EcmaSyntax.Proofs.Grammar.Nesting
import EcmaSyntax.Proofs.Tree.Induction

/-! The order of an outline. An outline lists the nodes below a node in the order of the fields that hold
them. This is the order of the text, except that the condition of a `do` statement is listed in front of
its body. So the nodes of a program are listed by where they begin if and only if none of them is a `do`
statement.
-/

namespace EcmaSyntax

/-- A span inside another one is inside all that the other one is inside of. -/
theorem Span.Inside.trans {first second third : Span} (inner : first.Inside second)
    (outer : second.Inside third)
    : first.Inside third :=
  ⟨Nat.le_trans outer.1 inner.1, Nat.le_trans inner.2 outer.2⟩

/-- The nodes are listed by where they begin. -/
def Outline.InSourceOrder (nodes : List OutlineNode) : Prop :=
  nodes.Pairwise fun first second => first.span.start ≤ second.span.start

instance (nodes : List OutlineNode) : Decidable (Outline.InSourceOrder nodes) :=
  inferInstanceAs (Decidable (nodes.Pairwise _))

namespace Node

variable {node : Node}

/-- The node is a `do` statement. -/
def IsDoWhile : Node → Prop
  | statement (.doWhile ..) => True
  | _ => False

/-- Only the `do` statement lists its children out of the order of the text. -/
theorem inTextOrder_of_not_isDoWhile (other : ¬ node.IsDoWhile)
    : node.inTextOrder = node.children := by
  unfold inTextOrder
  split
  · exact absurd trivial other
  · rfl

/-- The nodes right below the node lie in it and follow each other in the order of their text. A statement
has text of its own.
-/
structure Ordered (node : Node) : Prop where
  inside : ∀ child ∈ node.children, child.span.Inside node.span
  precede : node.inTextOrder.Pairwise fun first second => first.span.Precedes second.span
  start_le_stop : node.span.start ≤ node.span.stop
  start_lt_stop
    : ∀ inner, node = statement inner → inner.span.start < inner.span.stop

-----------------------------------------------------------------------------------------
-- Outlines of ordered trees
-----------------------------------------------------------------------------------------

/-- An outline lists the node itself. -/
theorem exists_mem_outline (node : Node) (depth : Nat)
    : ∃ entry ∈ node.outline depth, entry.span = node.span := by
  obtain ⟨heads, present, same, outline_eq⟩ := node.outline_eq depth
  obtain ⟨head, rest, rfl⟩ := List.exists_cons_of_ne_nil present
  exact ⟨head, by simp [outline_eq], same head List.mem_cons_self⟩

/-- What an outline lists lies in the node, from its beginning on. -/
theorem mem_outline_inside (ordered : node.Everywhere Ordered) (depth : Nat)
    : ∀ entry ∈ node.outline depth,
        entry.span.Inside node.span ∧ entry.span.start ≤ entry.span.stop := by
  induction node using children_induct generalizing depth with
  | step node ih =>
      obtain ⟨heads, _, same, outline_eq⟩ := node.outline_eq depth
      intro entry listed
      rw [outline_eq, List.mem_append, List.mem_flatMap] at listed
      rcases listed with head | ⟨child, below, listed⟩
      · rw [same entry head]
        exact ⟨⟨Nat.le_refl _, Nat.le_refl _⟩, ordered.self.start_le_stop⟩
      · obtain ⟨inside, proper⟩ := ih child below (ordered.child below) _ entry listed
        exact ⟨inside.trans (ordered.self.inside child below), proper⟩

/-- A node that is no `do` statement is listed in order if the nodes right below it are. -/
theorem inSourceOrder_of_children (ordered : node.Everywhere Ordered) (other : ¬ node.IsDoWhile)
    (children
      : ∀ child ∈ node.children, ∀ depth, Outline.InSourceOrder (child.outline depth))
    (depth : Nat)
    : Outline.InSourceOrder (node.outline depth) := by
  obtain ⟨heads, _, same, outline_eq⟩ := node.outline_eq depth
  rw [outline_eq]
  refine List.pairwise_append.mpr ⟨?_, List.pairwise_flatMap.mpr ⟨?_, ?_⟩, ?_⟩
  · refine List.pairwise_of_forall_mem_list fun first isHead second isHead' => ?_
    rw [same first isHead, same second isHead']
  · exact fun child below => children child below _
  · have precede := inTextOrder_of_not_isDoWhile other ▸ ordered.self.precede
    refine precede.imp_of_mem fun {first second} below below' before entry listed entry' listed' => ?_
    have inside := mem_outline_inside (ordered.child below) _ entry listed
    have inside' := mem_outline_inside (ordered.child below') _ entry' listed'
    calc
      entry.span.start ≤ entry.span.stop := inside.2
      _ ≤ first.span.stop := inside.1.2
      _ ≤ second.span.start := before
      _ ≤ entry'.span.start := inside'.1.1
  · intro head isHead entry listed
    obtain ⟨child, below, listed⟩ := List.mem_flatMap.mp listed
    have inside := mem_outline_inside (ordered.child below) _ entry listed
    rw [same head isHead]
    exact (inside.1.trans (ordered.self.inside child below)).1

/-- In the outline of a `do` statement the condition stands in front of the body, which begins first. -/
theorem not_inSourceOrder_of_isDoWhile (ordered : node.Everywhere Ordered)
    (repeats : node.IsDoWhile) (depth : Nat)
    : ¬ Outline.InSourceOrder (node.outline depth) := by
  obtain ⟨place, body, condition, rfl⟩
      : ∃ place body condition, node = statement (.doWhile place body condition) := by
    unfold IsDoWhile at repeats
    split at repeats
    · exact ⟨_, _, _, rfl⟩
    · cases repeats
  obtain ⟨heads, _, _, outline_eq⟩ := outline_eq (statement (.doWhile place body condition)) depth
  intro sorted
  rw [outline_eq] at sorted
  have below := (List.pairwise_append.mp sorted).2.1
  simp only [children, Stmt.children, List.flatMap_cons, List.flatMap_nil, List.append_nil] at below
  obtain ⟨first, listed, first_span⟩ := exists_mem_outline (expression condition) (depth + heads.length)
  obtain ⟨second, listed', second_span⟩ := exists_mem_outline (statement body) (depth + heads.length)
  have before := (List.pairwise_append.mp below).2.2 first listed second listed'
  rw [first_span, second_span] at before
  have precedes : body.span.stop ≤ condition.span.start :=
    (List.pairwise_cons.mp ordered.self.precede).1 _ (List.mem_singleton_self _)
  have isChild : statement body ∈ (statement (.doWhile place body condition)).children := by
    simp [children, Stmt.children]
  have present := (ordered.child isChild).self.start_lt_stop body rfl
  simp only [span] at before
  omega

/-- The outline of an ordered tree is in the order of the text if and only if no node is a `do`
statement.
-/
theorem inSourceOrder_outline_iff (ordered : node.Everywhere Ordered) (depth : Nat)
    : Outline.InSourceOrder (node.outline depth) ↔ node.Everywhere fun inner => ¬ inner.IsDoWhile := by
  induction node using children_induct generalizing depth with
  | step node ih =>
      constructor
      · intro sorted
        refine .intro (fun repeats => not_inSourceOrder_of_isDoWhile ordered repeats depth sorted)
          fun child below => ?_
        obtain ⟨heads, _, _, outline_eq⟩ := node.outline_eq depth
        rw [outline_eq] at sorted
        exact (ih child below (ordered.child below) _).mp
          ((List.pairwise_flatMap.mp (List.pairwise_append.mp sorted).2.1).1 child below)
      · intro others
        exact inSourceOrder_of_children ordered others.self
          (fun child below depth => (ih child below (ordered.child below) depth).mpr (others.child below))
          depth

end Node

-----------------------------------------------------------------------------------------
-- Outlines of parsed programs
-----------------------------------------------------------------------------------------

/-- What parses as a node is in the order of its text, since its tokens are. -/
theorem Node.Parsed.ordered {script : Script} {offset : Nat} {tokens : List Token} {node : Node}
    (parsed : node.Parsed script offset tokens)
    : node.Ordered := by
  have spans := parsed.spans
  have bounds := spans.consumes.spanOf spans.present
  rw [← spans.span_eq] at bounds
  refine ⟨parsed.nests.1, ?_, Nat.le_of_lt bounds.2.1, ?_⟩
  · obtain ⟨nodes, spread, spreads⟩ := parsed.children
    have precede := spread.precede spans.consumes
    cases spreads with
    | inTextOrder => exact precede
    | bare =>
        refine .cons ?_ (.cons (by simp) .nil)
        rintro other (_ | ⟨_, ⟨⟩⟩)
        exact Nat.le_refl _
  · rintro inner rfl
    exact bounds.2.1

namespace Program

variable {source : List Char} {dialect : Dialect} {program : Program}

/-- Every node of a program is in the order of its text. -/
theorem ordered_of_parse (parsed : parse source dialect = .ok program)
    : (Node.program program).Everywhere Node.Ordered := by
  intro node within
  cases located_of_parse parsed within with
  | root =>
      obtain ⟨⟨last, holds⟩, span⟩ := holds_of_parse parsed
      refine ⟨(nests_of_parse parsed).1, ?_, ?_, by rintro inner ⟨⟩⟩
      · exact (spread_of_parse parsed).precede holds.statements.consumes
      · simp [Node.span, span]
  | parsed derived => exact derived.ordered
  | missing =>
      exact ⟨by rintro child ⟨⟩, .nil, Nat.le_refl _, by rintro inner ⟨⟩⟩

/-- The nodes of a parsed program are listed by where they begin if and only if none of them is a `do`
statement.
-/
theorem outline_inSourceOrder_iff (parsed : parse source dialect = .ok program)
    : Outline.InSourceOrder program.outline
      ↔ (Node.program program).Everywhere fun node => ¬ node.IsDoWhile :=
  Node.inSourceOrder_outline_iff (ordered_of_parse parsed) 0

theorem outline_inSourceOrder_iff_for
    : ∃ program,
        parse "for (i = new a.b; i; ) while (c) f(i)".toList .ecma = .ok program
        ∧ (Node.program program).Everywhere fun node => ¬ node.IsDoWhile := by
  have sorted
      : (parse "for (i = new a.b; i; ) while (c) f(i)".toList .ecma).toOption.map
            (fun program => decide (Outline.InSourceOrder program.outline))
          = some true := by
    decide +kernel
  cases parsed : parse "for (i = new a.b; i; ) while (c) f(i)".toList .ecma with
  | error failure =>
      rw [parsed] at sorted
      cases sorted
  | ok program =>
      rw [parsed] at sorted
      exact ⟨program, rfl,
        (outline_inSourceOrder_iff parsed).mp (of_decide_eq_true (Option.some.inj sorted))⟩

/-- The nodes of a program are not always listed by where they begin: a `do` statement lists its condition
first.
-/
theorem do_not_inSourceOrder
    : ∃ program,
        parse "do x; while (y)".toList .js = .ok program
        ∧ ¬ Outline.InSourceOrder program.outline := by
  have unsorted
      : (parse "do x; while (y)".toList .js).toOption.map
            (fun program => decide (Outline.InSourceOrder program.outline))
          = some false := by
    decide +kernel
  cases parsed : parse "do x; while (y)".toList .js with
  | error failure =>
      rw [parsed] at unsorted
      cases unsorted
  | ok program =>
      rw [parsed] at unsorted
      exact ⟨program, rfl, of_decide_eq_false (Option.some.inj unsorted)⟩

end Program

end EcmaSyntax
