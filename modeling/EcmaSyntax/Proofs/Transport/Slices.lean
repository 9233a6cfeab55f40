import EcmaSyntax.Proofs.Grammar.Chains
import EcmaSyntax.Proofs.Grammar.Nesting
import EcmaSyntax.Proofs.Transport.Carrying

/-! Locations are exact. The text at the location of a statement or of an expression, taken alone, is a whole
statement or expression, and has the same tree with all locations counted from its beginning.
-/

namespace EcmaSyntax

open EcmaSyntax.Parser EcmaSyntax.Grammar

variable {script : Script} {offset : Nat} {tokens : List Token}

-----------------------------------------------------------------------------------------
-- Cutting a text out
-----------------------------------------------------------------------------------------

/-- The text at the span of tokens in a row. -/
theorem Script.Consumes.exists_slice (consumes : script.Consumes offset tokens)
    (present : tokens ≠ [])
    : ∃ before slice after,
        script.source = before ++ (slice ++ after)
        ∧ Text.size before = (Token.spanOf tokens).start
        ∧ Text.size before + Text.size slice = Token.endOf offset tokens := by
  have bounds := consumes.spanOf present
  obtain ⟨rest, cut⟩ := consumes.isBoundary_endOf present
  obtain ⟨whole, source_eq, size_whole⟩ := Text.drop?_eq_some.mp cut
  obtain ⟨token, tokens, rfl⟩ := List.exists_cons_of_ne_nil present
  obtain ⟨front, gap, text, behind, _, lies, _⟩ := Token.read?_eq_some consumes.1
  have starts : Text.size (front ++ gap) = token.span.start := by simp [lies.start_eq]
  have first : (Token.spanOf (token :: tokens)).start = token.span.start := rfl
  obtain ⟨slice, rfl, _⟩
      : ∃ slice, whole = front ++ gap ++ slice ∧ text ++ behind = slice ++ rest := by
    refine Text.exists_append_of_size_le ?_ (by omega)
    rw [← source_eq, lies.source_eq, List.append_assoc]
  refine ⟨front ++ gap, slice, rest, by simp [source_eq], starts, ?_⟩
  rw [← size_whole, Text.size_append _ slice]

namespace Relocation

/-- The text is counted from a place on. No line ends before the token there. -/
def cut (place : Nat) : Relocation where
  span inner :=
    {
      start := inner.start - place
      stop := inner.stop - place
    }
  stop offset := offset - place
  newline token := token.afterNewline && token.span.start != place
  stop_span _ _ := rfl
  span_cover first second _ _ := by
    simp only [Span.cover, Span.mk.injEq]
    omega
  span_point _ _ := rfl

section Cut

variable {other : Script} {before slice after : List Char} {token : Token}

/-- In a text that is cut off in front, spans are counted from there. -/
theorem span_cut (place : Nat) (inner : Span)
    : (cut place).span inner
        = {
            start := inner.start - place
            stop := inner.stop - place
          } :=
  rfl

/-- The first token of the text stands at its beginning. -/
theorem placesWithin_cut_of_start (source_eq : script.source = before ++ (slice ++ after))
    (other_eq : other.source = slice) (behind : offset ≤ Text.size before)
    (starts : token.span.start = Text.size before)
    (ends : token.span.stop ≤ Text.size before + Text.size slice)
    : (cut (Text.size before)).PlacesWithin script other offset token := by
  intro mode next front gap text rest stands size_eq same within
  have start_eq := stands.lies.start_eq
  have stop_eq := stands.lies.stop_eq
  obtain ⟨rfl, split⟩ : before = front ++ gap ∧ slice ++ after = text ++ rest := by
    refine Text.append_inj_size ?_ (by simp only [Text.size_append]; omega)
    rw [← source_eq, stands.lies.source_eq, List.append_assoc]
  simp only [Text.size_append] at *
  obtain ⟨middle, rfl, rfl⟩ := Text.exists_append_of_size_le split.symm (by omega)
  have follows : Text.MayFollow (middle ++ after) middle := Text.mayFollow_of_append middle after
  refine ⟨[], [], middle, by simpa using other_eq, ?_, follows, ?_, ?_⟩
  · have line : (cut (Text.size front + Text.size gap)).newline next = false := by
      simp [cut, same, starts]
    rw [line]
    exact stands.stops.replace stands.present follows false
  · simp only [cut, Text.size_nil]
    omega
  · simp only [span_cut, Text.size_nil, Span.mk.injEq]
    omega

/-- Every other token stands behind the same trivia. -/
theorem placesWithin_cut_of_le (source_eq : script.source = before ++ (slice ++ after))
    (other_eq : other.source = slice) (behind : Text.size before ≤ offset)
    (starts : token.span.start ≠ Text.size before)
    (ends : token.span.stop ≤ Text.size before + Text.size slice)
    : (cut (Text.size before)).PlacesWithin script other offset token := by
  intro mode next front gap text rest stands size_eq same within
  have start_eq := stands.lies.start_eq
  have stop_eq := stands.lies.stop_eq
  obtain ⟨begin, rfl, split⟩
      : ∃ begin, front = before ++ begin ∧ slice ++ after = begin ++ (gap ++ (text ++ rest)) :=
    Text.exists_append_of_size_le (source_eq.symm.trans stands.lies.source_eq) (by omega)
  obtain ⟨middle, rfl, rfl⟩
      : ∃ middle, slice = begin ++ gap ++ text ++ middle ∧ rest = middle ++ after := by
    refine Text.exists_append_of_size_le ?_ (by simp only [Text.size_append] at *; omega)
    rw [split]
    simp
  have follows : Text.MayFollow (middle ++ after) middle := Text.mayFollow_of_append middle after
  refine ⟨begin, gap, middle, by simp [other_eq], ?_, follows, ?_, ?_⟩
  · have line : (cut (Text.size before)).newline next = next.afterNewline := by
      simp [cut, same, starts]
    rw [line]
    exact stands.skip_eq follows
  · simp only [cut, Text.size_append] at *
    omega
  · simp only [span_cut, Text.size_append, Span.mk.injEq] at *
    omega

/-- The tokens of a text are carried over when the text is cut out. -/
theorem carries_cut (source_eq : script.source = before ++ (slice ++ after))
    (other_eq : other.source = slice) (consumes : script.Consumes offset tokens)
    (valid : ∀ token ∈ tokens, token.kind ≠ .invalid)
    (starts : (Token.spanOf tokens).start = Text.size before)
    (ends : Token.endOf offset tokens = Text.size before + Text.size slice)
    : (cut (Text.size before)).Carries script other true offset tokens := by
  refine carries_of fun front token back row => ?_
  have whole := consumes
  rw [row] at whole
  obtain ⟨consumesFront, read, present, _⟩ := Script.consumes_append.mp whole
  have bounds := consumes.bounds token (by simp [row])
  have order := read.start_lt_stop present
  cases front with
  | nil =>
      have first : token.span.start = Text.size before := by
        rw [← starts, row]
        rfl
      refine PlacesWithin.carriesToken ?_ read present (valid token (by simp [row])) (by simp)
      exact placesWithin_cut_of_start source_eq other_eq (by omega) first (by omega)
  | cons first front =>
      have opens : first.span.start = Text.size before := by
        rw [← starts, row]
        rfl
      have boundsFirst := consumesFront.bounds first List.mem_cons_self
      refine PlacesWithin.carriesToken ?_ read present (valid token (by simp [row])) ?_
      · exact placesWithin_cut_of_le source_eq other_eq (by omega) (by omega) (by omega)
      · rintro _ next same
        have further : next.span.start ≠ Text.size before := by omega
        simp [cut, further]

/-- At the end of the text that is cut out the end of the input is read. -/
theorem exists_reads_end_cut (other_eq : other.source = slice)
    (ends : Token.endOf offset tokens = Text.size before + Text.size slice)
    : ∃ last,
        other.Reads .standard ((cut (Text.size before)).stop (Token.endOf offset tokens)) last
        ∧ last.kind = .endOfInput := by
  have split : other.source = slice ++ [] := by simp [other_eq]
  obtain ⟨last, read, isEnd, _⟩ := Script.exists_reads_end .standard split rfl
  refine ⟨last, ?_, isEnd⟩
  have stop_eq : (cut (Text.size before)).stop (Token.endOf offset tokens) = Text.size slice := by
    simp only [cut, ends]
    omega
  rwa [stop_eq]

end Cut

end Relocation

-----------------------------------------------------------------------------------------
-- Chains in another text
-----------------------------------------------------------------------------------------

/-- A chain can be had in the other text where its tokens are carried over. -/
theorem Grammar.Chains.moved {other : Script} {relocation : Relocation} {inAllowed : Bool}
    {value : Expr} (chains : Chains script inAllowed offset tokens value)
    (dialect_eq : other.dialect = script.dialect)
    (carries : relocation.Carries script other true offset tokens)
    (follows : relocation.Follows script other Kind.isClosing (Token.endOf offset tokens))
    : Chains other inAllowed (relocation.stop offset) (tokens.map relocation.token)
        (Moved.ofExpr relocation.span value) := by
  induction chains with
  | operand operand =>
      exact .operand (operand.moves dialect_eq true (fun _ => rfl) carries follows trivial)
  | @update tokens target token operator chains read updates assignable ih =>
      have spans := chains.spans
      have behind := carries.right fun _ => spans.present
      have left := ih carries.left behind.1.shows.follows
      have plain := Kind.isPlain_of_updateOperator? updates
      have nonempty := ((read.consumes plain).bounds token List.mem_cons_self).2.1
      have there := behind.1.read
      rw [Kind.mode_of_isPlain plain, ← Relocation.endOf_map spans.consumes] at there
      have updatesThere : updateOperator? (relocation.token token) = some operator := by
        rw [updateOperator?, Relocation.token, behind.1.newline_eq rfl]
        exact updates
      have chained := left.update there updatesThere (by simpa using assignable)
      rw [Moved.span_ofExpr, Relocation.span_token,
        ← relocation.span_cover _ _ spans.nonempty nonempty] at chained
      simpa [Moved.ofExpr] using chained
  | @more front back left value next operator chains read opens allowed continuation ih =>
      have spans := chains.spans
      have behind := carries.right fun _ => spans.present
      rw [Token.endOf_append] at follows
      have goesOn := continuation.moves dialect_eq false (by simp) behind follows ⟨_, _, spans, rfl⟩
      rw [← Relocation.endOf_map spans.consumes] at goesOn
      have some_tokens := continuation.ne_nil rfl
      obtain ⟨token, back, rfl⟩ := List.exists_cons_of_ne_nil some_tokens
      obtain ⟨shown, readShown, resembles⟩ := behind.1.shows next read
      rw [← Relocation.endOf_map spans.consumes] at readShown
      rw [List.map_append]
      refine .more (ih carries.left behind.1.shows.follows) readShown ?_ allowed goesOn
      rw [resembles.kind_eq, opens]

-----------------------------------------------------------------------------------------
-- The nodes of a program
-----------------------------------------------------------------------------------------

/-- A parser that starts afresh on the text at the span accepts the whole of it, and the result is as said. -/
def Parser.AcceptsSlice {α : Type} (production : Rules → Parser α) (source : List Char)
    (dialect : Dialect) (span : Span) (holds : α → Prop)
    : Prop :=
  ∃ slice result after last final,
    Text.slice? span.start span.stop source = some slice
    ∧ withRules production (ParserState.ofSource slice dialect) = .ok result after
    ∧ peek .standard after = .ok last final
    ∧ last.kind = .endOfInput
    ∧ holds result

/-- A production that is run on the text at the span stops in front of the end of the input. -/
theorem Parser.AcceptsSlice.of_runs {α : Type} {production : Rules → Parser α}
    {source slice : List Char} {dialect : Dialect} {span : Span} {result : α} {last : Token}
    {holds : α → Prop}
    (sliced : Text.slice? span.start span.stop source = some slice)
    (runs : Runs { source := slice, dialect } (production (Rules.ofSource slice)) 0 tokens result)
    (read : Script.Reads { source := slice, dialect } .standard (Token.endOf 0 tokens) last)
    (ends : last.kind = .endOfInput) (same : holds result)
    : AcceptsSlice production source dialect span holds := by
  obtain ⟨after, ran, shown⟩ :=
    withRules_of_runs (ParserState.shows_ofSource slice dialect) runs
  obtain ⟨seen, final, peeked, readSeen, _⟩ := peek_shows shown .standard
  obtain rfl := readSeen.unique read
  exact ⟨slice, result, after, seen, final, sliced, ran, peeked, ends, same⟩

namespace Program

variable {source : List Char} {dialect : Dialect} {program : Program} {node : Node}

/-- The spans of the nodes below a node lie in its span. -/
theorem inside_of_within (parsed : parse source dialect = .ok program)
    (outer : (Node.program program).Within node) {inner : Node} (within : node.Within inner)
    : inner.span.Inside node.span := by
  induction within with
  | self => exact ⟨Nat.le_refl _, Nat.le_refl _⟩
  | @child parent child within below ih =>
      have nests : parent.Nests := by
        cases located_of_parse parsed (within.trans outer) with
        | root => exact nests_of_parse parsed
        | parsed derived => exact derived.nests
        | missing => cases below
      have inside := nests.1 child below
      exact ⟨Nat.le_trans ih.1 inside.1, Nat.le_trans inside.2 ih.2⟩

/-- No node of a program ends before it begins. -/
theorem start_le_stop_of_within (parsed : parse source dialect = .ok program)
    (within : (Node.program program).Within node)
    : node.span.start ≤ node.span.stop := by
  cases located_of_parse parsed within with
  | root =>
      obtain ⟨_, span⟩ := holds_of_parse parsed
      rw [Node.span, span]
      exact Nat.zero_le _
  | parsed derived => exact Nat.le_of_lt derived.spans.nonempty
  | missing => exact Nat.le_refl _

/-- Where spans are counted from the beginning of a node, moving them back gives the node. -/
theorem moved_back (parsed : parse source dialect = .ok program)
    (within : (Node.program program).Within node)
    : Moved.ofNode (Span.shift node.span.start)
          (Moved.ofNode (Relocation.cut node.span.start).span node)
        = node := by
  refine Moved.ofNode_back fun inner below => ?_
  have inside := (inside_of_within parsed within below).1
  have order := start_le_stop_of_within parsed (below.trans within)
  rw [Relocation.span_cut, Span.shift, Nat.sub_add_cancel inside,
    Nat.sub_add_cancel (Nat.le_trans inside order)]

/-- What is parsed as a node is parsed as one in the text at its span, in front of the end of the input. -/
theorem exists_cut (parsed : parse source dialect = .ok program) {offset : Nat} {inner : List Token}
    (derived : node.Parsed { source, dialect } offset inner)
    (among : inner <:+: Program.tokens source dialect)
    : ∃ slice last,
        Text.slice? node.span.start node.span.stop source = some slice
        ∧ (Relocation.cut node.span.start).stop offset = 0
        ∧ (Relocation.cut node.span.start).Carries { source, dialect } { source := slice, dialect }
            true offset inner
        ∧ Script.Reads { source := slice, dialect } .standard
            ((Relocation.cut node.span.start).stop (Token.endOf offset inner)) last
        ∧ last.kind = .endOfInput := by
  obtain ⟨⟨_, holds⟩, _⟩ := holds_of_parse parsed
  have valid : ∀ token ∈ inner, token.kind ≠ .invalid := fun token member =>
    holds.statements.valid token (among.subset member)
  have spans := derived.spans
  have bounds := spans.consumes.spanOf spans.present
  obtain ⟨before, slice, after, source_eq, starts, ends⟩ :=
    spans.consumes.exists_slice spans.present
  have start_eq : node.span.start = Text.size before := by rw [spans.span_eq, starts]
  have stop_eq : node.span.stop = Text.size before + Text.size slice := by
    rw [spans.span_eq, bounds.2.2, ends]
  obtain ⟨last, read, isEnd⟩
      : ∃ last,
          Script.Reads { source := slice, dialect } .standard
            ((Relocation.cut (Text.size before)).stop (Token.endOf offset inner)) last
          ∧ last.kind = .endOfInput :=
    Relocation.exists_reads_end_cut (by rfl) ends.symm
  rw [start_eq, stop_eq]
  refine ⟨slice, last, ?_, Nat.sub_eq_zero_of_le (by omega), ?_, read, isEnd⟩
  · exact Text.slice?_eq_some.mpr ⟨before, after, source_eq, rfl, rfl⟩
  · exact Relocation.carries_cut source_eq rfl spans.consumes valid starts.symm ends.symm

/-- The end of the input may follow whatever a closing token may follow. -/
theorem follows_of_ends {script other : Script} {relocation : Relocation} {offset : Nat}
    {last : Token} {closes : Kind → Bool}
    (read : other.Reads .standard (relocation.stop offset) last) (ends : last.kind = .endOfInput)
    (closing : closes .endOfInput)
    : relocation.Follows script other closes offset :=
  fun _ _ => ⟨last, read, .inr (ends ▸ closing)⟩

/-- The text at a statement of a program is accepted as the statement. -/
theorem statement_slice (parsed : parse source dialect = .ok program) {statement : Stmt}
    (within : (Node.program program).Within (.statement statement))
    : AcceptsSlice (fun rules => Grammar.statement rules true) source dialect statement.span
        fun result => Moved.ofStmt (Span.shift statement.span.start) result = statement := by
  have back := moved_back parsed within
  cases located_of_parse parsed within with
  | parsed derived among =>
      obtain ⟨slice, last, sliced, begins, carries, read, isEnd⟩ := exists_cut parsed derived among
      cases derived with
      | statement derivation =>
          have moved := derivation.moves (by rfl) true (fun _ => rfl) carries
            (follows_of_ends read isEnd rfl) trivial
          rw [← Relocation.endOf_map derivation.consumes, begins] at read
          rw [begins] at moved
          have runs := moved.complete _ (moved.length_le.trans (Nat.le_add_right _ 2))
          exact .of_runs sliced runs read isEnd (Node.statement.inj back)

/-- The text at an expression of a program is accepted as the expression. -/
theorem expression_slice (parsed : parse source dialect = .ok program) {value : Expr}
    (within : (Node.program program).Within (.expression value))
    : AcceptsSlice (fun rules => Grammar.expression rules true) source dialect value.span
        fun result => Moved.ofExpr (Span.shift value.span.start) result = value := by
  have back := moved_back parsed within
  cases located_of_parse parsed within with
  | parsed derived among =>
      obtain ⟨slice, last, sliced, begins, carries, read, isEnd⟩ := exists_cut parsed derived among
      cases derived with
      | expression chains =>
          have moved := chains.moved (by rfl) carries (follows_of_ends read isEnd rfl)
          rw [← Relocation.endOf_map chains.spans.consumes, begins] at read
          rw [begins] at moved
          have plain : last.kind ≠ .keywordIn := by
            rw [isEnd]
            decide
          have stops : StopsOperators true 1 last :=
            stopsOperators_of_isClosing (by rw [isEnd]; rfl) true 1
          have derivation := (moved.allowing (.of_reads read plain)).expression read stops
          have runs := derivation.complete _ (derivation.length_le.trans (Nat.le_add_right _ 2))
          exact .of_runs sliced runs read isEnd (Node.expression.inj back)

/-- Locations are exact: a fresh parser of the text at the location of a statement, or of an expression,
accepts the whole text as a statement, or as an expression in which `in` is allowed. The tree is that of the
node with all locations counted from the beginning of the node.
-/
theorem slices_parse_of_parse (parsed : parse source dialect = .ok program)
    : (∀ statement : Stmt,
        (Node.program program).Within (.statement statement) →
        AcceptsSlice (fun rules => Grammar.statement rules true) source dialect statement.span
          fun result => Moved.ofStmt (Span.shift statement.span.start) result = statement)
      ∧ ∀ value : Expr,
          (Node.program program).Within (.expression value) →
          AcceptsSlice (fun rules => Grammar.expression rules true) source dialect value.span
            fun result => Moved.ofExpr (Span.shift value.span.start) result = value :=
  ⟨fun _ within => statement_slice parsed within, fun _ within => expression_slice parsed within⟩

/-- The text at a loop without the line behind it is accepted as the loop. -/
theorem slices_parse_of_parse_for
    : ∃ program statement,
        parse "for (a = b ? c : d; a; ) e\nf".toList .ecma = .ok program
        ∧ statement ∈ program.body
        ∧ AcceptsSlice (fun rules => Grammar.statement rules true)
            "for (a = b ? c : d; a; ) e\nf".toList .ecma statement.span
            fun result => Moved.ofStmt (Span.shift statement.span.start) result = statement := by
  have counted
      : (parse "for (a = b ? c : d; a; ) e\nf".toList .ecma).toOption.map
            (fun program => program.body.length)
          = some 2 := by
    decide +kernel
  cases parsed : parse "for (a = b ? c : d; a; ) e\nf".toList .ecma with
  | error failure =>
      rw [parsed] at counted
      cases counted
  | ok program =>
      rw [parsed] at counted
      obtain ⟨first, second, pair⟩ := List.length_eq_two.mp (Option.some.inj counted)
      have below : Node.statement first ∈ (Node.program program).children := by
        simp [Node.children, pair]
      have exact_slices := slices_parse_of_parse parsed
      exact ⟨program, first, rfl, by simp [pair], exact_slices.1 first (.child .self below)⟩

end Program

end EcmaSyntax
