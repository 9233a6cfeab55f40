import EcmaSyntax.Proofs.Token.Buffering

/-! The state of a parser seen as a cursor: a source text and the tokens consumed from it. The token
operations of a parser act on what is seen, and never fail.
-/

namespace EcmaSyntax

/-- A text in a dialect. -/
structure Script where
  source : List Char
  dialect : Dialect

namespace Script

/-- The token is the one read at the offset. -/
def Reads (script : Script) (mode : LexMode) (offset : Nat) (token : Token) : Prop :=
  Token.read? script.source mode offset = some token

/-- The tokens follow each other from the offset on, read as outside of operands. -/
def ReadsAhead (script : Script) : Nat → List Token → Prop
  | _, [] => True
  | offset, token :: rest =>
      script.Reads .standard offset token ∧ script.ReadsAhead token.span.stop rest

/-- The text at a span, if there is one. -/
def textOf (script : Script) (span : Span) : List Char :=
  (Text.slice? span.start span.stop script.source).getD []

/-- The name that the identifier or word spells. -/
def nameOf (script : Script) (token : Token) : String :=
  Text.decodeName (script.textOf token.span)

variable {script : Script} {mode : LexMode} {offset : Nat}

/-- One token is read at an offset in a mode. -/
theorem Reads.unique {first second : Token} (left : script.Reads mode offset first)
    (right : script.Reads mode offset second)
    : first = second :=
  Option.some.inj (left.symm.trans right)

/-- The text at the span of a token is the one that lies there. -/
theorem slice?_of_lies {token : Token} {front gap text rest : List Char}
    (lies : token.Lies script.source front gap text rest)
    : Text.slice? token.span.start token.span.stop script.source = some text :=
  Text.slice?_eq_some.mpr
    ⟨front ++ gap, rest, by simp [lies.source_eq], by simp [lies.start_eq],
      by rw [lies.start_eq, lies.stop_eq]⟩

/-- The text that the source goes on with at an offset is the one at its span. -/
theorem textOf_of_drop? {text rest : List Char}
    (cut : Text.drop? offset script.source = some (text ++ rest))
    : script.textOf
          {
            start := offset
            stop := offset + Text.size text
          }
        = text := by
  obtain ⟨front, source_eq, rfl⟩ := Text.drop?_eq_some.mp cut
  rw [textOf, Text.slice?_eq_some.mpr ⟨front, rest, source_eq, rfl, rfl⟩, Option.getD_some]

theorem textOf_of_lies {token : Token} {front gap text rest : List Char}
    (lies : token.Lies script.source front gap text rest)
    : script.textOf token.span = text := by
  rw [textOf, slice?_of_lies lies, Option.getD_some]

/-- A token that was read has a text. -/
theorem Reads.slice? {token : Token} (read : script.Reads mode offset token)
    : Text.slice? token.span.start token.span.stop script.source
      = some (script.textOf token.span) := by
  obtain ⟨front, gap, text, rest, _, lies, _⟩ := Token.read?_eq_some read
  rw [slice?_of_lies lies, textOf_of_lies lies]

end Script

namespace ParserState

/-- The state is at work on the script and has consumed the tokens. Its bound suffices for them. -/
structure Shows (state : ParserState) (script : Script) (consumed : List Token) : Prop where
  consistent : state.Consistent
  source_eq : state.source = script.source
  dialect_eq : state.dialect = script.dialect
  bound_gt : script.source.length < state.bound
  consumed_eq : state.consumed = consumed

variable {state : ParserState} {script : Script} {consumed : List Token}

/-- A fresh parser has consumed nothing. -/
theorem shows_ofSource (source : List Char) (dialect : Dialect)
    : (ofSource source dialect).Shows { source, dialect } [] :=
  ⟨consistent_ofSource source dialect, rfl, rfl, Nat.lt_succ_self _, rfl⟩

theorem Shows.next_eq (shows : state.Shows script consumed) : state.next = consumed.length := by
  rw [← shows.consumed_eq, shows.consistent.length_consumed]

end ParserState

namespace Parser

variable {state : ParserState} {script : Script} {consumed : List Token}

/-- What a sequence of two parsers gives, the second gives after the first. -/
theorem bind_eq_ok {α β : Type} {parser : Parser α} {next : α → Parser β} {result : β}
    {after : ParserState}
    : (parser >>= next) state = .ok result after
      ↔ ∃ value between, parser state = .ok value between ∧ next value between = .ok result after := by
  change EStateM.bind parser next state = _ ↔ _
  unfold EStateM.bind
  cases parser state with
  | ok value between => simp
  | error failure between => simp

theorem bind_of_ok {α β : Type} {parser : Parser α} (next : α → Parser β) {value : α}
    {between : ParserState} (ran : parser state = .ok value between)
    : (parser >>= next) state = next value between := by
  change EStateM.bind parser next state = _
  rw [EStateM.bind, ran]

theorem map_of_ok {α β : Type} {parser : Parser α} (f : α → β) {value : α}
    {between : ParserState} (ran : parser state = .ok value between)
    : (f <$> parser) state = .ok (f value) between := by
  change EStateM.map f parser state = _
  rw [EStateM.map, ran]

/-- Looking at the next token of a consistent parser never fails. -/
theorem peek_fetched (consistent : state.Consistent) (mode : LexMode)
    : ∃ token after, peek mode state = .ok token after ∧ state.Fetched mode token after := by
  obtain ⟨token, after, found, fetched⟩ := consistent.fetched mode
  refine ⟨token, after, ?_, fetched⟩
  unfold peek
  rw [bind_of_ok _ (rfl : (get : Parser ParserState) state = .ok state state), found]
  rfl

/-- Looking at a token gives the one read where the last consumed token ends. -/
theorem peek_shows (shows : state.Shows script consumed) (mode : LexMode)
    : ∃ token after,
        peek mode state = .ok token after
        ∧ script.Reads mode (Token.endOf 0 consumed) token
        ∧ after.Shows script consumed
        ∧ ({ after with next := after.next + 1 } : ParserState).Shows script
            (consumed ++ [token]) := by
  obtain ⟨token, after, ran, fetched⟩ := peek_fetched shows.consistent mode
  have source_eq := fetched.source_eq.trans shows.source_eq
  have dialect_eq := fetched.dialect_eq.trans shows.dialect_eq
  have bound_gt := fetched.bound_eq ▸ shows.bound_gt
  obtain ⟨consistent, consumed_eq⟩ := fetched.consume
  rw [shows.consumed_eq] at consumed_eq
  refine ⟨token, after, ran, ?_, ?_, consistent, source_eq, dialect_eq, bound_gt, consumed_eq⟩
  · rw [Script.Reads, ← shows.source_eq, ← shows.consumed_eq]
    exact fetched.read
  · exact ⟨fetched.consistent, source_eq, dialect_eq, bound_gt,
      fetched.consumed_eq.trans shows.consumed_eq⟩

/-- Consuming a token gives the one read where the last consumed token ends, and consumes it. -/
theorem consume_shows (shows : state.Shows script consumed) (mode : LexMode)
    : ∃ token after,
        consume mode state = .ok token after
        ∧ script.Reads mode (Token.endOf 0 consumed) token
        ∧ after.Shows script (consumed ++ [token]) := by
  obtain ⟨token, between, ran, read, _, after⟩ := peek_shows shows mode
  refine ⟨token, _, ?_, read, after⟩
  unfold consume
  rw [bind_of_ok _ ran]
  rfl

/-- Consuming a token of some kind moves on if the next one is of that kind. -/
theorem consumeIf_of_peek {kind : Kind} {mode : LexMode} {token : Token} {after : ParserState}
    (ran : peek mode state = .ok token after)
    : consumeIf kind mode state
      = .ok (decide (token.kind = kind), token)
          (if token.kind = kind then { after with next := after.next + 1 } else after) := by
  unfold consumeIf
  rw [bind_of_ok _ ran]
  by_cases same : token.kind = kind
  · rw [if_pos same, if_pos same, decide_eq_true same]
    rfl
  · rw [if_neg same, if_neg same, decide_eq_false same]
    rfl

/-- A token is consumed by condition on its kind. -/
theorem consumeIf_shows (shows : state.Shows script consumed) (kind : Kind) (mode : LexMode)
    : ∃ token after,
        consumeIf kind mode state = .ok (decide (token.kind = kind), token) after
        ∧ script.Reads mode (Token.endOf 0 consumed) token
        ∧ after.Shows script (if token.kind = kind then consumed ++ [token] else consumed) := by
  obtain ⟨token, between, ran, read, before, after⟩ := peek_shows shows mode
  refine ⟨token, _, consumeIf_of_peek ran, read, ?_⟩
  split
  next => exact after
  next => exact before

/-- Accepting a kind consumes the next token if it is of that kind, and never fails. -/
theorem accept_shows (shows : state.Shows script consumed) (kind : Kind)
    : ∃ token after,
        accept kind state = .ok (decide (token.kind = kind)) after
        ∧ script.Reads .standard (Token.endOf 0 consumed) token
        ∧ after.Shows script (if token.kind = kind then consumed ++ [token] else consumed) := by
  obtain ⟨token, after, ran, read, shown⟩ := consumeIf_shows shows kind .standard
  exact ⟨token, after, bind_of_ok _ ran, read, shown⟩

/-- A checkpoint is the number of the tokens consumed before it. -/
theorem checkpoint_shows (shows : state.Shows script consumed)
    : checkpoint state = .ok consumed.length state := by
  rw [← shows.next_eq]
  rfl

/-- Going back keeps the tokens consumed before the checkpoint. -/
theorem restore_shows (shows : state.Shows script consumed) (checkpoint : Nat)
    (behind : checkpoint ≤ consumed.length)
    : ∃ after,
        restore checkpoint state = .ok () after
        ∧ after.Shows script (consumed.take checkpoint) := by
  obtain ⟨consistent, consumed_eq⟩ := shows.consistent.restore (shows.next_eq ▸ behind)
  rw [shows.consumed_eq] at consumed_eq
  exact ⟨_, rfl, consistent, shows.source_eq, shows.dialect_eq, shows.bound_gt, consumed_eq⟩

/-- The span of what was consumed since a checkpoint, if that is anything. -/
theorem since_shows {before tokens : List Token} (shows : state.Shows script (before ++ tokens))
    (present : tokens ≠ [])
    : since before.length state = .ok (Token.spanOf tokens) state := by
  obtain ⟨first, rest, rfl⟩ := List.exists_cons_of_ne_nil present
  have next_eq : state.next = before.length + rest.length + 1 := by
    rw [shows.next_eq, List.length_append, List.length_cons, Nat.add_assoc]
  -- What is consumed is the beginning of the buffer.
  have buffered (index : Nat) (bound : index < state.next)
      : state.tokens[index]?.map BufferedToken.token = (before ++ first :: rest)[index]? := by
    rw [← shows.consumed_eq, ParserState.consumed, List.getElem?_take_of_lt bound,
      ParserState.buffer, List.getElem?_map, Array.getElem?_toList]
  have starts := buffered before.length (by omega)
  rw [List.getElem?_append_right (Nat.le_refl _), Nat.sub_self, List.getElem?_cons_zero] at starts
  obtain ⟨opening, found, rfl⟩ := Option.map_eq_some_iff.mp starts
  have ends := buffered (state.next - 1) (by omega)
  rw [next_eq, Nat.add_sub_cancel, List.getElem?_append_right (by omega), Nat.add_sub_cancel_left]
    at ends
  obtain ⟨closing, last, stops⟩ := Option.map_eq_some_iff.mp
    (ends.trans (List.getElem?_eq_getElem (Nat.lt_succ_self rest.length)))
  have spans : state.since before.length = .ok (Token.spanOf (opening.token :: rest)) := by
    rw [ParserState.since, found, if_pos (by omega), next_eq, Nat.add_sub_cancel, last]
    simp only [Token.spanOf, stops, Token.stop_getElem_length]
  unfold since
  rw [bind_of_ok _ (rfl : (get : Parser ParserState) state = .ok state state), spans]
  rfl

end Parser

end EcmaSyntax
