import EcmaSyntax.Proofs.Token.Reading
import EcmaSyntax.Token.Buffer

/-! The buffer of tokens behaves as a cursor on the source text. Every buffered token is what the lexer
reads where the one before it ends, so forgetting tokens, reading them again in the other mode and going
back are invisible: the next token in a mode is always the one read where the last consumed token ends.
-/

namespace EcmaSyntax

/-- Where the last of the tokens ends, which begin to be read at `start`. -/
def Token.endOf (start : Nat) (tokens : List Token) : Nat :=
  tokens.foldl (fun _ token => token.span.stop) start

namespace Token

@[simp]
theorem endOf_nil (start : Nat) : endOf start [] = start := rfl

@[simp]
theorem endOf_cons (start : Nat) (token : Token) (rest : List Token)
    : endOf start (token :: rest) = endOf token.span.stop rest :=
  rfl

/-- Tokens in two parts end where the second part does that begins where the first one ends. -/
@[simp]
theorem endOf_append (start : Nat) (first second : List Token)
    : endOf start (first ++ second) = endOf (endOf start first) second := by
  simp [endOf, List.foldl_append]

/-- Where tokens end, only the last one tells. -/
theorem endOf_eq_getLast? (start : Nat) (tokens : List Token)
    : endOf start tokens = (tokens.getLast?.map fun token => token.span.stop).getD start := by
  induction tokens generalizing start with
  | nil => rfl
  | cons token rest ih =>
      rw [endOf_cons, ih, List.getLast?_cons]
      cases rest.getLast? <;> rfl

theorem stop_getElem_length (first : Token) (rest : List Token)
    (inside : rest.length < (first :: rest).length)
    : (first :: rest)[rest.length].span.stop = endOf first.span.stop rest := by
  induction rest generalizing first with
  | nil => rfl
  | cons second rest ih => exact ih second (by simp)

end Token

/-- The stretch of text from the first token to the last. -/
def Token.spanOf : List Token → Span
  | [] => Span.point 0
  | first :: rest =>
      {
        start := first.span.start
        stop := Token.endOf first.span.stop rest
      }

/-- Each of the tokens is read, in its mode, where the one before it ends. -/
def ReadInTurn (source : List Char) : Nat → List BufferedToken → Prop
  | _, [] => True
  | offset, buffered :: rest =>
      Token.read? source buffered.mode offset = some buffered.token
      ∧ ReadInTurn source buffered.token.span.stop rest

/-- Tokens in two parts are read in turn if each part is from where it begins. -/
theorem readInTurn_append {source : List Char} {offset : Nat} {first second : List BufferedToken}
    : ReadInTurn source offset (first ++ second)
      ↔ ReadInTurn source offset first
        ∧ ReadInTurn source (Token.endOf offset (first.map BufferedToken.token)) second := by
  induction first generalizing offset with
  | nil => simp [ReadInTurn]
  | cons buffered rest ih => simp [ReadInTurn, ih, and_assoc]

/-- After tokens that are read in turn, there is a token to read. -/
theorem ReadInTurn.isBoundary {source : List Char} {offset : Nat} {tokens : List BufferedToken}
    (read : ReadInTurn source offset tokens) (boundary : Text.IsBoundary source offset)
    : Text.IsBoundary source (Token.endOf offset (tokens.map BufferedToken.token)) := by
  induction tokens generalizing offset with
  | nil => exact boundary
  | cons buffered rest ih => exact ih read.2 (Token.isBoundary_stop read.1)

namespace ParserState

/-- The tokens in the buffer. -/
def buffer (state : ParserState) : List Token :=
  state.tokens.toList.map BufferedToken.token

/-- The tokens that are consumed. -/
def consumed (state : ParserState) : List Token :=
  state.buffer.take state.next

/-- The state of a parser at work: its buffer holds what the lexer reads, up to where the lexer goes on,
and includes all that is consumed.
-/
structure Consistent (state : ParserState) : Prop where
  next_le : state.next ≤ state.tokens.size
  read : ReadInTurn state.source 0 state.tokens.toList
  offset_eq : state.offset = Token.endOf 0 state.buffer

/-- A fresh parser is consistent. -/
theorem consistent_ofSource (source : List Char) (dialect : Dialect)
    : (ofSource source dialect).Consistent :=
  ⟨Nat.le_refl 0, trivial, rfl⟩

theorem length_buffer (state : ParserState) : state.buffer.length = state.tokens.size := by
  simp [buffer]

/-- The place in the buffer counts the consumed tokens. -/
theorem Consistent.length_consumed {state : ParserState} (consistent : state.Consistent)
    : state.consumed.length = state.next := by
  rw [consumed, List.length_take, length_buffer]
  exact Nat.min_eq_left consistent.next_le

/-- The consumed part of the buffer was read in turn. -/
theorem Consistent.readInTurn_take {state : ParserState} (consistent : state.Consistent)
    (count : Nat)
    : ReadInTurn state.source 0 (state.tokens.toList.take count) := by
  have read := consistent.read
  rw [← List.take_append_drop count state.tokens.toList, readInTurn_append] at read
  exact read.1

/-- Going back forgets the tokens from the place on. -/
theorem buffer_resetTo (state : ParserState) (index : Nat)
    : (state.resetTo index).buffer = state.buffer.take index := by
  simp [buffer, resetTo]

/-- Going back puts the lexer where the last token that is kept ends. -/
theorem offset_resetTo (state : ParserState) (index : Nat)
    : (state.resetTo index).offset = Token.endOf 0 (state.buffer.take index) := by
  have last
      : (state.buffer.take index).getLast?
        = (state.tokens.extract 0 index).back?.map BufferedToken.token := by
    rw [← Array.getLast?_toList, ← List.getLast?_map]
    simp [buffer]
  rw [Token.endOf_eq_getLast?, last]
  simp only [resetTo]
  cases (state.tokens.extract 0 index).back? <;> rfl

/-- Forgetting the tokens that are not consumed changes nothing but the buffer. -/
theorem Consistent.resetTo {state : ParserState} (consistent : state.Consistent)
    : (state.resetTo state.next).Consistent := by
  refine ⟨?_, ?_, ?_⟩
  · have := consistent.next_le
    simp only [ParserState.resetTo, Array.size_extract]
    omega
  · simpa [ParserState.resetTo] using consistent.readInTurn_take state.next
  · rw [offset_resetTo, buffer_resetTo]

/-- Forgetting what is not consumed leaves what is. -/
theorem consumed_resetTo (state : ParserState)
    : (state.resetTo state.next).consumed = state.consumed := by
  rw [consumed, buffer_resetTo, consumed, List.take_take]
  simp [resetTo]

/-- What looking at the next token in a mode amounts to: the token read where the last consumed one
ends is next in the buffer, and nothing else has changed.
-/
structure Fetched (state : ParserState) (mode : LexMode) (token : Token) (after : ParserState)
    : Prop where
  consistent : after.Consistent
  source_eq : after.source = state.source
  dialect_eq : after.dialect = state.dialect
  bound_eq : after.bound = state.bound
  consumed_eq : after.consumed = state.consumed
  next_eq : after.next = state.next
  read : Token.read? state.source mode (Token.endOf 0 state.consumed) = some token
  buffered : after.buffer[state.next]? = some token

/-- If all buffered tokens are consumed, the lexer reads the next one into the buffer. -/
theorem Consistent.fetched_of_fill {state : ParserState} (consistent : state.Consistent)
    (exhausted : state.tokens.size = state.next) (mode : LexMode)
    : ∃ token after, state.fill mode = .ok after ∧ state.Fetched mode token after := by
  have all : state.consumed = state.buffer := by
    rw [consumed, ← exhausted, ← length_buffer, List.take_length]
  have boundary : Text.IsBoundary state.source (Token.endOf 0 state.buffer) :=
    consistent.read.isBoundary ⟨state.source, by simp [Text.drop?]⟩
  obtain ⟨token, read⟩ := Token.exists_read? mode boundary
  refine ⟨token, _, by rw [fill, if_pos exhausted, consistent.offset_eq, read], ?_⟩
  have pushed
      : ({ state with
            tokens := state.tokens.push { token, mode }
            offset := token.span.stop } : ParserState).buffer
        = state.buffer ++ [token] := by
    simp [buffer]
  refine ⟨⟨?_, ?_, ?_⟩, rfl, rfl, rfl, ?_, rfl, all ▸ read, ?_⟩
  · simp only [Array.size_push]
    omega
  · simp only [Array.toList_push]
    exact readInTurn_append.mpr ⟨consistent.read, read, trivial⟩
  · simp [pushed]
  · rw [consumed, pushed, List.take_append_of_le_length (by rw [length_buffer, exhausted])]
    rfl
  · rw [pushed, ← exhausted, ← length_buffer]
    simp

/-- The buffered tokens before and after the next one. -/
theorem split_buffered {state : ParserState} {buffered : BufferedToken}
    (found : state.tokens[state.next]? = some buffered)
    : state.tokens.toList
      = state.tokens.toList.take state.next
        ++ buffered :: state.tokens.toList.drop (state.next + 1) := by
  rw [← Array.getElem?_toList] at found
  obtain ⟨bound, rfl⟩ := List.getElem?_eq_some_iff.mp found
  rw [← List.drop_eq_getElem_cons bound, List.take_append_drop]

/-- The next buffered token was read, in its mode, where the last consumed token ends. -/
theorem Consistent.read_buffered {state : ParserState} (consistent : state.Consistent)
    {buffered : BufferedToken} (found : state.tokens[state.next]? = some buffered)
    : Token.read? state.source buffered.mode (Token.endOf 0 state.consumed)
      = some buffered.token := by
  have read := consistent.read
  rw [split_buffered found, readInTurn_append, List.map_take] at read
  exact read.2.1

/-- Whether the next token is to be reread can always be told, for it begins between characters. -/
theorem Consistent.exists_needsRereading {state : ParserState} (consistent : state.Consistent)
    (mode : LexMode)
    : ∃ reread, state.needsRereading mode = .ok reread := by
  unfold needsRereading
  split
  next => exact ⟨false, rfl⟩
  next buffered found =>
    obtain ⟨_, _, _, _, _, lies, _⟩ := Token.read?_eq_some (consistent.read_buffered found)
    rw [lies.drop?_start]
    split
    next => exact ⟨false, rfl⟩
    next => exact ⟨_, rfl⟩

/-- A buffered token that needs no rereading is what the lexer reads in the mode. -/
theorem Consistent.read_of_buffered {state : ParserState} (consistent : state.Consistent)
    {mode : LexMode} {buffered : BufferedToken} (found : state.tokens[state.next]? = some buffered)
    (kept : state.needsRereading mode = .ok false)
    : Token.read? state.source mode (Token.endOf 0 state.consumed) = some buffered.token := by
  have read := consistent.read_buffered found
  by_cases same : buffered.mode = mode
  · exact same ▸ read
  · refine Token.read?_mode mode read fun rest slash => ?_
    simp [needsRereading, found, same, slash] at kept

/-- Filling the buffer makes the next token the one read in the mode, unless it is to be reread. -/
theorem Consistent.fetched_of_kept {state : ParserState} (consistent : state.Consistent)
    {mode : LexMode} (kept : state.needsRereading mode = .ok false)
    : ∃ token after, state.fill mode = .ok after ∧ state.Fetched mode token after := by
  by_cases exhausted : state.tokens.size = state.next
  · exact consistent.fetched_of_fill exhausted mode
  · have bound : state.next < state.tokens.size := by
      have := consistent.next_le
      omega
    have found := Array.getElem?_eq_getElem bound
    refine ⟨state.tokens[state.next].token, state, by rw [fill, if_neg exhausted], ?_⟩
    refine ⟨consistent, rfl, rfl, rfl, rfl, rfl, consistent.read_of_buffered found kept, ?_⟩
    simp [buffer, found]

/-- The token that was fetched is the next one in the buffer. -/
theorem Fetched.exists_buffered {state : ParserState} {mode : LexMode} {token : Token}
    {after : ParserState} (fetched : state.Fetched mode token after)
    : ∃ buffered, after.tokens[after.next]? = some buffered ∧ buffered.token = token := by
  have next := fetched.buffered
  rw [← fetched.next_eq, buffer, List.getElem?_map, Array.getElem?_toList] at next
  exact Option.map_eq_some_iff.mp next

/-- Looking at the next token never fails. -/
theorem Consistent.fetched {state : ParserState} (consistent : state.Consistent) (mode : LexMode)
    : ∃ token after, state.fetch mode = .ok (token, after) ∧ state.Fetched mode token after := by
  obtain ⟨reread, told⟩ := consistent.exists_needsRereading mode
  cases reread with
  | true =>
      -- Forgetting the token and those after it leaves nothing to reread.
      have kept : (state.resetTo state.next).needsRereading mode = .ok false := by
        have none : (state.tokens.extract 0 state.next)[state.next]? = none :=
          Array.getElem?_eq_none (by rw [Array.size_extract]; omega)
        simp only [needsRereading, ParserState.resetTo, none]
      obtain ⟨token, after, filled, fetched⟩ := consistent.resetTo.fetched_of_kept kept
      obtain ⟨buffered, found, rfl⟩ := fetched.exists_buffered
      refine ⟨buffered.token, after, by simp [fetch, told, filled, found], ?_⟩
      exact {
        consistent := fetched.consistent
        source_eq := fetched.source_eq
        dialect_eq := fetched.dialect_eq
        bound_eq := fetched.bound_eq
        consumed_eq := fetched.consumed_eq.trans (consumed_resetTo state)
        next_eq := fetched.next_eq
        read := consumed_resetTo state ▸ fetched.read
        buffered := fetched.buffered
      }
  | false =>
      obtain ⟨token, after, filled, fetched⟩ := consistent.fetched_of_kept told
      obtain ⟨buffered, found, rfl⟩ := fetched.exists_buffered
      exact ⟨buffered.token, after, by simp [fetch, told, filled, found], fetched⟩

/-- Consuming the token that was looked at. -/
theorem Fetched.consume {state : ParserState} {mode : LexMode} {token : Token}
    {after : ParserState} (fetched : state.Fetched mode token after)
    : ({ after with next := after.next + 1 } : ParserState).Consistent
      ∧ ({ after with next := after.next + 1 } : ParserState).consumed
        = state.consumed ++ [token] := by
  have found := fetched.buffered
  rw [← fetched.next_eq] at found
  have bound : after.next < after.buffer.length := (List.getElem?_eq_some_iff.mp found).choose
  constructor
  · refine ⟨?_, fetched.consistent.read, fetched.consistent.offset_eq⟩
    rw [length_buffer] at bound
    exact bound
  · change after.buffer.take (after.next + 1) = _
    rw [List.take_add_one, found, ← fetched.consumed_eq]
    rfl

/-- Every place in the buffer can be gone to. -/
theorem Consistent.goTo {state : ParserState} (consistent : state.Consistent) {checkpoint : Nat}
    (reached : checkpoint ≤ state.tokens.size)
    : ({ state with next := checkpoint } : ParserState).Consistent :=
  ⟨reached, consistent.read, consistent.offset_eq⟩

/-- Going back to a checkpoint keeps as much of what is consumed. -/
theorem Consistent.restore {state : ParserState} (consistent : state.Consistent)
    {checkpoint : Nat} (behind : checkpoint ≤ state.next)
    : ({ state with next := checkpoint } : ParserState).Consistent
      ∧ ({ state with next := checkpoint } : ParserState).consumed
        = state.consumed.take checkpoint := by
  refine ⟨consistent.goTo (behind.trans consistent.next_le), ?_⟩
  rw [consumed, consumed, List.take_take, Nat.min_eq_left behind]
  rfl

end ParserState

end EcmaSyntax
