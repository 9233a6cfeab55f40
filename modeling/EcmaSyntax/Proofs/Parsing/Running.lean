import EcmaSyntax.Proofs.Token.Cursor

/-! What parsers do on tokens that they accept. These rules say when a parser that starts where the
consumed tokens end accepts, and which result it gives and which tokens it consumes then.
-/

namespace EcmaSyntax.Parser

/-- The parser accepts at the offset, consumes the tokens and gives the value. -/
def Runs {α : Type} (script : Script) (parser : Parser α) (offset : Nat) (tokens : List Token)
    (value : α)
    : Prop :=
  ∀ state consumed,
    state.Shows script consumed →
    Token.endOf 0 consumed = offset →
    ∃ after, parser state = .ok value after ∧ after.Shows script (consumed ++ tokens)

namespace Runs

variable {α β : Type} {script : Script} {offset : Nat} {tokens more : List Token}

-----------------------------------------------------------------------------------------
-- Sequences
-----------------------------------------------------------------------------------------

/-- Giving a value runs without a token. -/
theorem pure (value : α) : Runs script (pure value) offset [] value := by
  intro state consumed shows ends
  exact ⟨state, rfl, by simpa using shows⟩

/-- The second parser starts where the tokens of the first end. -/
theorem bind {parser : Parser α} {next : α → Parser β} {middle : α} {value : β}
    (first : Runs script parser offset tokens middle)
    (second : Runs script (next middle) (Token.endOf offset tokens) more value)
    : Runs script (parser >>= next) offset (tokens ++ more) value := by
  intro state consumed shows ends
  obtain ⟨between, ranFirst, shown⟩ := first _ _ shows ends
  obtain ⟨after, ranSecond, last⟩ := second _ _ shown (by rw [Token.endOf_append, ends])
  exact ⟨after, bind_eq_ok.mpr ⟨middle, between, ranFirst, ranSecond⟩, by rwa [← List.append_assoc]⟩

/-- A parser that consumes nothing leaves the tokens to the next one. -/
theorem bind_of_nil {parser : Parser α} {next : α → Parser β} {middle : α} {value : β}
    (first : Runs script parser offset [] middle)
    (second : Runs script (next middle) offset tokens value)
    : Runs script (parser >>= next) offset tokens value :=
  first.bind second

/-- A run gives the mapped value if the value is mapped. -/
theorem map {parser : Parser α} {value : α} (f : α → β)
    (runs : Runs script parser offset tokens value)
    : Runs script (f <$> parser) offset tokens (f value) := by
  intro state consumed shows ends
  obtain ⟨after, ran, shown⟩ := runs _ _ shows ends
  exact ⟨after, map_of_ok f ran, shown⟩

/-- Nothing is consumed after the last part of a production. -/
theorem bind_pure {parser : Parser α} {value : α} {next : α → Parser β} {result : β}
    (runs : Runs script parser offset tokens value)
    (last : ∀ end_, Runs script (next value) end_ [] result)
    : Runs script (parser >>= next) offset tokens result := by
  rw [← List.append_nil tokens]
  exact runs.bind (last _)

theorem discard {parser : Parser α} {value : α} (runs : Runs script parser offset tokens value)
    : Runs script (discard parser) offset tokens ⟨⟩ :=
  runs.map fun _ => PUnit.unit

-----------------------------------------------------------------------------------------
-- Tokens
-----------------------------------------------------------------------------------------

variable {token : Token}

/-- Looking at the token that is read next runs without consuming it. -/
theorem peek {mode : LexMode} (read : script.Reads mode offset token)
    : Runs script (Parser.peek mode) offset [] token := by
  rintro state consumed shows rfl
  obtain ⟨found, after, ran, readFound, stays, _⟩ := peek_shows shows mode
  obtain rfl := read.unique readFound
  exact ⟨after, ran, by simpa using stays⟩

/-- The token that is read next can be consumed. -/
theorem consume {mode : LexMode} (read : script.Reads mode offset token)
    : Runs script (Parser.consume mode) offset [token] token := by
  rintro state consumed shows rfl
  obtain ⟨found, after, ran, readFound, last⟩ := consume_shows shows mode
  obtain rfl := read.unique readFound
  exact ⟨after, ran, last⟩

/-- The token that is read next can be required to be of its kind. -/
theorem require {kind : Kind} {mode : LexMode} (read : script.Reads mode offset token)
    (same : token.kind = kind)
    : Runs script (Parser.require kind mode) offset [token] token := by
  unfold Parser.require
  refine (consume read).bind_pure fun _ => ?_
  rw [if_pos same]
  exact pure token

/-- A token of the kind is accepted. -/
theorem accept_taken {kind : Kind} (read : script.Reads .standard offset token)
    (same : token.kind = kind)
    : Runs script (accept kind) offset [token] true := by
  rintro state consumed shows rfl
  obtain ⟨found, after, ran, readFound, shown⟩ := accept_shows shows kind
  obtain rfl := read.unique readFound
  rw [if_pos same] at shown
  rw [decide_eq_true same] at ran
  exact ⟨after, ran, shown⟩

/-- A token of another kind is left. -/
theorem accept_left {kind : Kind} (read : script.Reads .standard offset token)
    (other : token.kind ≠ kind)
    : Runs script (accept kind) offset [] false := by
  rintro state consumed shows rfl
  obtain ⟨found, after, ran, readFound, shown⟩ := accept_shows shows kind
  obtain rfl := read.unique readFound
  rw [if_neg other] at shown
  rw [decide_eq_false other] at ran
  exact ⟨after, ran, by simpa using shown⟩

theorem bind_peek {mode : LexMode} {next : Token → Parser β} {value : β}
    (read : script.Reads mode offset token)
    (onward : Runs script (next token) offset tokens value)
    : Runs script (Parser.peek mode >>= next) offset tokens value :=
  (peek read).bind_of_nil onward

/-- A run behind a token goes on from its end. -/
theorem bind_consume {mode : LexMode} {next : Token → Parser β} {value : β}
    (read : script.Reads mode offset token)
    (onward : Runs script (next token) token.span.stop tokens value)
    : Runs script (Parser.consume mode >>= next) offset (token :: tokens) value :=
  (consume read).bind onward

theorem bind_discard_consume {mode : LexMode} {next : PUnit → Parser β} {value : β}
    (read : script.Reads mode offset token)
    (onward : Runs script (next ⟨⟩) token.span.stop tokens value)
    : Runs script (Functor.discard (Parser.consume mode) >>= next) offset (token :: tokens) value :=
  (discard (consume read)).bind onward

theorem bind_require {kind : Kind} {mode : LexMode} {next : Token → Parser β} {value : β}
    (read : script.Reads mode offset token) (same : token.kind = kind)
    (onward : Runs script (next token) token.span.stop tokens value)
    : Runs script (Parser.require kind mode >>= next) offset (token :: tokens) value :=
  (require read same).bind onward

/-- A run behind a token of a kind that is asked for goes on from its end. -/
theorem bind_requireSome {condition : Kind → Bool} {expected : String} {next : Token → Parser β}
    {value : β} (read : script.Reads .standard offset token) (holds : condition token.kind)
    (onward : Runs script (next token) token.span.stop tokens value)
    : Runs script (requireSome condition expected >>= next) offset (token :: tokens) value := by
  have found : Runs script (requireSome condition expected) offset [token] token := by
    refine bind_consume read ?_
    rw [if_pos holds]
    exact pure token
  exact found.bind onward

theorem bind_discard_require {kind : Kind} {mode : LexMode} {next : PUnit → Parser β} {value : β}
    (read : script.Reads mode offset token) (same : token.kind = kind)
    (onward : Runs script (next ⟨⟩) token.span.stop tokens value)
    : Runs script (Functor.discard (Parser.require kind mode) >>= next) offset (token :: tokens)
        value :=
  (discard (require read same)).bind onward

/-- Where a token of the kind is read, the run goes on behind it. -/
theorem bind_accept_taken {kind : Kind} {next : Bool → Parser β} {value : β}
    (read : script.Reads .standard offset token) (same : token.kind = kind)
    (onward : Runs script (next true) token.span.stop tokens value)
    : Runs script (accept kind >>= next) offset (token :: tokens) value :=
  (accept_taken read same).bind onward

/-- Where a token of another kind is read, the run goes on in front of it. -/
theorem bind_accept_left {kind : Kind} {next : Bool → Parser β} {value : β}
    (read : script.Reads .standard offset token) (other : token.kind ≠ kind)
    (onward : Runs script (next false) offset tokens value)
    : Runs script (accept kind >>= next) offset tokens value :=
  (accept_left read other).bind_of_nil onward

-----------------------------------------------------------------------------------------
-- Checkpoints
-----------------------------------------------------------------------------------------

/-- Two tokens can be looked at, where both are read. -/
theorem bind_peekMany_two {next : List Token → Parser β} {first second : Token} {value : β}
    (readFirst : script.Reads .standard offset first)
    (readSecond : script.Reads .standard first.span.stop second)
    (onward : Runs script (next [first, second]) offset tokens value)
    : Runs script (peekMany 2 >>= next) offset tokens value := by
  intro state consumed shows ends
  have many : Runs script (consumeMany 2) offset [first, second] [first, second] :=
    bind_consume readFirst
      ((bind_consume readSecond (pure [second])).bind_pure fun _ => pure [first, second])
  obtain ⟨last, ran, shown⟩ := many _ _ shows ends
  obtain ⟨back, ranBack, restored⟩ := restore_shows shown consumed.length (by simp)
  have looked : peekMany 2 state = .ok [first, second] back := by
    unfold peekMany
    rw [bind_of_ok _ (checkpoint_shows shows), bind_of_ok _ ran, bind_of_ok _ ranBack]
    rfl
  obtain ⟨after, ranNext, final⟩ := onward back consumed (by simpa using restored) ends
  exact ⟨after, (bind_of_ok _ looked).trans ranNext, final⟩

/-- What a probe consumes is read again behind it, since the place is restored. -/
theorem lookahead {probe : Parser α} {next : α → Parser β} {answer : α} {value : β}
    (probed : Runs script probe offset more answer)
    (onward : Runs script (next answer) offset tokens value)
    : Runs script
        (checkpoint >>= fun start => probe >>= fun value => restore start >>= fun _ => next value)
        offset tokens value := by
  intro state consumed shows ends
  obtain ⟨between, ranProbe, shown⟩ := probed _ _ shows ends
  obtain ⟨back, ranBack, restored⟩ := restore_shows shown consumed.length (by simp)
  obtain ⟨after, ranNext, last⟩ := onward back consumed (by simpa using restored) ends
  refine ⟨after, ?_, last⟩
  rw [bind_of_ok _ (checkpoint_shows shows), bind_of_ok _ ranProbe, bind_of_ok _ ranBack, ranNext]

/-- A run that consumes tokens builds its value from their span. -/
theorem spanned {parser : Parser (Span → α)} {build : Span → α} {span : Span}
    (spans : Token.spanOf tokens = span) (present : tokens ≠ [])
    (runs : Runs script parser offset tokens build)
    : Runs script (Parser.spanned parser) offset tokens (build span) := by
  subst spans
  intro state consumed shows ends
  obtain ⟨after, ran, shown⟩ := runs _ _ shows ends
  refine ⟨after, ?_, shown⟩
  unfold Parser.spanned
  rw [bind_of_ok _ (checkpoint_shows shows), bind_of_ok _ ran, bind_of_ok _ (since_shows shown present)]
  rfl

/-- The parser accepts after the token, which was consumed since the checkpoint that it is given, and
the tokens are all that is consumed since that checkpoint.
-/
def After (script : Script) (token : Token) (parser : Nat → Parser α) (offset : Nat)
    (tokens : List Token) (value : α)
    : Prop :=
  ∀ state consumed,
    state.Shows script (consumed ++ [token]) →
    Token.endOf 0 consumed = offset →
    ∃ after, parser consumed.length state = .ok value after ∧ after.Shows script (consumed ++ tokens)

/-- A run from a checkpoint and a token on spans from the token on. -/
theorem bind_checkpoint_consume {next : Nat → Token → Parser α} {value : α}
    (read : script.Reads .standard offset token)
    (onward : After script token (fun start => next start token) offset tokens value)
    : Runs script (checkpoint >>= fun start => Parser.consume >>= next start) offset tokens value := by
  intro state consumed shows ends
  obtain ⟨between, ran, shown⟩ := consume read _ _ shows ends
  obtain ⟨after, ranNext, last⟩ := onward between consumed shown ends
  refine ⟨after, ?_, last⟩
  rw [bind_of_ok _ (checkpoint_shows shows), bind_of_ok _ ran]
  exact ranNext

namespace After

/-- The token stays consumed. -/
theorem keep {parser : Parser α} {value : α}
    (runs : Runs script parser token.span.stop tokens value)
    : After script token (fun _ => parser) offset (token :: tokens) value := by
  intro state consumed shows _
  obtain ⟨after, ran, shown⟩ := runs _ _ shows (by simp)
  exact ⟨after, ran, by simpa using shown⟩

/-- The token is gone back over. -/
theorem back {parser : Parser α} {value : α} (runs : Runs script parser offset tokens value)
    : After script token (fun start => restore start >>= fun _ => parser) offset tokens value := by
  intro state consumed shows ends
  obtain ⟨between, ranBack, restored⟩ := restore_shows shows consumed.length (by simp)
  obtain ⟨after, ran, shown⟩ := runs between consumed (by simpa using restored) ends
  exact ⟨after, (bind_of_ok _ ranBack).trans ran, shown⟩

theorem bind {parser : Nat → Parser α} {next : α → Parser β} {middle : α} {value : β}
    (first : After script token parser offset tokens middle)
    (second : Runs script (next middle) (Token.endOf offset tokens) more value)
    : After script token (fun start => parser start >>= next) offset (tokens ++ more) value := by
  intro state consumed shows ends
  obtain ⟨between, ranFirst, shown⟩ := first _ _ shows ends
  obtain ⟨after, ranSecond, last⟩ := second _ _ shown (by rw [Token.endOf_append, ends])
  exact ⟨after, bind_eq_ok.mpr ⟨middle, between, ranFirst, ranSecond⟩, by rwa [← List.append_assoc]⟩

end After

-----------------------------------------------------------------------------------------
-- The text and the dialect
-----------------------------------------------------------------------------------------

/-- The bound on repetitions exceeds the length of the text. -/
theorem bind_repetitions {next : Nat → Parser β} {value : β}
    (onward : ∀ bound > script.source.length, Runs script (next bound) offset tokens value)
    : Runs script (repetitions >>= next) offset tokens value :=
  fun state consumed shows ends => onward state.bound shows.bound_gt state consumed shows ends

/-- The text of a token that was read can be looked up anywhere. -/
theorem textAt {mode : LexMode} {place : Nat} (read : script.Reads mode place token)
    : Runs script (Parser.textAt token.span) offset [] (script.textOf token.span) := by
  intro state consumed shows ends
  refine ⟨state, ?_, by simpa using shows⟩
  unfold Parser.textAt
  rw [bind_of_ok _ (rfl : (get : Parser ParserState) state = .ok state state), shows.source_eq,
    read.slice?]
  rfl

/-- The name of a token that was read can be read. -/
theorem nameAt {mode : LexMode} {place : Nat} (read : script.Reads mode place token)
    : Runs script (Parser.nameAt token.span) offset [] (script.nameOf token) :=
  (textAt read).bind_of_nil (pure _)

/-- A run behind an identifier goes on with its name. -/
theorem bind_requireIdentifier {next : String → Parser β} {value : β}
    (read : script.Reads .standard offset token) (named : token.kind = .identifier)
    (onward : Runs script (next (script.nameOf token)) token.span.stop tokens value)
    : Runs script (requireIdentifier >>= next) offset (token :: tokens) value := by
  have name : Runs script requireIdentifier offset [token] (script.nameOf token) := by
    refine bind_consume read ?_
    rw [if_pos named]
    exact nameAt read
  exact name.bind onward

/-- A word that the dialect does not reserve passes the check. -/
theorem checkReserved (allowed : isReservedIn script.dialect token.kind = false)
    : Runs script (Parser.checkReserved token) offset [] ⟨⟩ := by
  intro state consumed shows ends
  refine ⟨state, ?_, by simpa using shows⟩
  unfold Parser.checkReserved
  rw [bind_of_ok _ (rfl : (get : Parser ParserState) state = .ok state state), shows.dialect_eq,
    if_neg (by simp [allowed])]
  rfl

end Runs

end EcmaSyntax.Parser
