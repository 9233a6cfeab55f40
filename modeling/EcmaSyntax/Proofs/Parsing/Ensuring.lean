import EcmaSyntax.Proofs.Token.Cursor

/-! What parsers ensure if they accept. A parser that starts where the consumed tokens end consumes more
of them, and its result and these tokens are related.
-/

namespace EcmaSyntax.Parser

/-- If the parser accepts at the offset, the relation holds of its result and the tokens it consumes. -/
def Ensures {α : Type} (script : Script) (parser : Parser α) (offset : Nat)
    (relation : α → List Token → Prop)
    : Prop :=
  ∀ state consumed value after,
    state.Shows script consumed →
    Token.endOf 0 consumed = offset →
    parser state = .ok value after →
    ∃ tokens, after.Shows script (consumed ++ tokens) ∧ relation value tokens

namespace Ensures

variable {α β : Type} {script : Script} {offset : Nat}

-----------------------------------------------------------------------------------------
-- Sequences
-----------------------------------------------------------------------------------------

/-- What a parser ensures may be weakened. -/
theorem mono {parser : Parser α} {relation weaker : α → List Token → Prop}
    (ensures : Ensures script parser offset relation)
    (weaken : ∀ value tokens, relation value tokens → weaker value tokens)
    : Ensures script parser offset weaker := by
  intro state consumed value after shows ends ran
  obtain ⟨tokens, shown, related⟩ := ensures _ _ _ _ shows ends ran
  exact ⟨tokens, shown, weaken value tokens related⟩

/-- Two relations hold of the same tokens. -/
theorem and {parser : Parser α} {relation another : α → List Token → Prop}
    (ensures : Ensures script parser offset relation)
    (too : Ensures script parser offset another)
    : Ensures script parser offset fun value tokens =>
        relation value tokens ∧ another value tokens := by
  intro state consumed value after shows ends ran
  obtain ⟨tokens, shown, related⟩ := ensures _ _ _ _ shows ends ran
  obtain ⟨more, shown', related'⟩ := too _ _ _ _ shows ends ran
  obtain rfl : tokens = more :=
    List.append_cancel_left (shown.consumed_eq.symm.trans shown'.consumed_eq)
  exact ⟨tokens, shown, related, related'⟩

/-- A parser that only gives a value consumes nothing. -/
theorem pure {value : α} {relation : α → List Token → Prop} (related : relation value [])
    : Ensures script (pure value) offset relation := by
  intro state consumed result after shows ends ran
  cases ran
  exact ⟨[], by simpa using shows, related⟩

/-- A parser that rejects ensures anything, since it gives no value. -/
theorem reject {error : SyntaxError} {relation : α → List Token → Prop}
    : Ensures script (Parser.reject error) offset relation := by
  intro state consumed result after shows ends ran
  cases ran

/-- What comes after a rejection is never reached. -/
theorem bind_reject {error : SyntaxError} {next : α → Parser β} {relation : β → List Token → Prop}
    : Ensures script (Parser.reject error >>= next) offset relation := by
  intro state consumed result after shows ends ran
  cases ran

/-- A parser that faults ensures anything, since it gives no value. -/
theorem fault {cause : Fault} {relation : α → List Token → Prop}
    : Ensures script (Parser.fault cause) offset relation := by
  intro state consumed result after shows ends ran
  cases ran

theorem bind_fault {cause : Fault} {next : α → Parser β} {relation : β → List Token → Prop}
    : Ensures script (Parser.fault cause >>= next) offset relation := by
  intro state consumed result after shows ends ran
  cases ran

/-- The second parser starts where the tokens of the first end. -/
theorem bind {parser : Parser α} {next : α → Parser β} {first : α → List Token → Prop}
    {relation : β → List Token → Prop} (ensures : Ensures script parser offset first)
    (onward
      : ∀ value tokens,
          first value tokens →
          Ensures script (next value) (Token.endOf offset tokens)
            fun result more => relation result (tokens ++ more))
    : Ensures script (parser >>= next) offset relation := by
  intro state consumed value after shows ends ran
  obtain ⟨middle, between, ranFirst, ranNext⟩ := bind_eq_ok.mp ran
  obtain ⟨tokens, shown, related⟩ := ensures _ _ _ _ shows ends ranFirst
  obtain ⟨more, last, result⟩ :=
    onward middle tokens related _ _ _ _ shown (by rw [Token.endOf_append, ends]) ranNext
  exact ⟨tokens ++ more, by rwa [← List.append_assoc], result⟩

/-- A parser whose value is mapped ensures of the mapped value what it ensured of the first one. -/
theorem map {parser : Parser α} {f : α → β} {relation : β → List Token → Prop}
    (ensures : Ensures script parser offset fun value tokens => relation (f value) tokens)
    : Ensures script (f <$> parser) offset relation := by
  rw [← bind_pure_comp]
  refine ensures.bind fun value tokens related => pure ?_
  simpa using related

theorem discard {parser : Parser α} {relation : PUnit → List Token → Prop}
    (ensures : Ensures script parser offset fun _ tokens => relation ⟨⟩ tokens)
    : Ensures script (discard parser) offset relation :=
  map ensures

/-- Of a parser whose value is discarded the tokens still stand in front. -/
theorem bind_discard {parser : Parser α} {next : PUnit → Parser β} {first : α → List Token → Prop}
    {relation : β → List Token → Prop} (ensures : Ensures script parser offset first)
    (onward
      : ∀ value tokens,
          first value tokens →
          Ensures script (next ⟨⟩) (Token.endOf offset tokens)
            fun result more => relation result (tokens ++ more))
    : Ensures script (Functor.discard parser >>= next) offset relation := by
  have discards
      : Ensures script (Functor.discard parser) offset fun _ tokens => ∃ value, first value tokens :=
    discard (ensures.mono fun value tokens related => ⟨value, related⟩)
  exact discards.bind fun _ tokens ⟨value, related⟩ => onward value tokens related

-----------------------------------------------------------------------------------------
-- Tokens
-----------------------------------------------------------------------------------------

/-- Looking at the next token consumes nothing. -/
theorem peek (mode : LexMode)
    : Ensures script (Parser.peek mode) offset fun token tokens =>
        tokens = [] ∧ script.Reads mode offset token := by
  rintro state consumed token after shows rfl ran
  obtain ⟨_, shown, found, read, stays, _⟩ := peek_shows shows mode
  cases found.symm.trans ran
  exact ⟨[], by simpa using stays, rfl, read⟩

/-- Consuming a token gives the token that is read at the place. -/
theorem consume (mode : LexMode)
    : Ensures script (Parser.consume mode) offset fun token tokens =>
        tokens = [token] ∧ script.Reads mode offset token := by
  rintro state consumed token after shows rfl ran
  obtain ⟨_, shown, found, read, last⟩ := consume_shows shows mode
  cases found.symm.trans ran
  exact ⟨[token], last, rfl, read⟩

/-- Behind a look at the next token, a parser may take for granted that it is read there. -/
theorem bind_peek {mode : LexMode} {next : Token → Parser β} {relation : β → List Token → Prop}
    (onward : ∀ token, script.Reads mode offset token → Ensures script (next token) offset relation)
    : Ensures script (Parser.peek mode >>= next) offset relation := by
  refine (peek mode).bind ?_
  rintro token _ ⟨rfl, read⟩
  exact onward token read

/-- Behind a token that was consumed, a parser goes on at its end. -/
theorem bind_consume {mode : LexMode} {next : Token → Parser β}
    {relation : β → List Token → Prop}
    (onward
      : ∀ token,
          script.Reads mode offset token →
          Ensures script (next token) token.span.stop
            fun result more => relation result (token :: more))
    : Ensures script (Parser.consume mode >>= next) offset relation := by
  refine (consume mode).bind ?_
  rintro token _ ⟨rfl, read⟩
  exact onward token read

/-- Requiring a kind gives a token of that kind. -/
theorem require (kind : Kind) (mode : LexMode)
    : Ensures script (Parser.require kind mode) offset fun token tokens =>
        tokens = [token] ∧ script.Reads mode offset token ∧ token.kind = kind := by
  refine bind_consume fun token read => ?_
  split
  next same => exact pure ⟨rfl, read, same⟩
  next => split <;> exact reject

theorem bind_discard_consume {mode : LexMode} {next : PUnit → Parser β}
    {relation : β → List Token → Prop}
    (onward
      : ∀ token,
          script.Reads mode offset token →
          Ensures script (next ⟨⟩) token.span.stop
            fun result more => relation result (token :: more))
    : Ensures script (Functor.discard (Parser.consume mode) >>= next) offset relation := by
  refine bind_discard (consume mode) ?_
  rintro token _ ⟨rfl, read⟩
  exact onward token read

/-- Behind a token of a kind that is asked for, a parser goes on at its end. -/
theorem bind_requireSome {condition : Kind → Bool} {expected : String} {next : Token → Parser β}
    {relation : β → List Token → Prop}
    (onward
      : ∀ token,
          script.Reads .standard offset token →
          condition token.kind →
          Ensures script (next token) token.span.stop
            fun result more => relation result (token :: more))
    : Ensures script (requireSome condition expected >>= next) offset relation := by
  unfold requireSome
  rw [bind_assoc]
  refine bind_consume fun token read => ?_
  split
  next holds => exact onward token read holds
  next => exact bind_reject

theorem bind_require {kind : Kind} {mode : LexMode} {next : Token → Parser β}
    {relation : β → List Token → Prop}
    (onward
      : ∀ token,
          script.Reads mode offset token →
          token.kind = kind →
          Ensures script (next token) token.span.stop
            fun result more => relation result (token :: more))
    : Ensures script (Parser.require kind mode >>= next) offset relation := by
  refine (require kind mode).bind ?_
  rintro token _ ⟨rfl, read, same⟩
  exact onward token read same

theorem bind_discard_require {kind : Kind} {mode : LexMode} {next : PUnit → Parser β}
    {relation : β → List Token → Prop}
    (onward
      : ∀ token,
          script.Reads mode offset token →
          token.kind = kind →
          Ensures script (next ⟨⟩) token.span.stop
            fun result more => relation result (token :: more))
    : Ensures script (Functor.discard (Parser.require kind mode) >>= next) offset relation := by
  refine bind_discard (require kind mode) ?_
  rintro token _ ⟨rfl, read, same⟩
  exact onward token read same

/-- A token is consumed by condition on its kind. -/
theorem accept (kind : Kind)
    : Ensures script (Parser.accept kind) offset fun taken tokens =>
        ∃ token,
          script.Reads .standard offset token
          ∧ if token.kind = kind then taken = true ∧ tokens = [token] else taken = false ∧ tokens = [] := by
  rintro state consumed taken after shows rfl ran
  obtain ⟨token, between, found, read, shown⟩ := accept_shows shows kind
  cases found.symm.trans ran
  by_cases same : token.kind = kind
  · rw [if_pos same] at shown
    exact ⟨[token], shown, token, read, by simp [same]⟩
  · rw [if_neg same] at shown
    exact ⟨[], by simpa using shown, token, read, by simp [same]⟩

/-- Whether a token is accepted depends on its kind alone. -/
theorem bind_accept {kind : Kind} {next : Bool → Parser β} {relation : β → List Token → Prop}
    (taken
      : ∀ token,
          script.Reads .standard offset token →
          token.kind = kind →
          Ensures script (next true) token.span.stop
            fun result more => relation result (token :: more))
    (left
      : ∀ token,
          script.Reads .standard offset token →
          token.kind ≠ kind →
          Ensures script (next false) offset relation)
    : Ensures script (Parser.accept kind >>= next) offset relation := by
  refine (accept kind).bind ?_
  rintro answer tokens ⟨token, read, outcome⟩
  split at outcome
  next same =>
    obtain ⟨rfl, rfl⟩ := outcome
    exact taken token read same
  next other =>
    obtain ⟨rfl, rfl⟩ := outcome
    exact left token read other

/-- A token that may be missing. -/
theorem bind_discard_accept {kind : Kind} {next : PUnit → Parser β}
    {relation : β → List Token → Prop}
    (taken
      : ∀ token,
          script.Reads .standard offset token →
          token.kind = kind →
          Ensures script (next ⟨⟩) token.span.stop
            fun result more => relation result (token :: more))
    (left
      : ∀ token,
          script.Reads .standard offset token →
          token.kind ≠ kind →
          Ensures script (next ⟨⟩) offset relation)
    : Ensures script (Functor.discard (Parser.accept kind) >>= next) offset relation := by
  refine bind_discard (accept kind) ?_
  rintro answer tokens ⟨token, read, outcome⟩
  split at outcome
  next same =>
    obtain ⟨_, rfl⟩ := outcome
    exact taken token read same
  next other =>
    obtain ⟨_, rfl⟩ := outcome
    exact left token read other

-----------------------------------------------------------------------------------------
-- Checkpoints
-----------------------------------------------------------------------------------------

/-- Two tokens are looked at, both read as outside of operands. -/
theorem bind_peekMany_two {next : List Token → Parser β} {relation : β → List Token → Prop}
    (onward
      : ∀ first second,
          script.Reads .standard offset first →
          script.Reads .standard first.span.stop second →
          Ensures script (next [first, second]) offset relation)
    : Ensures script (peekMany 2 >>= next) offset relation := by
  rintro state consumed value after shows rfl ran
  obtain ⟨first, middle, ranFirst, readFirst, shownFirst⟩ := consume_shows shows .standard
  obtain ⟨second, last, ranSecond, readSecond, shownSecond⟩ := consume_shows shownFirst .standard
  obtain ⟨back, ranBack, shown⟩ := restore_shows shownSecond consumed.length (by simp)
  have looked : peekMany 2 state = .ok [first, second] back := by
    unfold peekMany consumeMany consumeMany consumeMany
    rw [bind_of_ok _ (checkpoint_shows shows)]
    refine bind_eq_ok.mpr ⟨[first, second], last, ?_, ?_⟩
    · refine bind_eq_ok.mpr ⟨first, middle, ranFirst, ?_⟩
      refine bind_eq_ok.mpr ⟨[second], last, ?_, rfl⟩
      exact bind_eq_ok.mpr ⟨second, last, ranSecond, rfl⟩
    · rw [bind_of_ok _ ranBack]
      rfl
  rw [bind_of_ok _ looked] at ran
  exact onward first second readFirst (by simpa using readSecond) _ _ _ _
    (by simpa using shown) rfl ran

/-- What is read from a checkpoint on and gone back over leaves nothing but its result. -/
theorem lookahead {probe : Parser α} {next : α → Parser β} {found : α → List Token → Prop}
    {relation : β → List Token → Prop} (probed : Ensures script probe offset found)
    (onward : ∀ value tokens, found value tokens → Ensures script (next value) offset relation)
    : Ensures script
        (checkpoint >>= fun start => probe >>= fun value => restore start >>= fun _ => next value)
        offset relation := by
  intro state consumed value after shows ends ran
  rw [bind_of_ok _ (checkpoint_shows shows)] at ran
  obtain ⟨answer, between, ranProbe, ranNext⟩ := bind_eq_ok.mp ran
  obtain ⟨tokens, shown, related⟩ := probed _ _ _ _ shows ends ranProbe
  obtain ⟨back, ranBack, restored⟩ := restore_shows shown consumed.length (by simp)
  rw [bind_of_ok _ ranBack] at ranNext
  exact onward answer tokens related _ _ _ _ (by simpa using restored) ends ranNext

/-- A result gets the span of the tokens that were consumed for it. -/
theorem spanned {parser : Parser (Span → α)} {relation : α → List Token → Prop}
    (ensures
      : Ensures script parser offset fun build tokens =>
          tokens ≠ [] ∧ relation (build (Token.spanOf tokens)) tokens)
    : Ensures script (Parser.spanned parser) offset relation := by
  intro state consumed value after shows ends ran
  unfold Parser.spanned at ran
  rw [bind_of_ok _ (checkpoint_shows shows)] at ran
  obtain ⟨build, between, ranParser, ranSince⟩ := bind_eq_ok.mp ran
  obtain ⟨tokens, shown, present, related⟩ := ensures _ _ _ _ shows ends ranParser
  rw [bind_of_ok _ (since_shows shown present)] at ranSince
  cases ranSince
  exact ⟨tokens, shown, related⟩

/-- If the parser accepts after the token, which was consumed since the checkpoint that it is given, the
relation holds of its result and the tokens consumed since that checkpoint.
-/
def After (script : Script) (token : Token) (parser : Nat → Parser α) (offset : Nat)
    (relation : α → List Token → Prop)
    : Prop :=
  ∀ state consumed value after,
    state.Shows script (consumed ++ [token]) →
    Token.endOf 0 consumed = offset →
    parser consumed.length state = .ok value after →
    ∃ tokens, after.Shows script (consumed ++ tokens) ∧ relation value tokens

/-- Behind a checkpoint and a token, what follows spans from the token on. -/
theorem bind_checkpoint_consume {next : Nat → Token → Parser α} {relation : α → List Token → Prop}
    (onward
      : ∀ token,
          script.Reads .standard offset token →
          After script token (fun start => next start token) offset relation)
    : Ensures script (checkpoint >>= fun start => Parser.consume >>= next start) offset relation := by
  rintro state consumed value after shows rfl ran
  rw [bind_of_ok _ (checkpoint_shows shows)] at ran
  obtain ⟨token, between, found, read, shown⟩ := consume_shows shows .standard
  rw [bind_of_ok _ found] at ran
  exact onward token read _ _ _ _ shown rfl ran

namespace After

variable {token : Token}

/-- The token stays consumed. -/
theorem keep {parser : Parser α} {relation : α → List Token → Prop}
    (ensures
      : Ensures script parser token.span.stop fun result more => relation result (token :: more))
    : After script token (fun _ => parser) offset relation := by
  intro state consumed value after shows _ ran
  obtain ⟨more, shown, related⟩ := ensures _ _ _ _ shows (by simp) ran
  exact ⟨token :: more, by simpa using shown, related⟩

/-- The token is gone back over. -/
theorem back {parser : Parser α} {relation : α → List Token → Prop}
    (ensures : Ensures script parser offset relation)
    : After script token (fun start => restore start >>= fun _ => parser) offset relation := by
  intro state consumed value after shows ends ran
  obtain ⟨between, ranBack, restored⟩ := restore_shows shows consumed.length (by simp)
  replace ran := (bind_of_ok _ ranBack).symm.trans ran
  exact ensures _ _ _ _ (by simpa using restored) ends ran

theorem bind {parser : Nat → Parser α} {next : α → Parser β} {first : α → List Token → Prop}
    {relation : β → List Token → Prop} (ensures : After script token parser offset first)
    (onward
      : ∀ value tokens,
          first value tokens →
          Ensures script (next value) (Token.endOf offset tokens)
            fun result more => relation result (tokens ++ more))
    : After script token (fun start => parser start >>= next) offset relation := by
  intro state consumed value after shows ends ran
  obtain ⟨middle, between, ranFirst, ranNext⟩ := bind_eq_ok.mp ran
  obtain ⟨tokens, shown, related⟩ := ensures _ _ _ _ shows ends ranFirst
  obtain ⟨more, last, result⟩ :=
    onward middle tokens related _ _ _ _ shown (by rw [Token.endOf_append, ends]) ranNext
  exact ⟨tokens ++ more, by rwa [← List.append_assoc], result⟩

end After

-----------------------------------------------------------------------------------------
-- The text and the dialect
-----------------------------------------------------------------------------------------

/-- What is ensured at every bound is ensured at the one that the source gives. -/
theorem bind_repetitions {next : Nat → Parser β} {relation : β → List Token → Prop}
    (onward : ∀ bound, Ensures script (next bound) offset relation)
    : Ensures script (repetitions >>= next) offset relation := by
  intro state consumed value after shows ends ran
  exact onward _ _ _ _ _ shows ends ran

/-- What is read from the state is the source, which does not change. -/
theorem bind_get {next : ParserState → Parser β} {relation : β → List Token → Prop}
    (onward
      : ∀ state : ParserState,
          state.source = script.source →
          Ensures script (next state) offset relation)
    : Ensures script (get >>= next) offset relation := by
  intro state consumed value after shows ends ran
  exact onward state shows.source_eq _ _ _ _ shows ends ran

theorem bind_textAt {span : Span} {next : List Char → Parser β}
    {relation : β → List Token → Prop}
    (onward : Ensures script (next (script.textOf span)) offset relation)
    : Ensures script (textAt span >>= next) offset relation := by
  intro state consumed value after shows ends ran
  obtain ⟨text, between, ranText, ranNext⟩ := bind_eq_ok.mp ran
  unfold textAt at ranText
  rw [bind_of_ok _ (rfl : (get : Parser ParserState) state = .ok state state), shows.source_eq]
    at ranText
  cases found : Text.slice? span.start span.stop script.source with
  | none =>
      rw [found] at ranText
      cases ranText
  | some middle =>
      rw [found] at ranText
      cases ranText
      rw [Script.textOf, found, Option.getD_some] at onward
      exact onward _ _ _ _ shows ends ranNext

theorem bind_nameAt {token : Token} {next : String → Parser β} {relation : β → List Token → Prop}
    (onward : Ensures script (next (script.nameOf token)) offset relation)
    : Ensures script (nameAt token.span >>= next) offset relation := by
  unfold nameAt
  rw [bind_assoc]
  exact bind_textAt onward

/-- Behind an identifier, a parser goes on with its name. -/
theorem bind_requireIdentifier {next : String → Parser β} {relation : β → List Token → Prop}
    (onward
      : ∀ token,
          script.Reads .standard offset token →
          token.kind = .identifier →
          Ensures script (next (script.nameOf token)) token.span.stop
            fun result more => relation result (token :: more))
    : Ensures script (requireIdentifier >>= next) offset relation := by
  unfold requireIdentifier
  rw [bind_assoc]
  refine bind_consume fun token read => ?_
  split
  next named => exact bind_nameAt (onward token read named)
  next => split <;> exact bind_reject

/-- Behind the check of a word, it is none that the dialect reserves. -/
theorem bind_checkReserved {token : Token} {next : PUnit → Parser β}
    {relation : β → List Token → Prop}
    (onward
      : isReservedIn script.dialect token.kind = false →
        Ensures script (next ⟨⟩) offset relation)
    : Ensures script (checkReserved token >>= next) offset relation := by
  intro state consumed value after shows ends ran
  obtain ⟨_, between, ranCheck, ranNext⟩ := bind_eq_ok.mp ran
  unfold checkReserved at ranCheck
  rw [bind_of_ok _ (rfl : (get : Parser ParserState) state = .ok state state), shows.dialect_eq]
    at ranCheck
  split at ranCheck
  next => cases ranCheck
  next allowed =>
    cases ranCheck
    exact onward (by simpa using allowed) _ _ _ _ shows ends ranNext

end Ensures

end EcmaSyntax.Parser
