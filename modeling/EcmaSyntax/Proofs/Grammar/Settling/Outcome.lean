import EcmaSyntax.Proofs.Grammar.Progress
import EcmaSyntax.Proofs.Grammar.Settling.Blame
import EcmaSyntax.Proofs.Grammar.Soundness.Repetition
import EcmaSyntax.Proofs.Parsing.Running

/-! Parsers that settle a text: they accept it or find something to blame, and never run out of their
bounds. Two parsers with different bounds are compared, from any states in which the same tokens are
consumed, so that what they settle on depends on neither the bounds nor the buffer.
-/

namespace EcmaSyntax

open EcmaSyntax.Parser EcmaSyntax.Grammar

-----------------------------------------------------------------------------------------
-- What is left of the text
-----------------------------------------------------------------------------------------

/-- The number of characters from the offset on. -/
def Script.left (script : Script) (offset : Nat) : Nat :=
  ((Text.drop? offset script.source).getD []).length

section Left

variable {script : Script} {offset : Nat} {tokens : List Token}

/-- No more characters are left than the text has. -/
theorem Script.left_le (script : Script) (offset : Nat)
    : script.left offset ≤ script.source.length := by
  unfold left
  cases cut : Text.drop? offset script.source with
  | none => exact Nat.zero_le _
  | some rest =>
      obtain ⟨front, source_eq, _⟩ := Text.drop?_eq_some.mp cut
      rw [source_eq, Option.getD_some, List.length_append]
      omega

/-- Every token before the end of the input leaves less. -/
theorem Script.Reads.left_lt {mode : LexMode} {token : Token}
    (read : script.Reads mode offset token) (present : token.kind ≠ .endOfInput)
    : script.left token.span.stop < script.left offset := by
  obtain ⟨rest, cut, _⟩ := Option.map_eq_some_iff.mp read
  obtain ⟨after, cutAfter, shorter⟩ := Token.length_rest_lt read present cut
  simpa [left, cut, cutAfter] using shorter

/-- Reading a token does not lead back. -/
theorem Script.Reads.left_le {mode : LexMode} {token : Token}
    (read : script.Reads mode offset token)
    : script.left token.span.stop ≤ script.left offset := by
  by_cases ends : token.kind = .endOfInput
  · obtain ⟨front, gap, text, rest, _, lies, origin⟩ := Token.read?_eq_some read
    obtain ⟨_, rfl⟩ := List.append_eq_nil_iff.mp (origin.nothing_of_ends ends)
    rw [left, lies.drop?_stop]
    exact Nat.zero_le _
  · exact (read.left_lt ends).le

/-- Consuming tokens does not lead back, by induction on the tokens. -/
theorem Script.Consumes.left_le (consumes : script.Consumes offset tokens)
    : script.left (Token.endOf offset tokens) ≤ script.left offset := by
  induction tokens generalizing offset with
  | nil => exact Nat.le_refl _
  | cons token tokens ih =>
      obtain ⟨read, present, consumes⟩ := consumes
      exact (ih consumes).trans (read.left_lt present).le

/-- A derivation does not lead back. -/
theorem Grammar.Parses.left_le {nonterminal : Nonterminal}
    (derivation : Parses script nonterminal offset tokens)
    : script.left (Token.endOf offset tokens) ≤ script.left offset :=
  derivation.consumes.left_le

/-- What consumes a token whatever it is leaves less. -/
theorem Grammar.Parses.left_lt {nonterminal : Nonterminal}
    (derivation : Parses script nonterminal offset tokens) (holds : nonterminal.consumes)
    : script.left (Token.endOf offset tokens) < script.left offset := by
  have consumes := derivation.consumes
  obtain ⟨token, tokens, rfl⟩ := List.exists_cons_of_ne_nil (derivation.ne_nil holds)
  obtain ⟨read, present, consumes⟩ := consumes
  exact consumes.left_le.trans_lt (read.left_lt present)

end Left

/-- The lexer comes to what is read where the consumed tokens end. -/
theorem ParserState.Shows.meets {state : ParserState} {script : Script} {consumed : List Token}
    {mode : LexMode} {token : Token} (shows : state.Shows script consumed)
    (read : script.Reads mode (Token.endOf 0 consumed) token)
    : script.Meets mode (Token.endOf 0 consumed) token := by
  refine ⟨read, state.tokens.toList.take state.next, ?_, ?_⟩
  · exact shows.source_eq ▸ shows.consistent.readInTurn_take state.next
  · rw [List.map_take, ← shows.consumed_eq]
    rfl

namespace Parser

-----------------------------------------------------------------------------------------
-- Two runs
-----------------------------------------------------------------------------------------

/-- Two runs after the same tokens both accept, with one value and the same tokens, or both reject with one
error, which blames something in the text.
-/
inductive Settled {α : Type} (script : Script) (consumed : List Token)
    : EStateM.Result Failure ParserState α → EStateM.Result Failure ParserState α → Prop
  | accepted {value : α} {tokens : List Token} {after mirror : ParserState}
    (shown : after.Shows script (consumed ++ tokens))
    (mirrored : mirror.Shows script (consumed ++ tokens))
    : Settled script consumed (.ok value after) (.ok value mirror)
  | rejected {error : SyntaxError} {after mirror : ParserState} (blames : script.Blames error)
    : Settled script consumed (.error (.rejected error) after) (.error (.rejected error) mirror)

/-- What was settled after more tokens was settled after fewer. -/
theorem Settled.of_append {α : Type} {script : Script} {consumed tokens : List Token}
    {first second : EStateM.Result Failure ParserState α}
    (settled : Settled script (consumed ++ tokens) first second)
    : Settled script consumed first second := by
  cases settled with
  | accepted shown mirrored =>
      rw [List.append_assoc] at shown mirrored
      exact .accepted shown mirrored
  | rejected blames => exact .rejected blames

/-- Two runs that go on where two others have settled. -/
theorem Settled.bind {α β : Type} {script : Script} {consumed base : List Token}
    {parser twin : Parser α} {next twinNext : α → Parser β} {state mirror : ParserState}
    (settled : Settled script consumed (parser state) (twin mirror))
    (onward
      : ∀ value after last tokens,
          parser state = .ok value after →
          after.Shows script (consumed ++ tokens) →
          last.Shows script (consumed ++ tokens) →
          Settled script base (next value after) (twinNext value last))
    : Settled script base ((parser >>= next) state) ((twin >>= twinNext) mirror) := by
  change Settled script base (EStateM.bind parser next state) (EStateM.bind twin twinNext mirror)
  unfold EStateM.bind
  generalize parser state = result at settled onward ⊢
  generalize twin mirror = twinResult at settled ⊢
  cases settled with
  | rejected blames => exact .rejected blames
  | accepted shown mirrored => exact onward _ _ _ _ rfl shown mirrored

/-- The parsers settle the text from the offset on, in the same way. -/
def Settles {α : Type} (script : Script) (parser twin : Parser α) (offset : Nat) : Prop :=
  ∀ state mirror consumed,
    state.Shows script consumed →
    mirror.Shows script consumed →
    Token.endOf 0 consumed = offset →
    Settled script consumed (parser state) (twin mirror)

/-- If nothing was consumed since a checkpoint, there is a span nevertheless. -/
theorem since_shows_nothing {state : ParserState} {script : Script} {consumed : List Token}
    (shows : state.Shows script consumed)
    : ∃ span, since consumed.length state = .ok span state := by
  unfold since
  rw [bind_of_ok _ (rfl : (get : Parser ParserState) state = .ok state state), ← shows.next_eq,
    ParserState.since, if_neg (Nat.lt_irrefl _)]
  exact ⟨_, rfl⟩

/-- A result with a span was found by consuming tokens, if whatever has such a result consumes some. -/
theorem spanned_ne_nil {α : Type} {script : Script} {offset : Nat} {consumed tokens : List Token}
    {parser : Parser (Span → α)} {relation : α → List Token → Prop} {state after : ParserState}
    {build : Span → α} (ensures : Ensures script (spanned parser) offset relation)
    (present : ∀ value tokens, relation value tokens → tokens ≠ [])
    (shows : state.Shows script consumed) (ends : Token.endOf 0 consumed = offset)
    (ran : parser state = .ok build after) (shown : after.Shows script (consumed ++ tokens))
    : tokens ≠ [] := by
  rintro rfl
  rw [List.append_nil] at shown
  obtain ⟨span, ranSince⟩ := since_shows_nothing shown
  have ranWhole : spanned parser state = .ok (build span) after := by
    unfold spanned
    rw [bind_of_ok _ (checkpoint_shows shows), bind_of_ok _ ran, bind_of_ok _ ranSince]
    rfl
  obtain ⟨tokens, shown', related⟩ := ensures _ _ _ _ shows ends ranWhole
  have nothing := shown.consumed_eq.symm.trans shown'.consumed_eq
  exact present _ _ related (List.self_eq_append_right.mp nothing)

namespace Settles

variable {α β : Type} {script : Script} {offset : Nat} {tokens : List Token}

-----------------------------------------------------------------------------------------
-- Sequences
-----------------------------------------------------------------------------------------

/-- A parser that accepts does so from all states. -/
theorem of_runs {parser : Parser α} {value : α} (runs : Runs script parser offset tokens value)
    : Settles script parser parser offset := by
  intro state mirror consumed shows mirrors ends
  obtain ⟨after, ran, shown⟩ := runs _ _ shows ends
  obtain ⟨last, ranMirror, mirrored⟩ := runs _ _ mirrors ends
  rw [ran, ranMirror]
  exact .accepted shown mirrored

theorem pure (value : α) : Settles script (pure value) (pure value) offset :=
  of_runs (.pure value)

/-- An error that blames something is settled on at once. -/
theorem reject {error : SyntaxError} (blames : script.Blames error)
    : Settles (α := α) script (Parser.reject error) (Parser.reject error) offset :=
  fun _ _ _ _ _ _ => .rejected blames

/-- The second parser starts where the tokens of the first end. -/
theorem bind {parser twin : Parser α} {next twinNext : α → Parser β}
    {relation : α → List Token → Prop} (first : Settles script parser twin offset)
    (ensures : Ensures script parser offset relation)
    (onward
      : ∀ value tokens,
          relation value tokens →
          Settles script (next value) (twinNext value) (Token.endOf offset tokens))
    : Settles script (parser >>= next) (twin >>= twinNext) offset := by
  intro state mirror consumed shows mirrors ends
  refine (first _ _ _ shows mirrors ends).bind fun value after last tokens ran shown mirrored => ?_
  obtain ⟨more, shown', related⟩ := ensures _ _ _ _ shows ends ran
  obtain rfl : tokens = more :=
    List.append_cancel_left (shown.consumed_eq.symm.trans shown'.consumed_eq)
  refine (onward value tokens related _ _ _ shown mirrored ?_).of_append
  rw [Token.endOf_append, ends]

/-- Wherever parsers start, tokens that the lexer has read in turn end. -/
theorem of_reached {parser twin : Parser α}
    (settles
      : (∃ before,
          ReadInTurn script.source 0 before
          ∧ Token.endOf 0 (before.map BufferedToken.token) = offset) →
        Settles script parser twin offset)
    : Settles script parser twin offset := by
  rintro state mirror consumed shows mirrors rfl
  obtain ⟨token, _, _, read, _⟩ := peek_shows shows .standard
  exact settles (shows.meets read).reached _ _ _ shows mirrors rfl

/-- Where it starts does not matter to the second parser. -/
theorem bind_last {parser twin : Parser α} {next twinNext : α → Parser β}
    (first : Settles script parser twin offset)
    (onward : ∀ value place, Settles script (next value) (twinNext value) place)
    : Settles script (parser >>= next) (twin >>= twinNext) offset := by
  intro state mirror consumed shows mirrors ends
  refine (first _ _ _ shows mirrors ends).bind fun value after last tokens _ shown mirrored => ?_
  exact (onward value _ _ _ _ shown mirrored rfl).of_append

/-- A parser that is known to accept settles nothing by itself. -/
theorem bind_runs {parser : Parser α} {next twinNext : α → Parser β} {value : α}
    (runs : Runs script parser offset tokens value)
    (onward : Settles script (next value) (twinNext value) (Token.endOf offset tokens))
    : Settles script (parser >>= next) (parser >>= twinNext) offset := by
  intro state mirror consumed shows mirrors ends
  obtain ⟨after, ran, shown⟩ := runs _ _ shows ends
  obtain ⟨last, ranMirror, mirrored⟩ := runs _ _ mirrors ends
  rw [bind_of_ok _ ran, bind_of_ok _ ranMirror]
  refine (onward _ _ _ shown mirrored ?_).of_append
  rw [Token.endOf_append, ends]

/-- A parser that settles for all that may follow it, followed by another one. -/
theorem map {parser twin : Parser α} (f : α → β) (settles : Settles script parser twin offset)
    : Settles script (f <$> parser) (f <$> twin) offset := by
  intro state mirror consumed shows mirrors ends
  have settled := settles _ _ _ shows mirrors ends
  change Settled script consumed (EStateM.map f parser state) (EStateM.map f twin mirror)
  unfold EStateM.map
  generalize parser state = result at settled ⊢
  generalize twin mirror = twinResult at settled ⊢
  cases settled with
  | rejected blames => exact .rejected blames
  | accepted shown mirrored => exact .accepted shown mirrored

/-- What follows settles the text wherever the first parser may have led. -/
theorem bind_discard {parser twin : Parser α} {next twinNext : PUnit → Parser β}
    {relation : α → List Token → Prop} (first : Settles script parser twin offset)
    (ensures : Ensures script parser offset relation)
    (onward
      : ∀ value tokens,
          relation value tokens →
          Settles script (next ⟨⟩) (twinNext ⟨⟩) (Token.endOf offset tokens))
    : Settles script (discard parser >>= next) (discard twin >>= twinNext) offset := by
  have discards
      : Ensures script (discard parser) offset fun _ tokens => ∃ value, relation value tokens :=
    .discard (ensures.mono fun value tokens related => ⟨value, related⟩)
  exact (first.map _).bind discards fun _ tokens ⟨value, related⟩ => onward value tokens related

theorem ite {condition : Prop} [Decidable condition] {first twinFirst second twinSecond : Parser α}
    (holds : condition → Settles script first twinFirst offset)
    (fails : ¬condition → Settles script second twinSecond offset)
    : Settles script (if condition then first else second)
        (if condition then twinFirst else twinSecond) offset := by
  split_ifs with decided
  · exact holds decided
  · exact fails decided

-----------------------------------------------------------------------------------------
-- Tokens
-----------------------------------------------------------------------------------------

/-- The tokens read at the offset are those that the lexer comes to. -/
theorem bind_peek {mode : LexMode} {next twinNext : Token → Parser β}
    (onward
      : ∀ token,
          script.Meets mode offset token →
          Settles script (next token) (twinNext token) offset)
    : Settles script (Parser.peek mode >>= next) (Parser.peek mode >>= twinNext) offset := by
  rintro state mirror consumed shows mirrors rfl
  obtain ⟨token, _, _, read, _⟩ := peek_shows shows mode
  exact bind_runs (.peek read) (onward token (shows.meets read)) _ _ _ shows mirrors rfl

/-- The lexer comes to the token that is consumed, so there is something to blame later. -/
theorem bind_consume {mode : LexMode} {next twinNext : Token → Parser β}
    (onward
      : ∀ token,
          script.Meets mode offset token →
          Settles script (next token) (twinNext token) token.span.stop)
    : Settles script (Parser.consume mode >>= next) (Parser.consume mode >>= twinNext) offset := by
  rintro state mirror consumed shows mirrors rfl
  obtain ⟨token, _, _, read, _⟩ := peek_shows shows mode
  exact bind_runs (.consume read) (onward token (shows.meets read)) _ _ _ shows mirrors rfl

theorem bind_discard_consume {mode : LexMode} {next twinNext : PUnit → Parser β}
    (onward
      : ∀ token,
          script.Meets mode offset token →
          Settles script (next ⟨⟩) (twinNext ⟨⟩) token.span.stop)
    : Settles script (discard (Parser.consume mode) >>= next)
        (discard (Parser.consume mode) >>= twinNext) offset := by
  rintro state mirror consumed shows mirrors rfl
  obtain ⟨token, _, _, read, _⟩ := peek_shows shows mode
  exact bind_runs (.discard (.consume read)) (onward token (shows.meets read)) _ _ _ shows mirrors rfl

/-- A token of the kind is consumed, or the token that is there is blamed. -/
theorem require (kind : Kind) (mode : LexMode)
    : Settles script (Parser.require kind mode) (Parser.require kind mode) offset := by
  refine bind_consume fun token met => .ite (fun _ => .pure token) fun other => ?_
  refine .ite (fun ends => .reject (.token met rfl (by simp [ends]))) fun present => ?_
  exact .reject (.token met rfl (by simp [present]))

/-- A token that is required leaves less of the text, unless it is the end of the input. -/
theorem bind_require {kind : Kind} {mode : LexMode} {next twinNext : Token → Parser β}
    (present : kind ≠ .endOfInput)
    (onward
      : ∀ token,
          script.Reads mode offset token →
          token.kind = kind →
          script.left token.span.stop < script.left offset →
          Settles script (next token) (twinNext token) token.span.stop)
    : Settles script (Parser.require kind mode >>= next) (Parser.require kind mode >>= twinNext)
        offset := by
  refine (require kind mode).bind (.require kind mode) ?_
  rintro token _ ⟨rfl, read, same⟩
  exact onward token read same (read.left_lt (same ▸ present))

/-- Behind a token that was required less text is left. -/
theorem bind_discard_require {kind : Kind} {mode : LexMode} {next twinNext : PUnit → Parser β}
    (present : kind ≠ .endOfInput)
    (onward
      : ∀ token,
          script.Reads mode offset token →
          token.kind = kind →
          script.left token.span.stop < script.left offset →
          Settles script (next ⟨⟩) (twinNext ⟨⟩) token.span.stop)
    : Settles script (discard (Parser.require kind mode) >>= next)
        (discard (Parser.require kind mode) >>= twinNext) offset := by
  refine (require kind mode).bind_discard (.require kind mode) ?_
  rintro token _ ⟨rfl, read, same⟩
  exact onward token read same (read.left_lt (same ▸ present))

/-- A token in the place of something else. -/
theorem reject_unexpected {mode : LexMode} {place : Nat} {token : Token} (expected : String)
    (met : script.Meets mode place token)
    : Settles (α := α) script (Parser.reject (token.unexpected expected))
        (Parser.reject (token.unexpected expected)) offset := by
  refine reject ?_
  unfold Token.unexpected
  split
  next ends => exact .token met rfl (by simp [ends])
  next present => exact .token met rfl (by simpa using present)

/-- A token of one of the kinds is consumed, or the token that is there is blamed. -/
theorem bind_requireSome {condition : Kind → Bool} {expected : String}
    {next twinNext : Token → Parser β}
    (onward
      : ∀ token,
          script.Reads .standard offset token →
          condition token.kind →
          Settles script (next token) (twinNext token) token.span.stop)
    : Settles script (requireSome condition expected >>= next)
        (requireSome condition expected >>= twinNext) offset := by
  unfold requireSome
  rw [bind_assoc, bind_assoc]
  refine bind_consume fun token met => ?_
  split
  next holds => exact onward token met.read holds
  next =>
    exact (reject_unexpected expected met).bind .reject fun _ _ (impossible : False) => impossible.elim

/-- A token is accepted or left, and both runs agree which. -/
theorem bind_accept {kind : Kind} {next twinNext : Bool → Parser β}
    (taken
      : ∀ token,
          script.Reads .standard offset token →
          token.kind = kind →
          Settles script (next true) (twinNext true) token.span.stop)
    (left
      : ∀ token,
          script.Reads .standard offset token →
          token.kind ≠ kind →
          Settles script (next false) (twinNext false) offset)
    : Settles script (Parser.accept kind >>= next) (Parser.accept kind >>= twinNext) offset := by
  rintro state mirror consumed shows mirrors rfl
  obtain ⟨token, _, _, read, _⟩ := peek_shows shows .standard
  by_cases same : token.kind = kind
  · exact bind_runs (.accept_taken read same) (taken token read same) _ _ _ shows mirrors rfl
  · exact bind_runs (.accept_left read same) (left token read same) _ _ _ shows mirrors rfl

/-- A token that may be missing. -/
theorem bind_discard_accept {kind : Kind} {next twinNext : PUnit → Parser β}
    (taken
      : ∀ token,
          script.Reads .standard offset token →
          token.kind = kind →
          Settles script (next ⟨⟩) (twinNext ⟨⟩) token.span.stop)
    (left
      : ∀ token,
          script.Reads .standard offset token →
          token.kind ≠ kind →
          Settles script (next ⟨⟩) (twinNext ⟨⟩) offset)
    : Settles script (discard (Parser.accept kind) >>= next)
        (discard (Parser.accept kind) >>= twinNext) offset := by
  rintro state mirror consumed shows mirrors rfl
  obtain ⟨token, _, _, read, _⟩ := peek_shows shows .standard
  by_cases same : token.kind = kind
  · exact bind_runs (.discard (.accept_taken read same)) (taken token read same)
      _ _ _ shows mirrors rfl
  · exact bind_runs (.discard (.accept_left read same)) (left token read same)
      _ _ _ shows mirrors rfl

-----------------------------------------------------------------------------------------
-- Checkpoints
-----------------------------------------------------------------------------------------

/-- Two tokens are looked at and gone back over in both runs. -/
theorem bind_peekMany_two {next twinNext : List Token → Parser β}
    (onward
      : ∀ first second,
          script.Reads .standard offset first →
          script.Reads .standard first.span.stop second →
          Settles script (next [first, second]) (twinNext [first, second]) offset)
    : Settles script (peekMany 2 >>= next) (peekMany 2 >>= twinNext) offset := by
  rintro state mirror consumed shows mirrors rfl
  obtain ⟨first, middle, _, readFirst, shown⟩ := consume_shows shows .standard
  obtain ⟨second, _, _, readSecond, _⟩ := consume_shows shown .standard
  rw [Token.endOf_append] at readSecond
  have looks : Runs script (peekMany 2) (Token.endOf 0 consumed) [] [first, second] := by
    rw [← bind_pure (peekMany 2)]
    exact .bind_peekMany_two readFirst readSecond (.pure _)
  exact bind_runs looks (onward first second readFirst readSecond) _ _ _ shows mirrors rfl

/-- What is read from a checkpoint on and gone back over leaves nothing but its result. -/
theorem lookahead {probe twinProbe : Parser α} {next twinNext : α → Parser β}
    {found : α → List Token → Prop} (probed : Settles script probe twinProbe offset)
    (ensures : Ensures script probe offset found)
    (onward
      : ∀ value tokens, found value tokens → Settles script (next value) (twinNext value) offset)
    : Settles script
        (checkpoint >>= fun start => probe >>= fun value => restore start >>= fun _ => next value)
        (checkpoint >>= fun start =>
          twinProbe >>= fun value => restore start >>= fun _ => twinNext value)
        offset := by
  intro state mirror consumed shows mirrors ends
  rw [bind_of_ok _ (checkpoint_shows shows), bind_of_ok _ (checkpoint_shows mirrors)]
  refine (probed _ _ _ shows mirrors ends).bind fun value after last tokens ran shown mirrored => ?_
  obtain ⟨_, _, related⟩ := ensures _ _ _ _ shows ends ran
  obtain ⟨back, ranBack, restored⟩ := restore_shows shown consumed.length (by simp)
  obtain ⟨twinBack, ranTwinBack, twinRestored⟩ := restore_shows mirrored consumed.length (by simp)
  rw [bind_of_ok _ ranBack, bind_of_ok _ ranTwinBack]
  exact onward value _ related _ _ _ (by simpa using restored) (by simpa using twinRestored) ends

/-- A result gets the span of the tokens that were consumed for it, of which there are some. -/
theorem spanned {parser twin : Parser (Span → α)} {relation : α → List Token → Prop}
    (ensures : Ensures script (Parser.spanned parser) offset relation)
    (present : ∀ value tokens, relation value tokens → tokens ≠ [])
    (settles : Settles script parser twin offset)
    : Settles script (Parser.spanned parser) (Parser.spanned twin) offset := by
  intro state mirror consumed shows mirrors ends
  unfold Parser.spanned
  rw [bind_of_ok _ (checkpoint_shows shows), bind_of_ok _ (checkpoint_shows mirrors)]
  refine (settles _ _ _ shows mirrors ends).bind fun build after last tokens ran shown mirrored => ?_
  have consumes := spanned_ne_nil ensures present shows ends ran shown
  rw [bind_of_ok _ (since_shows shown consumes), bind_of_ok _ (since_shows mirrored consumes)]
  exact .accepted shown mirrored

/-- The same, for a result that parses as a phrase. -/
theorem spanned_sound {parser twin : Parser (Span → α)} {phrase : α → Phrase}
    (sound : (Parser.spanned parser).Sound script phrase)
    (consumes : ∀ value, (phrase value).consumes) (settles : Settles script parser twin offset)
    : Settles script (Parser.spanned parser) (Parser.spanned twin) offset :=
  spanned (sound offset) (fun value _ derivation => derivation.ne_nil (consumes value)) settles

/-- The parsers settle the text after the token, which was consumed since the checkpoint that they are
given.
-/
def After (script : Script) (token : Token) (parser twin : Nat → Parser α) (offset : Nat) : Prop :=
  ∀ state mirror consumed,
    state.Shows script (consumed ++ [token]) →
    mirror.Shows script (consumed ++ [token]) →
    Token.endOf 0 consumed = offset →
    Settled script consumed (parser consumed.length state) (twin consumed.length mirror)

/-- A token is consumed after a checkpoint, to which what follows may go back. -/
theorem bind_checkpoint_consume {next twinNext : Nat → Token → Parser α}
    (onward
      : ∀ token,
          script.Reads .standard offset token →
          After script token (fun start => next start token) (fun start => twinNext start token)
            offset)
    : Settles script (checkpoint >>= fun start => Parser.consume >>= next start)
        (checkpoint >>= fun start => Parser.consume >>= twinNext start) offset := by
  rintro state mirror consumed shows mirrors rfl
  rw [bind_of_ok _ (checkpoint_shows shows), bind_of_ok _ (checkpoint_shows mirrors)]
  obtain ⟨token, between, ran, read, shown⟩ := consume_shows shows .standard
  obtain ⟨same, twinBetween, twinRan, twinRead, twinShown⟩ := consume_shows mirrors .standard
  obtain rfl := read.unique twinRead
  rw [bind_of_ok _ ran, bind_of_ok _ twinRan]
  exact onward token read _ _ _ shown twinShown rfl

namespace After

variable {token : Token}

/-- The token stays consumed. -/
theorem keep {parser twin : Parser α} (settles : Settles script parser twin token.span.stop)
    : After script token (fun _ => parser) (fun _ => twin) offset :=
  fun _ _ _ shows mirrors _ => (settles _ _ _ shows mirrors (by simp)).of_append

/-- The token is gone back over. -/
theorem back {parser twin : Parser α} (settles : Settles script parser twin offset)
    : After script token (fun start => restore start >>= fun _ => parser)
        (fun start => restore start >>= fun _ => twin) offset := by
  intro state mirror consumed shows mirrors ends
  obtain ⟨between, ranBack, restored⟩ := restore_shows shows consumed.length (by simp)
  obtain ⟨twinBetween, ranTwinBack, twinRestored⟩ := restore_shows mirrors consumed.length (by simp)
  dsimp only
  rw [bind_of_ok _ ranBack, bind_of_ok _ ranTwinBack]
  exact settles _ _ _ (by simpa using restored) (by simpa using twinRestored) ends

theorem bind {parser twin : Nat → Parser α} {next twinNext : α → Parser β}
    {relation : α → List Token → Prop} (first : After script token parser twin offset)
    (ensures : Ensures.After script token parser offset relation)
    (onward
      : ∀ value tokens,
          relation value tokens →
          Settles script (next value) (twinNext value) (Token.endOf offset tokens))
    : After script token (fun start => parser start >>= next) (fun start => twin start >>= twinNext)
        offset := by
  intro state mirror consumed shows mirrors ends
  refine (first _ _ _ shows mirrors ends).bind fun value after last tokens ran shown mirrored => ?_
  obtain ⟨more, shown', related⟩ := ensures _ _ _ _ shows ends ran
  obtain rfl : tokens = more :=
    List.append_cancel_left (shown.consumed_eq.symm.trans shown'.consumed_eq)
  refine (onward value tokens related _ _ _ shown mirrored ?_).of_append
  rw [Token.endOf_append, ends]

end After

-----------------------------------------------------------------------------------------
-- The text and the dialect
-----------------------------------------------------------------------------------------

/-- Each parser has its own bound on repetitions. -/
theorem bind_repetitions {next twinNext : Nat → Parser β}
    (onward
      : ∀ bound > script.source.length,
          ∀ limit > script.source.length, Settles script (next bound) (twinNext limit) offset)
    : Settles script (repetitions >>= next) (repetitions >>= twinNext) offset :=
  fun state mirror _ shows mirrors ends =>
    onward state.bound shows.bound_gt mirror.bound mirrors.bound_gt _ _ _ shows mirrors ends

/-- What only depends on the source of a state is the same in both runs. -/
theorem bind_get {next twinNext : ParserState → Parser β}
    (onward
      : ∀ state mirror : ParserState,
          state.source = script.source →
          mirror.source = script.source →
          Settles script (next state) (twinNext mirror) offset)
    : Settles script (get >>= next) (get >>= twinNext) offset :=
  fun state mirror _ shows mirrors ends =>
    onward state mirror shows.source_eq mirrors.source_eq _ _ _ shows mirrors ends

theorem nameAt {mode : LexMode} {place : Nat} {token : Token}
    (read : script.Reads mode place token)
    : Settles script (Parser.nameAt token.span) (Parser.nameAt token.span) offset :=
  of_runs (.nameAt read)

theorem bind_textAt {mode : LexMode} {place : Nat} {token : Token}
    {next twinNext : List Char → Parser β} (read : script.Reads mode place token)
    (onward
      : Settles script (next (script.textOf token.span)) (twinNext (script.textOf token.span))
          offset)
    : Settles script (textAt token.span >>= next) (textAt token.span >>= twinNext) offset :=
  bind_runs (.textAt read) onward

theorem bind_nameAt {mode : LexMode} {place : Nat} {token : Token}
    {next twinNext : String → Parser β} (read : script.Reads mode place token)
    (onward
      : Settles script (next (script.nameOf token)) (twinNext (script.nameOf token)) offset)
    : Settles script (Parser.nameAt token.span >>= next) (Parser.nameAt token.span >>= twinNext)
        offset :=
  bind_runs (.nameAt read) onward

theorem requireIdentifier
    : Settles script Parser.requireIdentifier Parser.requireIdentifier offset := by
  refine bind_consume fun token met => .ite (fun _ => nameAt met.read) fun _ => ?_
  refine .ite (fun word => .reject (.token met rfl ?_)) fun _ => reject_unexpected _ met
  refine ⟨nofun, fun ends => ?_⟩
  rw [ends] at word
  cases word

/-- Behind a name that was required less text is left. -/
theorem bind_requireIdentifier {next twinNext : String → Parser β}
    (onward
      : ∀ token,
          script.Reads .standard offset token →
          token.kind = .identifier →
          script.left token.span.stop < script.left offset →
          Settles script (next (script.nameOf token)) (twinNext (script.nameOf token))
            token.span.stop)
    : Settles script (Parser.requireIdentifier >>= next) (Parser.requireIdentifier >>= twinNext)
        offset := by
  have names
      : Ensures script Parser.requireIdentifier offset fun name tokens =>
          ∃ token,
            tokens = [token]
            ∧ name = script.nameOf token
            ∧ script.Reads .standard offset token
            ∧ token.kind = .identifier := by
    rw [← bind_pure Parser.requireIdentifier]
    exact .bind_requireIdentifier fun token read named => .pure ⟨token, rfl, rfl, read, named⟩
  refine requireIdentifier.bind names ?_
  rintro _ _ ⟨token, rfl, rfl, read, named⟩
  exact onward token read named (read.left_lt (named ▸ by decide))

/-- A reserved word is blamed. -/
theorem bind_checkReserved {mode : LexMode} {place : Nat} {token : Token}
    {next twinNext : PUnit → Parser β} (met : script.Meets mode place token)
    (onward
      : isReservedIn script.dialect token.kind = false →
        Settles script (next ⟨⟩) (twinNext ⟨⟩) offset)
    : Settles script (checkReserved token >>= next) (checkReserved token >>= twinNext) offset := by
  cases reserved : isReservedIn script.dialect token.kind with
  | false => exact bind_runs (.checkReserved reserved) (onward reserved)
  | true =>
      intro state mirror consumed shows mirrors ends
      have stops {next : PUnit → Parser β} {state : ParserState} (shows : state.Shows script consumed)
          : (checkReserved token >>= next) state
            = .error (.rejected (token.error .reservedWord)) state := by
        unfold checkReserved
        rw [bind_assoc, bind_of_ok _ (rfl : (get : Parser ParserState) state = .ok state state),
          shows.dialect_eq, if_pos reserved]
        rfl
      rw [stops shows, stops mirrors]
      refine .rejected (.token met rfl ⟨nofun, fun ends => ?_⟩)
      rw [ends] at reserved
      cases reserved

/-- The end of a statement. -/
theorem requireStatementEnd
    : Settles script Parser.requireStatementEnd Parser.requireStatementEnd offset := by
  refine bind_peek fun next met => .ite (fun _ => ?_) fun _ => .ite (fun _ => .pure _) fun goesOn => ?_
  · exact (of_runs (.consume met.read)).map _
  · refine .reject (.token met rfl ⟨nofun, fun ends => ?_⟩)
    simp [ends] at goesOn

end Settles

end Parser

end EcmaSyntax
