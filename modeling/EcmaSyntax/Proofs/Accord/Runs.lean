import EcmaSyntax.Proofs.Accord.Texts
import EcmaSyntax.Proofs.Grammar.Settling.Outcome
import EcmaSyntax.Proofs.Parsing.Ensuring
import EcmaSyntax.Proofs.Parsing.Running

/-! Two runs of a parser, at work on texts in accord. As long as the tokens are kept they do the same. The first
run may leave what both texts have in common: then the second one may do anything, but what the first run
rejects from there on is not blamed.
-/

namespace EcmaSyntax.Parser

open EcmaSyntax.Grammar

variable {α β : Type} {script other : Script} {accord : Accord script other}
variable {lost : Prop} {offset : Nat} {consumed mirrored tokens : List Token}

-----------------------------------------------------------------------------------------
-- Runs that leave the common part
-----------------------------------------------------------------------------------------

/-- The run ends where nothing is kept any more, or with a failure that is not blamed. -/
inductive Gone (accord : Accord script other) (consumed : List Token)
    : EStateM.Result Failure ParserState α → Prop
  | departed {value : α} {tokens : List Token} {after : ParserState}
    (shown : after.Shows script (consumed ++ tokens))
    (past : accord.Past (Token.endOf 0 (consumed ++ tokens)))
    : Gone accord consumed (.ok value after)
  | failed {failure : Failure} {after : ParserState}
    (unblamed : ∀ error, failure = .rejected error → ¬accord.blamed error)
    : Gone accord consumed (.error failure after)

/-- A run that is out of its bounds is never blamed. -/
theorem Gone.fault {cause : Fault} {after : ParserState}
    : Gone (α := α) accord consumed (.error (.fault cause) after) := by
  refine .failed fun error same => ?_
  cases same

/-- A run that is gone behind some more tokens is gone from where these began. -/
theorem Gone.of_append {result : EStateM.Result Failure ParserState α}
    (gone : Gone accord (consumed ++ tokens) result)
    : Gone accord consumed result := by
  cases gone with
  | departed shown past =>
      rw [List.append_assoc] at shown past
      exact .departed shown past
  | failed unblamed => exact .failed unblamed

/-- What goes on past the common part stays gone. -/
theorem Gone.bind {base : List Token} {parser : Parser α} {next : α → Parser β}
    {state : ParserState} (gone : Gone accord consumed (parser state))
    (onward
      : ∀ value after tokens,
          parser state = .ok value after →
          after.Shows script (consumed ++ tokens) →
          accord.Past (Token.endOf 0 (consumed ++ tokens)) →
          Gone accord base (next value after))
    : Gone accord base ((parser >>= next) state) := by
  change Gone accord base (EStateM.bind parser next state)
  unfold EStateM.bind
  generalize parser state = result at gone onward ⊢
  cases gone with
  | departed shown past => exact onward _ _ _ rfl shown past
  | failed unblamed => exact .failed unblamed

/-- A result that was found behind the common part gets a span. -/
theorem Gone.since {after : ParserState} (build : Span → α)
    (shown : after.Shows script (consumed ++ tokens))
    (past : accord.Past (Token.endOf 0 (consumed ++ tokens)))
    : Gone accord consumed ((since consumed.length >>= fun span => Pure.pure (build span)) after) := by
  by_cases none : tokens = []
  · subst none
    obtain ⟨span, ran⟩ := since_shows_nothing (by simpa using shown)
    rw [bind_of_ok _ ran]
    exact .departed shown past
  · rw [bind_of_ok _ (since_shows shown none)]
    exact .departed shown past

/-- From the offset on the parser leaves the common part. -/
def Leaves (accord : Accord script other) (parser : Parser α) (offset : Nat) : Prop :=
  ∀ state consumed,
    state.Shows script consumed →
    Token.endOf 0 consumed = offset →
    Gone accord consumed (parser state)

-----------------------------------------------------------------------------------------
-- Two runs
-----------------------------------------------------------------------------------------

/-- Two runs that have consumed the same tokens, unless the common part is already `lost`, both accept, with one
value and the same tokens, or both reject with one error. Otherwise the second one has run out of its bounds,
or the first one has left the common part.
-/
inductive Echoed (accord : Accord script other) (lost : Prop) (consumed mirrored : List Token)
    : EStateM.Result Failure ParserState α → EStateM.Result Failure ParserState α → Prop
  | accepted {value : α} {tokens : List Token} {after mirror : ParserState} (found : ¬lost)
    (shown : after.Shows script (consumed ++ tokens))
    (echoes : mirror.Shows other (mirrored ++ tokens))
    : Echoed accord lost consumed mirrored (.ok value after) (.ok value mirror)
  | rejected {error : SyntaxError} {after mirror : ParserState} (found : ¬lost)
    : Echoed accord lost consumed mirrored (.error (.rejected error) after)
        (.error (.rejected error) mirror)
  | exhausted {result : EStateM.Result Failure ParserState α} {cause : Fault}
    {mirror : ParserState} (found : ¬lost)
    : Echoed accord lost consumed mirrored result (.error (.fault cause) mirror)
  | gone {result twin : EStateM.Result Failure ParserState α} (gone : Gone accord consumed result)
    : Echoed accord lost consumed mirrored result twin

namespace Echoed

variable {first second : EStateM.Result Failure ParserState α}

/-- Where the common part is lost already, a run that echoes is gone. -/
theorem gone_of_lost (holds : lost) (echoed : Echoed accord lost consumed mirrored first second)
    : Gone accord consumed first := by
  cases echoed with
  | accepted found | rejected found | exhausted found => exact absurd holds found
  | gone gone => exact gone

/-- Two runs that go on from the same tokens more echo from where these tokens began. -/
theorem of_append
    (echoed : Echoed accord lost (consumed ++ tokens) (mirrored ++ tokens) first second)
    : Echoed accord lost consumed mirrored first second := by
  cases echoed with
  | accepted found shown echoes =>
      rw [List.append_assoc] at shown echoes
      exact .accepted found shown echoes
  | rejected found => exact .rejected found
  | exhausted found => exact .exhausted found
  | gone gone => exact .gone gone.of_append

/-- Where less is lost, two runs echo the more. -/
theorem mono {further : Prop} (weaker : further → lost)
    (echoed : Echoed accord lost consumed mirrored first second)
    : Echoed accord further consumed mirrored first second := by
  cases echoed with
  | accepted found shown echoes => exact .accepted (fun holds => found (weaker holds)) shown echoes
  | rejected found => exact .rejected fun holds => found (weaker holds)
  | exhausted found => exact .exhausted fun holds => found (weaker holds)
  | gone gone => exact .gone gone

/-- Two runs go on after accepting the same value, and the first one goes on alone where it has left the
common part.
-/
theorem bind {base mirrorBase : List Token} {parser twin : Parser α}
    {next twinNext : α → Parser β} {state mirror : ParserState}
    (echoed : Echoed accord lost consumed mirrored (parser state) (twin mirror))
    (accepts
      : ∀ value after last tokens,
          ¬lost →
          parser state = .ok value after →
          after.Shows script (consumed ++ tokens) →
          last.Shows other (mirrored ++ tokens) →
          Echoed accord lost base mirrorBase (next value after) (twinNext value last))
    (departs
      : ∀ value after tokens,
          parser state = .ok value after →
          after.Shows script (consumed ++ tokens) →
          accord.Past (Token.endOf 0 (consumed ++ tokens)) →
          Gone accord base (next value after))
    : Echoed accord lost base mirrorBase ((parser >>= next) state) ((twin >>= twinNext) mirror) := by
  change Echoed accord lost base mirrorBase (EStateM.bind parser next state)
    (EStateM.bind twin twinNext mirror)
  unfold EStateM.bind
  generalize parser state = result at echoed accepts departs ⊢
  generalize twin mirror = twinResult at echoed ⊢
  cases echoed with
  | accepted found shown echoes => exact accepts _ _ _ _ found rfl shown echoes
  | rejected found => exact .rejected found
  | exhausted found => exact .exhausted found
  | gone gone =>
      cases gone with
      | departed shown past => exact .gone (departs _ _ _ rfl shown past)
      | failed unblamed => exact .gone (.failed unblamed)

end Echoed

/-- Two states in front of the offset, the second one in the other text, unless the common part is lost. -/
structure Beside (accord : Accord script other) (lost : Prop) (state mirror : ParserState)
    (consumed mirrored : List Token) (offset : Nat)
    : Prop where
  shows : state.Shows script consumed
  ends : Token.endOf 0 consumed = offset
  past : lost → accord.Past offset
  mirrors : ¬lost → mirror.Shows other mirrored
  mirrorEnds : ¬lost → Token.endOf 0 mirrored = offset

/-- From the offset on the second parser echoes the first one. -/
def Echoes (accord : Accord script other) (lost : Prop) (parser twin : Parser α) (offset : Nat)
    : Prop :=
  ∀ state mirror consumed mirrored,
    Beside accord lost state mirror consumed mirrored offset →
    Echoed accord lost consumed mirrored (parser state) (twin mirror)

/-- The second parser echoes the first one wherever they start. -/
def Echo (accord : Accord script other) (parser twin : Parser α) : Prop :=
  ∀ {lost : Prop} {offset : Nat}, Echoes accord lost parser twin offset

namespace Beside

variable {state mirror after last : ParserState}

/-- Both states have consumed the same tokens more. -/
theorem onward {further : Prop} (beside : Beside accord lost state mirror consumed mirrored offset)
    (found : ¬lost) (goesOn : ¬further) (shown : after.Shows script (consumed ++ tokens))
    (echoes : last.Shows other (mirrored ++ tokens))
    : Beside accord further after last (consumed ++ tokens) (mirrored ++ tokens)
        (Token.endOf offset tokens) where
  shows := shown
  ends := by rw [Token.endOf_append, beside.ends]
  past holds := absurd holds goesOn
  mirrors _ := echoes
  mirrorEnds _ := by rw [Token.endOf_append, beside.mirrorEnds found]

end Beside

-----------------------------------------------------------------------------------------
-- Leaving the common part
-----------------------------------------------------------------------------------------

namespace Leaves

/-- Whoever starts past the common part leaves it. -/
theorem of_past {parser twin : Parser α} (past : accord.Past offset) (holds : lost)
    (echoes : Echoes accord lost parser twin offset)
    : Leaves accord parser offset := by
  intro state consumed shows ends
  have beside : Beside accord lost state state consumed [] offset :=
    ⟨shows, ends, fun _ => past, absurd holds, absurd holds⟩
  exact (echoes _ _ _ _ beside).gone_of_lost holds

/-- A parser leaves the common part if its first part does and the rest echoes. -/
theorem bind {parser : Parser α} {next twinNext : α → Parser β}
    (first : Leaves accord parser offset)
    (onward : ∀ value, Echo accord (next value) (twinNext value))
    : Leaves accord (parser >>= next) offset :=
  fun _ _ shows ends =>
    (first _ _ shows ends).bind fun value _ _ _ shown past =>
      (of_past past trivial (onward value) _ _ shown rfl).of_append

theorem map {parser : Parser α} (f : α → β) (leaves : Leaves accord parser offset)
    : Leaves accord (f <$> parser) offset := by
  rw [← bind_pure_comp]
  exact fun _ _ shows ends =>
    (leaves _ _ shows ends).bind fun _ _ _ _ shown past => .departed shown past

/-- The tokens in front of a parser that leaves the common part may still be kept. -/
theorem bind_runs {parser : Parser α} {next : α → Parser β} {value : α}
    (runs : Runs script parser offset tokens value)
    (onward : Leaves accord (next value) (Token.endOf offset tokens))
    : Leaves accord (parser >>= next) offset := by
  intro state consumed shows ends
  obtain ⟨after, ran, shown⟩ := runs _ _ shows ends
  rw [bind_of_ok _ ran]
  exact (onward _ _ shown (by rw [Token.endOf_append, ends])).of_append

/-- What is rejected at a token that is not kept is not blamed. -/
theorem reject_token {token : Token} {cause : Cause} (left : ¬accord.kept token)
    : Leaves (α := α) accord (Parser.reject (token.error cause)) offset := by
  intro state consumed shows ends
  refine .failed fun error same => ?_
  cases same
  exact fun blames => left (accord.kept_of_blamed blames)

/-- A span is added to a result of which nothing is known. -/
theorem spanned {parser : Parser (Span → α)} (leaves : Leaves accord parser offset)
    : Leaves accord (Parser.spanned parser) offset := by
  intro state consumed shows ends
  unfold Parser.spanned
  rw [bind_of_ok _ (checkpoint_shows shows)]
  exact (leaves _ _ shows ends).bind fun build _ _ _ shown past => .since build shown past

end Leaves

namespace Echoes

-----------------------------------------------------------------------------------------
-- Sequences
-----------------------------------------------------------------------------------------

/-- Nothing is asked of the second parser where the first one leaves the common part. -/
theorem of_leaves {parser twin : Parser α} (leaves : Leaves accord parser offset)
    : Echoes accord lost parser twin offset :=
  fun _ _ _ _ beside => .gone (leaves _ _ beside.shows beside.ends)

/-- A value is accepted in both runs. -/
theorem pure (value : α) : Echoes accord lost (pure value) (pure value) offset := by
  intro state mirror consumed mirrored beside
  have shown : state.Shows script (consumed ++ []) := by simpa using beside.shows
  by_cases holds : lost
  · refine .gone (.departed shown ?_)
    rw [List.append_nil, beside.ends]
    exact beside.past holds
  · have echoes : mirror.Shows other (mirrored ++ []) := by simpa using beside.mirrors holds
    exact .accepted holds shown echoes

/-- The same error is rejected in both runs. Where the common part is lost, it must not be blamed. -/
theorem reject {error : SyntaxError} (unblamed : lost → ¬accord.blamed error)
    : Echoes (α := α) accord lost (Parser.reject error) (Parser.reject error) offset := by
  intro state mirror consumed mirrored beside
  by_cases holds : lost
  · exact .gone (.failed fun _ same => Failure.rejected.inj same ▸ unblamed holds)
  · exact .rejected holds

/-- A parser that is out of its bounds is echoed by any parser. -/
theorem fault {cause : Fault} {twin : Parser α}
    : Echoes accord lost (Parser.fault cause) twin offset :=
  fun _ _ _ _ _ => .gone .fault

/-- The second parser may run out of its bounds, which is no excuse past the common part. -/
theorem exhausted {cause : Fault} {parser twin : Parser α}
    (echoes : Echoes accord lost parser twin offset)
    : Echoes accord lost parser (Parser.fault cause) offset := by
  intro state mirror consumed mirrored beside
  by_cases holds : lost
  · exact .gone ((echoes _ _ _ _ beside).gone_of_lost holds)
  · exact .exhausted holds

/-- Parsers echo one after the other. -/
theorem bind {parser twin : Parser α} {next twinNext : α → Parser β}
    (first : Echoes accord lost parser twin offset)
    (onward : ∀ value, Echo accord (next value) (twinNext value))
    : Echoes accord lost (parser >>= next) (twin >>= twinNext) offset :=
  fun _ _ _ _ beside =>
    (first _ _ _ _ beside).bind
      (fun value _ _ _ found _ shown echoes =>
        (onward value _ _ _ _ (beside.onward found found shown echoes)).of_append)
      fun value _ _ _ shown past =>
        (Leaves.of_past past trivial (onward value) _ _ shown rfl).of_append

theorem map {parser twin : Parser α} (f : α → β) (echoes : Echoes accord lost parser twin offset)
    : Echoes accord lost (f <$> parser) (f <$> twin) offset := by
  rw [← bind_pure_comp, ← bind_pure_comp]
  exact echoes.bind fun value => pure (f value)

/-- A condition that does not depend on the run may decide between parsers. -/
theorem ite {condition : Prop} [Decidable condition] {first second twinFirst twinSecond : Parser α}
    (holds : condition → Echoes accord lost first twinFirst offset)
    (fails : ¬condition → Echoes accord lost second twinSecond offset)
    : Echoes accord lost (if condition then first else second)
        (if condition then twinFirst else twinSecond) offset := by
  split_ifs with decided
  · exact holds decided
  · exact fails decided

theorem bind_discard {parser twin : Parser α} {next twinNext : PUnit → Parser β}
    (first
      : Echoes accord lost (parser >>= fun _ => next ⟨⟩) (twin >>= fun _ => twinNext ⟨⟩) offset)
    : Echoes accord lost (Functor.discard parser >>= next) (Functor.discard twin >>= twinNext)
        offset := by
  change Echoes accord lost ((fun _ => PUnit.unit) <$> parser >>= next)
    ((fun _ => PUnit.unit) <$> twin >>= twinNext) offset
  rwa [bind_map_left, bind_map_left]

/-- What comes after a rejection is never reached. -/
theorem bind_reject {error : SyntaxError} {next twinNext : α → Parser β}
    (unblamed : lost → ¬accord.blamed error)
    : Echoes accord lost (Parser.reject error >>= next) (Parser.reject error >>= twinNext) offset :=
  reject unblamed

/-- An error that is not a misfit at a token is never blamed. -/
theorem reject_other {error : SyntaxError} (other : error.cause.isMisfit → error.actual = none)
    : Echoes (α := α) accord lost (Parser.reject error) (Parser.reject error) offset := by
  refine reject fun _ blames => ?_
  obtain ⟨present, misfit⟩ := accord.isMisfit_of_blamed blames
  rw [other misfit] at present
  cases present

end Echoes

-----------------------------------------------------------------------------------------
-- Runs of a text and itself
-----------------------------------------------------------------------------------------

/-- Whenever the parser starts at the offset, it consumes the tokens or runs out of its bounds. -/
def Repeats (script : Script) (parser : Parser α) (offset : Nat) (tokens : List Token) : Prop :=
  ∀ state consumed,
    state.Shows script consumed →
    Token.endOf 0 consumed = offset →
    (∃ value after, parser state = .ok value after ∧ after.Shows script (consumed ++ tokens))
    ∨ ∃ cause after, parser state = .error (.fault cause) after

/-- What is in accord with itself is never left. -/
theorem not_past_self {state : ParserState} (shows : state.Shows script consumed)
    : ¬(Accord.self script).Past (Token.endOf 0 consumed) := by
  intro past
  obtain ⟨token, _, _, read, _⟩ := peek_shows shows .standard
  exact past _ _ read trivial

/-- A parser that echoes itself repeats what it did when it accepted. -/
theorem Repeats.of_echo {parser : Parser α} (steady : Echo (.self script) parser parser)
    : Ensures script parser offset fun _ tokens => Repeats script parser offset tokens := by
  intro state consumed value after shows ends ran
  have again {mirror : ParserState} {mirrored : List Token} (mirrors : mirror.Shows script mirrored)
      (mirrorEnds : Token.endOf 0 mirrored = offset)
      : Echoed (.self script) False consumed mirrored (.ok value after) (parser mirror) :=
    ran ▸ steady state mirror consumed mirrored
      ⟨shows, ends, False.elim, fun _ => mirrors, fun _ => mirrorEnds⟩
  -- Compared with itself the run tells what it consumed, compared with another one that this is the same.
  have first := again shows ends
  rw [ran] at first
  cases first with
  | gone gone =>
      cases gone with
      | departed shown past => exact absurd past (not_past_self shown)
  | @accepted _ tokens _ _ _ shown _ =>
      refine ⟨tokens, shown, fun mirror mirrored mirrors mirrorEnds => ?_⟩
      have second := again mirrors mirrorEnds
      generalize parser mirror = result at second ⊢
      cases second with
      | gone gone =>
          cases gone with
          | departed shown past => exact absurd past (not_past_self shown)
      | exhausted => exact .inr ⟨_, _, rfl⟩
      | accepted _ shown' echoes =>
          rw [List.append_cancel_left (shown'.consumed_eq.symm.trans shown.consumed_eq)] at echoes
          exact .inl ⟨_, _, rfl, echoes⟩

/-- What is repeated up to a place where nothing is kept leaves the common part again. -/
theorem Leaves.of_repeats {parser : Parser α} (repeats : Repeats script parser offset tokens)
    (past : accord.Past (Token.endOf offset tokens))
    : Leaves accord parser offset := by
  intro state consumed shows ends
  rcases repeats _ _ shows ends with ⟨value, after, ran, shown⟩ | ⟨cause, after, ran⟩
  · rw [ran]
    refine .departed shown ?_
    rwa [Token.endOf_append, ends]
  · rw [ran]
    exact .fault

end EcmaSyntax.Parser
