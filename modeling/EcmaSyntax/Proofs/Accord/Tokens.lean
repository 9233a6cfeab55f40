import EcmaSyntax.Proofs.Accord.Runs

/-! Tokens, texts and names in two runs. A token that both runs read is the same as long as it is kept; from one
that is not, the first run goes on past the common part, or rejects it.
-/

namespace EcmaSyntax.Parser.Echoes

open EcmaSyntax.Grammar

variable {α β : Type} {script other : Script} {accord : Accord script other}
variable {lost : Prop} {offset : Nat} {mode : LexMode}

/-- A parser that looks at one token goes on in the same way if the token is kept. -/
theorem bind_reading {parser : Parser α} {value : Token → α} {moved : Token → List Token}
    {next twinNext : α → Parser β}
    (runs
      : ∀ {script : Script} {token : Token},
          script.Reads mode offset token →
          Runs script parser offset (moved token) (value token))
    (kept
      : ∀ token,
          script.Reads mode offset token →
          Echoes accord (¬accord.kept token) (next (value token)) (twinNext (value token))
            (Token.endOf offset (moved token)))
    (left
      : ∀ token,
          script.Reads mode offset token →
          ¬accord.kept token →
          Leaves accord (parser >>= next) offset)
    : Echoes accord lost (parser >>= next) (parser >>= twinNext) offset := by
  intro state mirror consumed mirrored beside
  obtain ⟨token, _, _, read, _⟩ := peek_shows beside.shows mode
  rw [beside.ends] at read
  by_cases keeps : accord.kept token
  · have found : ¬lost := fun holds => beside.past holds _ _ read keeps
    obtain ⟨after, ran, shown⟩ := runs read _ _ beside.shows beside.ends
    obtain ⟨last, twinRan, echoes⟩ :=
      runs (accord.reads read keeps) _ _ (beside.mirrors found) (beside.mirrorEnds found)
    rw [bind_of_ok _ ran, bind_of_ok _ twinRan]
    have echoed := kept token read _ _ _ _ (beside.onward found (not_not.mpr keeps) shown echoes)
    exact echoed.of_append.mono fun holds => absurd holds found
  · exact of_leaves (left token read keeps) _ _ _ _ beside

/-- What looks at one token goes on in the same way if the token is kept. -/
theorem bind_peek {next twinNext : Token → Parser β}
    (onward
      : ∀ token,
          script.Reads .standard offset token →
          Echoes accord (¬accord.kept token) (next token) (twinNext token) offset)
    : Echoes accord lost (Parser.peek >>= next) (Parser.peek >>= twinNext) offset :=
  bind_reading (fun read => .peek read) onward fun token read left =>
    .bind_runs (.peek read) (.of_past (Accord.past_of_reads read left) left (onward token read))

/-- Where an operand is due, a slash may be kept that begins a regular expression that is not. -/
theorem bind_peek_operand {next twinNext : Token → Parser β}
    (onward
      : ∀ token,
          script.Reads .regex offset token →
          Echoes accord (¬accord.kept token) (next token) (twinNext token) offset)
    (slash
      : ∀ token,
          script.Reads .regex offset token →
          ¬accord.kept token →
          token.kind = .literalRegex ∨ token.kind = .invalid →
          Leaves accord (Parser.peek .regex >>= next) offset)
    : Echoes accord lost (Parser.peek .regex >>= next) (Parser.peek .regex >>= twinNext) offset := by
  refine bind_reading (fun read => .peek read) onward fun token read left => ?_
  obtain ⟨rest, cut, _⟩ := Option.map_eq_some_iff.mp read
  obtain ⟨outside, readOutside⟩ := Token.exists_read? .standard ⟨rest, cut⟩
  by_cases keeps : accord.kept outside
  · refine slash token read left ?_
    rcases Script.Reads.modes readOutside read with rfl | ⟨_, ⟨regex, _⟩ | invalid⟩
    · exact absurd keeps left
    · exact .inl regex
    · exact .inr invalid
  · have past := Accord.past_of_reads readOutside keeps
    exact .bind_runs (.peek read) (.of_past past left (onward token read))

/-- The parser rejects the token, whatever the state. -/
def Rejects (token : Token) (parser : Parser α) : Prop :=
  ∃ cause, parser = Parser.reject (token.error cause)

theorem Rejects.unexpected (token : Token) (expected : String)
    : Rejects (α := α) token (Parser.reject (token.unexpected expected)) := by
  unfold Token.unexpected
  split <;> exact ⟨_, rfl⟩

/-- What comes after a rejection does not matter. -/
theorem Rejects.bind {token : Token} {parser : Parser α} {next : α → Parser β}
    (rejects : Rejects token parser)
    : Rejects token (parser >>= next) := by
  obtain ⟨cause, rfl⟩ := rejects
  exact ⟨cause, rfl⟩

/-- A condition that only a valid token with a text meets. -/
theorem Rejects.ite {token : Token} {condition : Prop} [Decidable condition]
    {first second : Parser α} (unwritten : ¬token.kind.isWritten)
    (written : condition → token.kind.isWritten) (rejects : Rejects token second)
    : Rejects token (if condition then first else second) := by
  rwa [if_neg fun holds => unwritten (written holds)]

/-- What is no token, and the end of the text, have to be rejected. -/
theorem bind_consume {next twinNext : Token → Parser β}
    (onward
      : ∀ token,
          script.Reads mode offset token →
          Echoes accord (¬accord.kept token) (next token) (twinNext token) token.span.stop)
    (rejects : ∀ token, ¬token.kind.isWritten → Rejects token (next token))
    : Echoes accord lost (Parser.consume mode >>= next) (Parser.consume mode >>= twinNext)
        offset := by
  refine bind_reading (fun read => .consume read) onward fun token read left =>
    .bind_runs (.consume read) ?_
  by_cases written : token.kind.isWritten
  · exact .of_past (Accord.past_stop read written left) left (onward token read)
  · obtain ⟨cause, same⟩ := rejects token written
    rw [same]
    exact .reject_token left

/-- A token that was looked at before is consumed. -/
theorem bind_discard_consume {next twinNext : PUnit → Parser β}
    (written : ∀ token, script.Reads mode offset token → token.kind.isWritten)
    (onward
      : ∀ token,
          script.Reads mode offset token →
          Echoes accord (¬accord.kept token) (next ⟨⟩) (twinNext ⟨⟩) token.span.stop)
    : Echoes accord lost (Functor.discard (Parser.consume mode) >>= next)
        (Functor.discard (Parser.consume mode) >>= twinNext) offset := by
  refine bind_discard (bind_reading (fun read => .consume read) onward fun token read left => ?_)
  have past := Accord.past_stop read (written token read) left
  exact .bind_runs (.consume read) (.of_past past left (onward token read))

/-- A token that is accepted or left is the same in both runs, or the first run leaves the common part. -/
theorem bind_accept {kind : Kind} {next twinNext : Bool → Parser β} (written : kind.isWritten)
    (taken : Echo accord (next true) (twinNext true))
    (left : Echo accord (next false) (twinNext false))
    : Echoes accord lost (Parser.accept kind >>= next) (Parser.accept kind >>= twinNext) offset := by
  have runs {script : Script} {token : Token} (read : script.Reads .standard offset token)
      : Runs script (Parser.accept kind) offset (if token.kind = kind then [token] else [])
          (decide (token.kind = kind)) := by
    split
    next same => exact decide_eq_true same ▸ .accept_taken read same
    next other => exact decide_eq_false other ▸ .accept_left read other
  have onward (token : Token)
      : Echo accord (next (decide (token.kind = kind))) (twinNext (decide (token.kind = kind))) := by
    by_cases same : token.kind = kind
    · rw [decide_eq_true same]
      exact taken
    · rw [decide_eq_false same]
      exact left
  refine bind_reading runs (fun token _ => onward token) fun token read lost => ?_
  refine .bind_runs (runs read) (.of_past ?_ lost (onward token))
  split
  next same => exact Accord.past_stop read (same ▸ written) lost
  next => exact Accord.past_of_reads read lost

/-- A rejection of a token that is not kept is not blamed. -/
theorem reject_token {token : Token} {cause : Cause}
    : Echoes (α := α) accord (¬accord.kept token) (Parser.reject (token.error cause))
        (Parser.reject (token.error cause)) offset :=
  reject fun left blames => left (accord.kept_of_blamed blames)

/-- A token that does not fit is rejected alike in both runs, as long as it is kept. -/
theorem reject_unexpected {token : Token} (expected : String)
    : Echoes (α := α) accord (¬accord.kept token) (Parser.reject (token.unexpected expected))
        (Parser.reject (token.unexpected expected)) offset := by
  unfold Token.unexpected
  split <;> exact reject_token

/-- A token of the kind that is asked for is consumed in both runs. Any other one is rejected in both. -/
theorem bind_require {kind : Kind} {next twinNext : Token → Parser β} (written : kind.isWritten)
    (onward
      : ∀ token,
          script.Reads mode offset token →
          token.kind = kind →
          Echoes accord (¬accord.kept token) (next token) (twinNext token) token.span.stop)
    : Echoes accord lost (Parser.require kind mode >>= next)
        (Parser.require kind mode >>= twinNext) offset := by
  unfold Parser.require
  rw [bind_assoc, bind_assoc]
  refine bind_consume (fun token read => ?_) fun token unwritten => ?_
  · split
    next same => exact onward token read same
    next =>
      split
      · exact bind_reject fun left blames => left (accord.kept_of_blamed blames)
      · exact bind_reject fun left blames => left (accord.kept_of_blamed blames)
  · refine .bind (.ite unwritten (fun same => same ▸ written) ?_)
    split <;> exact ⟨_, rfl⟩

theorem bind_discard_require {kind : Kind} {next twinNext : PUnit → Parser β}
    (written : kind.isWritten) (onward : Echo accord (next ⟨⟩) (twinNext ⟨⟩))
    : Echoes accord lost (Functor.discard (Parser.require kind mode) >>= next)
        (Functor.discard (Parser.require kind mode) >>= twinNext) offset :=
  bind_discard (bind_require written fun _ _ _ => onward)

/-- A token has a text in both runs, as long as it is kept. -/
theorem bind_textAt {place : Nat} {token : Token} {next twinNext : List Char → Parser β}
    (read : script.Reads mode place token) (keeps : ¬lost → accord.kept token)
    (onward
      : Echoes accord lost (next (script.textOf token.span)) (twinNext (script.textOf token.span))
          offset)
    : Echoes accord lost (textAt token.span >>= next) (textAt token.span >>= twinNext) offset := by
  intro state mirror consumed mirrored beside
  obtain ⟨after, ran, shown⟩ := Runs.textAt read _ _ beside.shows beside.ends
  rw [bind_of_ok _ ran]
  by_cases holds : lost
  · have left : Leaves accord (next (script.textOf token.span)) offset :=
      .of_past (beside.past holds) holds onward
    exact .gone (left _ _ (by simpa using shown) beside.ends)
  · have twinRead := accord.reads read (keeps holds)
    obtain ⟨last, twinRan, echoes⟩ :=
      Runs.textAt twinRead _ _ (beside.mirrors holds) (beside.mirrorEnds holds)
    rw [accord.textOf_eq read (keeps holds)] at twinRan
    rw [bind_of_ok _ twinRan]
    exact (onward _ _ _ _ (beside.onward holds holds shown echoes)).of_append

/-- A name has one text in both runs, as long as its token is kept. -/
theorem bind_nameAt {place : Nat} {token : Token} {next twinNext : String → Parser β}
    (read : script.Reads mode place token) (keeps : ¬lost → accord.kept token)
    (onward
      : Echoes accord lost (next (script.nameOf token)) (twinNext (script.nameOf token)) offset)
    : Echoes accord lost (Parser.nameAt token.span >>= next) (Parser.nameAt token.span >>= twinNext)
        offset := by
  unfold Parser.nameAt
  rw [bind_assoc, bind_assoc]
  exact bind_textAt read keeps onward

theorem nameAt {place : Nat} {token : Token} (read : script.Reads mode place token)
    (keeps : ¬lost → accord.kept token)
    : Echoes accord lost (Parser.nameAt token.span) (Parser.nameAt token.span) offset :=
  bind_textAt read keeps (pure _)

/-- A name is required in both runs, and is the same name. -/
theorem requireIdentifier
    : Echoes accord lost Parser.requireIdentifier Parser.requireIdentifier offset := by
  refine bind_consume (fun token read => ?_) fun token unwritten => ?_
  · exact .ite (fun _ => nameAt read not_not.mp) fun _ =>
      .ite (fun _ => reject_token) fun _ => reject_unexpected _
  · exact .ite unwritten (fun named => named ▸ rfl)
      (.ite unwritten (fun word => Kind.isWritten_of_isWord word) (.unexpected token _))

/-- A token of one of the kinds that are asked for is consumed in both runs. -/
theorem bind_requireSome {condition : Kind → Bool} {expected : String}
    {next twinNext : Token → Parser β}
    (written : ∀ kind, condition kind → kind.isWritten)
    (onward
      : ∀ token,
          script.Reads .standard offset token →
          Echoes accord (¬accord.kept token) (next token) (twinNext token) token.span.stop)
    : Echoes accord lost (requireSome condition expected >>= next)
        (requireSome condition expected >>= twinNext) offset := by
  unfold requireSome
  rw [bind_assoc, bind_assoc]
  refine bind_consume (fun token read => ?_) fun token unwritten => ?_
  · split
    next => exact onward token read
    next => exact reject_unexpected expected
  · exact .bind (.ite unwritten (written token.kind) (.unexpected token expected))

/-- A reserved word is rejected in both runs, as long as it is kept. -/
theorem bind_checkReserved {token : Token} {next twinNext : PUnit → Parser β}
    (left : lost → ¬accord.kept token)
    (onward : Echoes accord lost (next ⟨⟩) (twinNext ⟨⟩) offset)
    : Echoes accord lost (checkReserved token >>= next) (checkReserved token >>= twinNext)
        offset := by
  intro state mirror consumed mirrored beside
  have checks {next : PUnit → Parser β} (state : ParserState)
      : (checkReserved token >>= next) state
        = if isReservedIn state.dialect token.kind then
            .error (.rejected (token.error .reservedWord)) state
          else
            next ⟨⟩ state := by
    unfold checkReserved
    rw [bind_assoc, bind_of_ok _ (rfl : (get : Parser ParserState) state = .ok state state)]
    split <;> rfl
  have dialect_eq (found : ¬lost) : mirror.dialect = state.dialect := by
    rw [(beside.mirrors found).dialect_eq, accord.dialect_eq, beside.shows.dialect_eq]
  rw [checks, checks]
  by_cases holds : lost
  · refine .gone ?_
    split
    · refine .failed fun error same blames => left holds ?_
      cases same
      exact accord.kept_of_blamed blames
    · exact (onward _ _ _ _ beside).gone_of_lost holds
  · rw [dialect_eq holds]
    split
    · exact .rejected holds
    · exact onward _ _ _ _ beside

/-- A statement ends in both runs, by a mark or by what follows. -/
theorem requireStatementEnd
    : Echoes accord lost Parser.requireStatementEnd Parser.requireStatementEnd offset := by
  refine bind_peek fun token read => .ite (fun ends => ?_) fun _ =>
    .ite (fun _ => .pure _) fun _ => reject_token
  rw [← bind_pure (Functor.discard Parser.consume)]
  refine bind_discard_consume (fun again readAgain => ?_) fun _ _ => .pure _
  obtain rfl := read.unique readAgain
  rw [ends]
  rfl

end EcmaSyntax.Parser.Echoes
