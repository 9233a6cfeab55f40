import EcmaSyntax.Proofs.Accord.Tokens

/-! Tokens that are looked at and gone back over in two runs, and the spans of what was consumed since a checkpoint.
-/

namespace EcmaSyntax.Parser.Echoes

open EcmaSyntax.Grammar

variable {α β : Type} {script other : Script} {accord : Accord script other}
variable {lost : Prop} {offset : Nat} {mode : LexMode}

/-- Two tokens are looked at. The second one is of importance only behind an identifier; if it is not kept then,
the first run leaves the common part.
-/
theorem bind_peekMany_two {next twinNext : List Token → Parser β}
    (onward
      : ∀ first second,
          script.Reads .standard offset first →
          script.Reads .standard first.span.stop second →
          Echoes accord (¬accord.kept first) (next [first, second]) (twinNext [first, second])
            offset)
    (blind
      : ∀ first second another,
          first.kind ≠ .identifier → twinNext [first, second] = twinNext [first, another])
    (named
      : ∀ first second,
          script.Reads .standard offset first →
          script.Reads .standard first.span.stop second →
          first.kind = .identifier →
          ¬accord.kept second →
          Leaves accord (next [first, second]) offset)
    : Echoes accord lost (peekMany 2 >>= next) (peekMany 2 >>= twinNext) offset := by
  intro state mirror consumed mirrored beside
  have looks {script : Script} {offset : Nat} {first second : Token}
      (readFirst : script.Reads .standard offset first)
      (readSecond : script.Reads .standard first.span.stop second)
      : Runs script (peekMany 2) offset [] [first, second] := by
    rw [← bind_pure (peekMany 2)]
    exact .bind_peekMany_two readFirst readSecond (.pure _)
  obtain ⟨first, _, _, readFirst, shown⟩ := consume_shows beside.shows .standard
  obtain ⟨second, _, _, readSecond, _⟩ := consume_shows shown .standard
  rw [Token.endOf_append] at readSecond
  rw [beside.ends] at readFirst
  obtain ⟨after, ran, shown⟩ := looks readFirst readSecond _ _ beside.shows beside.ends
  have ends : Token.endOf 0 (consumed ++ []) = offset := by rw [List.append_nil, beside.ends]
  rw [bind_of_ok _ ran]
  by_cases keeps : accord.kept first
  · have found : ¬lost := fun holds => beside.past holds _ _ readFirst keeps
    by_cases decides : first.kind = .identifier ∧ ¬accord.kept second
    · have leaves := named first second readFirst readSecond decides.1 decides.2
      exact .gone (leaves _ _ shown ends).of_append
    · have twinRead := accord.reads readFirst keeps
      obtain ⟨another, readAnother⟩ :=
        Token.exists_read? .standard (Token.isBoundary_stop twinRead)
      obtain ⟨last, twinRan, echoes⟩ :=
        looks twinRead readAnother _ _ (beside.mirrors found) (beside.mirrorEnds found)
      -- The second run may see another token there, but only where it makes no difference.
      have same : twinNext [first, another] = twinNext [first, second] := by
        by_cases isName : first.kind = .identifier
        · have keepsSecond : accord.kept second := by
            by_contra lost
            exact decides ⟨isName, lost⟩
          obtain rfl := (accord.reads readSecond keepsSecond).unique readAnother
          rfl
        · exact blind first another second isName
      rw [bind_of_ok _ twinRan, same]
      have echoed := onward first second readFirst readSecond _ _ _ _
        (beside.onward found (not_not.mpr keeps) shown echoes)
      exact echoed.of_append.mono fun holds => absurd holds found
  · have leaves : Leaves accord (next [first, second]) offset :=
      .of_past (Accord.past_of_reads readFirst keeps) keeps
        (onward first second readFirst readSecond)
    exact .gone (leaves _ _ shown ends).of_append

/-- What is read from a checkpoint on and gone back over leaves nothing but its result. If the common part was
left meanwhile, it is left again.
-/
theorem lookahead {probe twinProbe : Parser α} {next twinNext : α → Parser β}
    {found : α → List Token → Prop} (probed : Echoes accord lost probe twinProbe offset)
    (ensures : Ensures script probe offset found)
    (onward
      : ∀ value tokens,
          found value tokens → Echoes accord lost (next value) (twinNext value) offset)
    (left
      : ∀ value tokens,
          found value tokens →
          accord.Past (Token.endOf offset tokens) →
          Leaves accord (next value) offset)
    : Echoes accord lost
        (checkpoint >>= fun start => probe >>= fun value => restore start >>= fun _ => next value)
        (checkpoint >>= fun start =>
          twinProbe >>= fun value => restore start >>= fun _ => twinNext value)
        offset := by
  intro state mirror consumed mirrored beside
  have twinStart : checkpoint mirror = .ok mirror.next mirror := rfl
  rw [bind_of_ok _ (checkpoint_shows beside.shows), bind_of_ok _ twinStart]
  refine (probed _ _ _ _ beside).bind (fun value after last tokens goesOn ran shown echoes => ?_)
    fun value after tokens ran shown past => ?_
  · obtain ⟨_, _, related⟩ := ensures _ _ _ _ beside.shows beside.ends ran
    obtain ⟨back, ranBack, restored⟩ := restore_shows shown consumed.length (by simp)
    obtain ⟨twinBack, ranTwinBack, twinRestored⟩ :=
      restore_shows echoes mirrored.length (by simp)
    rw [bind_of_ok _ ranBack, (beside.mirrors goesOn).next_eq, bind_of_ok _ ranTwinBack]
    exact onward value _ related _ _ _ _ {
      shows := by simpa using restored
      ends := beside.ends
      past := beside.past
      mirrors := fun _ => by simpa using twinRestored
      mirrorEnds := beside.mirrorEnds
    }
  · -- The state is taken back, so what is known of the tokens must carry the rest of the run.
    obtain ⟨more, shown', related⟩ := ensures _ _ _ _ beside.shows beside.ends ran
    obtain rfl : tokens = more :=
      List.append_cancel_left (shown.consumed_eq.symm.trans shown'.consumed_eq)
    rw [Token.endOf_append, beside.ends] at past
    obtain ⟨back, ranBack, restored⟩ := restore_shows shown consumed.length (by simp)
    rw [bind_of_ok _ ranBack]
    exact left value _ related past _ _ (by simpa using restored) beside.ends

/-- A result gets the span of the tokens that were consumed for it, of which there are some. -/
theorem spanned {parser twin : Parser (Span → α)} {relation : α → List Token → Prop}
    (ensures : Ensures script (Parser.spanned parser) offset relation)
    (present : ∀ value tokens, relation value tokens → tokens ≠ [])
    (echoes : Echoes accord lost parser twin offset)
    : Echoes accord lost (Parser.spanned parser) (Parser.spanned twin) offset := by
  intro state mirror consumed mirrored beside
  have twinStart : checkpoint mirror = .ok mirror.next mirror := rfl
  unfold Parser.spanned
  rw [bind_of_ok _ (checkpoint_shows beside.shows), bind_of_ok _ twinStart]
  refine (echoes _ _ _ _ beside).bind (fun build after last tokens found ran shown echoed => ?_)
    fun build _ _ _ shown past => .since build shown past
  have some_tokens : tokens ≠ [] :=
    spanned_ne_nil ensures present beside.shows beside.ends ran shown
  rw [(beside.mirrors found).next_eq, bind_of_ok _ (since_shows shown some_tokens),
    bind_of_ok _ (since_shows echoed some_tokens)]
  exact .accepted found shown echoed

/-- The same, for a result that parses as a phrase. -/
theorem spanned_sound {parser twin : Parser (Span → α)} {phrase : α → Phrase}
    (sound : (Parser.spanned parser).Sound script phrase)
    (consumes : ∀ value, (phrase value).consumes) (echoes : Echoes accord lost parser twin offset)
    : Echoes accord lost (Parser.spanned parser) (Parser.spanned twin) offset :=
  spanned (sound offset) (fun value _ derivation => derivation.ne_nil (consumes value)) echoes

/-- The second parser echoes the first one behind the token, which was consumed since the checkpoint that they
are given.
-/
def After (accord : Accord script other) (token : Token) (parser twin : Nat → Parser α)
    (offset : Nat)
    : Prop :=
  ∀ state mirror consumed mirrored,
    state.Shows script (consumed ++ [token]) →
    Token.endOf 0 consumed = offset →
    (accord.kept token →
      mirror.Shows other (mirrored ++ [token]) ∧ Token.endOf 0 mirrored = offset) →
    Echoed accord (¬accord.kept token) consumed mirrored (parser consumed.length state)
      (twin mirrored.length mirror)

/-- A token is consumed after a checkpoint, to which what follows may go back. -/
theorem bind_checkpoint_consume {next twinNext : Nat → Token → Parser α}
    (onward
      : ∀ token,
          script.Reads .standard offset token →
          After accord token (fun start => next start token) (fun start => twinNext start token)
            offset)
    : Echoes accord lost (checkpoint >>= fun start => Parser.consume >>= next start)
        (checkpoint >>= fun start => Parser.consume >>= twinNext start) offset := by
  intro state mirror consumed mirrored beside
  have twinStart : checkpoint mirror = .ok mirror.next mirror := rfl
  rw [bind_of_ok _ (checkpoint_shows beside.shows), bind_of_ok _ twinStart]
  obtain ⟨token, after, ran, read, shown⟩ := consume_shows beside.shows .standard
  rw [beside.ends] at read
  rw [bind_of_ok _ ran]
  by_cases keeps : accord.kept token
  · have found : ¬lost := fun holds => beside.past holds _ _ read keeps
    obtain ⟨last, twinRan, echoes⟩ :=
      Runs.consume (accord.reads read keeps) _ _ (beside.mirrors found) (beside.mirrorEnds found)
    rw [bind_of_ok _ twinRan, (beside.mirrors found).next_eq]
    have echoed := onward token read _ _ _ _ shown beside.ends
      fun _ => ⟨echoes, beside.mirrorEnds found⟩
    exact echoed.mono fun holds => absurd holds found
  · have echoed := onward token read after mirror _ [] shown beside.ends
      fun kept => absurd kept keeps
    exact .gone (echoed.gone_of_lost keeps)

namespace After

variable {token : Token}

/-- The token stays consumed. -/
theorem keep {parser twin : Parser α} (read : script.Reads .standard offset token)
    (written : token.kind.isWritten)
    (echoes : Echoes accord (¬accord.kept token) parser twin token.span.stop)
    : After accord token (fun _ => parser) (fun _ => twin) offset := by
  intro state mirror consumed mirrored shows ends mirrors
  have echoed := echoes state mirror (consumed ++ [token]) (mirrored ++ [token]) {
    shows := shows
    ends := by simp
    past := Accord.past_stop read written
    mirrors := fun kept => (mirrors (not_not.mp kept)).1
    mirrorEnds := fun _ => by simp
  }
  exact echoed.of_append

/-- The token is gone back over. -/
theorem back {parser twin : Parser α} (read : script.Reads .standard offset token)
    (echoes : Echoes accord (¬accord.kept token) parser twin offset)
    : After accord token (fun start => restore start >>= fun _ => parser)
        (fun start => restore start >>= fun _ => twin) offset := by
  intro state mirror consumed mirrored shows ends mirrors
  obtain ⟨back, ranBack, restored⟩ := restore_shows shows consumed.length (by simp)
  dsimp only
  rw [bind_of_ok _ ranBack, bind_of_ok _ (rfl : restore mirrored.length mirror = .ok ⟨⟩ _)]
  refine echoes _ _ _ _ {
    shows := by simpa using restored
    ends := ends
    past := Accord.past_of_reads read
    mirrors := fun kept => ?_
    mirrorEnds := fun kept => (mirrors (not_not.mp kept)).2
  }
  obtain ⟨twinBack, ranTwinBack, twinRestored⟩ :=
    restore_shows (mirrors (not_not.mp kept)).1 mirrored.length (by simp)
  cases ranTwinBack
  simpa using twinRestored

/-- What follows a parser behind the token goes on as after any other parser that echoes. -/
theorem bind {parser twin : Nat → Parser α} {next twinNext : α → Parser β}
    (first : After accord token parser twin offset)
    (onward : ∀ value, Echo accord (next value) (twinNext value))
    : After accord token (fun start => parser start >>= next) (fun start => twin start >>= twinNext)
        offset := by
  intro state mirror consumed mirrored shows ends mirrors
  refine (first _ _ _ _ shows ends mirrors).bind
    (fun value after last tokens found _ shown echoes => ?_)
    fun value _ _ _ shown past =>
      (Leaves.of_past past trivial (onward value) _ _ shown rfl).of_append
  have echoed := onward value after last (consumed ++ tokens) (mirrored ++ tokens) {
    shows := shown
    ends := rfl
    past := fun holds => absurd holds found
    mirrors := fun _ => echoes
    mirrorEnds := fun _ => by
      rw [Token.endOf_append, Token.endOf_append, ends, (mirrors (not_not.mp found)).2]
  }
  exact echoed.of_append

end After

end EcmaSyntax.Parser.Echoes
