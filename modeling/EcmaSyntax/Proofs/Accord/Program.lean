import EcmaSyntax.Proofs.Accord.Statement
import EcmaSyntax.Proofs.Grammar.Settling.Program
import EcmaSyntax.Proofs.Text.Positions
import EcmaSyntax.Proofs.Token.Relocation

/-! A misfit at a token depends only on the text up to the end of the token: whatever follows a space there instead,
parsing fails with the same error.
-/

namespace EcmaSyntax

open EcmaSyntax.Parser EcmaSyntax.Grammar

-----------------------------------------------------------------------------------------
-- Texts with a common front
-----------------------------------------------------------------------------------------

section Front

variable {script other : Script} {front back behind : List Char} {mode : LexMode} {offset : Nat}
variable {token : Token}

/-- A token that ends within the front is read in the other text, too. -/
theorem Script.Reads.in_front (source_eq : script.source = front ++ back)
    (other_eq : other.source = front ++ ' ' :: behind) (read : script.Reads mode offset token)
    (written : token.kind.isWritten) (within : token.span.stop ≤ Text.size front)
    : other.Reads mode offset token ∧ other.textOf token.span = script.textOf token.span := by
  simp only [Kind.isWritten, Bool.and_eq_true, bne_iff_ne] at written
  obtain ⟨before, gap, text, rest, rfl, stands⟩ := read.stands written.1 written.2
  have start_eq := stands.lies.start_eq
  have stop_eq := stands.lies.stop_eq
  obtain ⟨middle, rfl, rfl⟩
      : ∃ middle, front = (before ++ gap ++ text) ++ middle ∧ rest = middle ++ back := by
    refine Text.exists_append_of_size_le ?_ (by simp only [Text.size_append]; omega)
    rw [← source_eq, stands.lies.source_eq]
    simp
  have other_eq : other.source = before ++ (gap ++ (text ++ (middle ++ ' ' :: behind))) := by
    simp [other_eq]
  have follows : Text.MayFollow (middle ++ back) (middle ++ ' ' :: behind) := by
    cases middle with
    | nil =>
        refine .inl fun c tail same => ?_
        cases same
        decide
    | cons => exact .inr rfl
  have span_eq
      : token.span
        = {
            start := Text.size before + Text.size gap
            stop := Text.size before + Text.size gap + Text.size text
          } := by
    rw [← stop_eq, ← start_eq]
  have reads := stands.reads other_eq (stands.skip_eq follows) follows
  rw [← span_eq] at reads
  exact ⟨reads, span_eq ▸ stands.textOf_eq other_eq⟩

/-- Texts with a common front, behind which a space stands in one of them. The valid tokens within the front are
kept, and the misfits at them are blamed.
-/
def Accord.ofFront (script other : Script) (front : List Char) {back behind : List Char}
    (source_eq : script.source = front ++ back) (other_eq : other.source = front ++ ' ' :: behind)
    (dialect_eq : other.dialect = script.dialect)
    : Accord script other where
  kept token := token.kind.isWritten ∧ token.span.stop ≤ Text.size front
  blamed error :=
    error.cause.isMisfit
    ∧ error.span.stop ≤ Text.size front
    ∧ ∃ kind, error.actual = some kind ∧ kind.isWritten
  dialect_eq := dialect_eq
  reads read keeps := (read.in_front source_eq other_eq keeps.1 keeps.2).1
  textOf_eq read keeps := (read.in_front source_eq other_eq keeps.1 keeps.2).2
  not_kept_operand {offset outside inside} read operand lost keeps := by
    rcases read.modes operand with rfl | ⟨slash, ⟨_, _, within⟩ | invalid⟩
    · exact lost keeps
    · refine lost ⟨?_, within.trans keeps.2⟩
      simp only [Kind.isSlash, Bool.or_eq_true, decide_eq_true_eq] at slash
      rcases slash with slash | slash <;> exact slash ▸ rfl
    · exact absurd (invalid ▸ keeps.1) (by decide)
  not_kept_stop {mode further offset token next} read written lost readNext keeps := by
    have present : next.kind ≠ .endOfInput := by
      rintro ends
      exact absurd (ends ▸ keeps.1) (by decide)
    have bounds := readNext.start_lt_stop present
    exact lost ⟨written, by have := keeps.2; omega⟩
  kept_of_blamed {token cause} blames := by
    obtain ⟨_, within, kind, same, written⟩ := blames
    cases same
    exact ⟨written, within⟩
  isMisfit_of_blamed blames := by
    obtain ⟨misfit, _, kind, same, _⟩ := blames
    exact ⟨same ▸ rfl, misfit⟩

end Front

-----------------------------------------------------------------------------------------
-- All levels of nesting
-----------------------------------------------------------------------------------------

namespace Rules

variable {script other : Script} {accord : Accord script other} {rules twin : Rules}

/-- The rules of the next level echo if those of the level below do. -/
theorem Echo.next (steady : Rules.Echo (.self script) rules rules)
    (echo : Rules.Echo accord rules twin)
    : Rules.Echo accord rules.next twin.next where
  sound := echo.sound.next
  expression := expressionFrom_echo echo
  primary := primary_echo echo
  statement := statement_echo steady echo

/-- The rules at the end of the tower are never blamed. -/
theorem echo_exhausted (accord : Accord script other) (twin : Rules)
    : Rules.Echo accord exhausted twin where
  sound := sound_ofDepth script 0
  expression _ _ := .fault
  primary _ := .fault
  statement _ := .fault

/-- The rules of any height echo themselves, by induction on the height. -/
theorem steady_ofDepth (script : Script) (depth : Nat)
    : Rules.Echo (.self script) (ofDepth depth) (ofDepth depth) := by
  induction depth with
  | zero => exact echo_exhausted _ _
  | succ depth ih => exact ih.next ih

/-- The rules of any heights echo. -/
theorem echo_ofDepth (accord : Accord script other) (depth limit : Nat)
    : Rules.Echo accord (ofDepth depth) (ofDepth limit) := by
  induction depth generalizing limit with
  | zero => exact echo_exhausted accord _
  | succ depth ih =>
      cases limit with
      | zero =>
          -- The second text has no level left, which is no excuse once the common part is lost.
          have echo := (steady_ofDepth script depth).next (ih 0)
          exact {
            sound := echo.sound
            expression := fun inAllowed least => .exhausted (echo.expression inAllowed least)
            primary := fun inAllowed => .exhausted (echo.primary inAllowed)
            statement := fun inAllowed => .exhausted (echo.statement inAllowed)
          }
      | succ limit => exact (steady_ofDepth script depth).next (ih limit)

end Rules

namespace Grammar

variable {script other : Script} {accord : Accord script other} {state mirror after : ParserState}
variable {error : SyntaxError}

/-- Where the text has to end, any other token is rejected. -/
theorem requireEnd_rejects {α : Type} {consumed : List Token} {token : Token}
    (next : PUnit → Parser α) (shows : state.Shows script consumed)
    (read : script.Reads .standard (Token.endOf 0 consumed) token)
    (present : token.kind ≠ .endOfInput)
    : ∃ after,
        (discard (Parser.require .endOfInput) >>= next) state
        = .error (.rejected (token.error (.requiredTokenNotFound .endOfInput))) after := by
  obtain ⟨found, after, ran, readFound, _⟩ := consume_shows shows .standard
  obtain rfl := read.unique readFound
  have rejects
      : Parser.require .endOfInput .standard state
        = .error (.rejected (token.error (.requiredTokenNotFound .endOfInput))) after := by
    unfold Parser.require
    rw [bind_of_ok _ ran, if_neg present, if_neg present]
    rfl
  refine ⟨after, ?_⟩
  change EStateM.bind (EStateM.map _ (Parser.require .endOfInput)) next state = _
  rw [EStateM.bind, EStateM.map, rejects]

/-- Nothing else is rejected there. -/
theorem exists_of_requireEnd {α : Type} {consumed : List Token} {next : PUnit → Parser α}
    (shows : state.Shows script consumed)
    (ran : (discard (Parser.require .endOfInput) >>= next) state = .error (.rejected error) after)
    (accepts : ∀ state, ∃ value after, next ⟨⟩ state = .ok value after)
    : ∃ token,
        script.Reads .standard (Token.endOf 0 consumed) token
        ∧ token.kind ≠ .endOfInput
        ∧ error = token.error (.requiredTokenNotFound .endOfInput) := by
  obtain ⟨token, _, _, read, _⟩ := peek_shows shows .standard
  by_cases ends : token.kind = .endOfInput
  · obtain ⟨between, required, _⟩ := Runs.discard (.require read ends) _ _ shows rfl
    obtain ⟨value, last, accepted⟩ := accepts between
    cases ((bind_of_ok next required).trans accepted).symm.trans ran
  · obtain ⟨last, rejects⟩ := requireEnd_rejects next shows read ends
    cases rejects.symm.trans ran
    exact ⟨token, read, ends, rfl⟩

/-- A program that is rejected with an error that is blamed is rejected with it in the other text, too, unless
that run is out of its bounds.
-/
theorem program_echo (depth limit : Nat) (shows : state.Shows script [])
    (mirrors : mirror.Shows other [])
    (ran : program (Rules.ofDepth depth) state = .error (.rejected error) after)
    (blames : accord.blamed error)
    : ∃ failure last,
        program (Rules.ofDepth limit) mirror = .error failure last
        ∧ (failure = .rejected error ∨ ∃ cause, failure = .fault cause) := by
  have beside : Beside accord False state mirror [] [] 0 :=
    ⟨shows, rfl, False.elim, fun _ => mirrors, fun _ => rfl⟩
  have echoed := statements_echo (Rules.echo_ofDepth accord depth limit) true .endOfInput
    _ _ _ _ beside
  unfold program at ran ⊢
  change EStateM.bind _ _ state = _ at ran
  change ∃ failure last, EStateM.bind _ _ mirror = _ ∧ _
  unfold EStateM.bind at ran ⊢
  generalize (Rules.ofDepth depth).statements true .endOfInput state = result at ran echoed
  generalize (Rules.ofDepth limit).statements true .endOfInput mirror = twinResult at echoed ⊢
  cases echoed with
  | rejected =>
      cases ran
      exact ⟨_, _, rfl, .inl rfl⟩
  | exhausted => exact ⟨_, _, rfl, .inr ⟨_, rfl⟩⟩
  | gone gone =>
      cases gone with
      | failed unblamed =>
          cases ran
          exact absurd blames (unblamed _ rfl)
      | departed shown past =>
          dsimp only at ran
          obtain ⟨token, read, _, rfl⟩ := exists_of_requireEnd shown ran fun _ => ⟨_, _, rfl⟩
          exact absurd (accord.kept_of_blamed blames) (past _ _ read)
  | accepted _ shown echoes =>
      dsimp only at ran ⊢
      obtain ⟨token, read, present, rfl⟩ := exists_of_requireEnd shown ran fun _ => ⟨_, _, rfl⟩
      have twinRead := accord.reads read (accord.kept_of_blamed blames)
      obtain ⟨last, rejects⟩ := requireEnd_rejects _ echoes twinRead present
      exact ⟨_, _, rejects, .inl rfl⟩

end Grammar

-----------------------------------------------------------------------------------------
-- Errors
-----------------------------------------------------------------------------------------

/-- An error within a front of the text has a position that the front decides. -/
theorem SyntaxError.locate_append {error : SyntaxError} {front : List Char}
    (within : error.span.start < Text.size front) (rest other : List Char)
    : error.locate (front ++ rest) = error.locate (front ++ other) := by
  unfold locate Position.ofOffset
  rw [Position.advance_append rest other front _ _ within]

/-- A misfit that names a token is about a valid token with a text. -/
theorem Script.Blames.exists_misfit {script : Script} {error : SyntaxError}
    (blames : script.Blames error) (named : error.actual.isSome) (misfit : error.cause.isMisfit)
    : ∃ kind,
        error.actual = some kind ∧ kind.isWritten ∧ error.span.start < error.span.stop := by
  have grammatical : error.cause.kind = .grammatical ∧ error.cause ≠ .unexpectedEnd := by
    generalize error.cause = cause at misfit
    cases cause <;> simp_all [Cause.isMisfit, Cause.kind]
  have present : error.actual ≠ some .endOfInput :=
    fun ends => grammatical.2 (blames.unexpectedEnd_iff.mpr ends)
  have valid : error.actual ≠ some .invalid := by
    intro invalid
    have lexical := blames.lexical_iff.mpr (.inl invalid)
    rw [grammatical.1] at lexical
    cases lexical
  cases blames with
  | @token _ _ token cause met =>
      have kinds : token.kind ≠ .endOfInput ∧ token.kind ≠ .invalid :=
        ⟨fun ends => present (congrArg some ends), fun invalid => valid (congrArg some invalid)⟩
      refine ⟨token.kind, rfl, ?_, (met.read.start_lt_stop kinds.1).2.1⟩
      simpa [Kind.isWritten] using kinds
  | escape => cases misfit
  | phrase => cases named

namespace Program

variable {source : List Char} {dialect : Dialect}

/-- What parsing is rejected for is something in the text, at a place that is then looked up. -/
theorem exists_run_of_parse {error : SyntaxError}
    (failed : parse source dialect = .error (.rejected error))
    : ∃ blamed after,
        Grammar.program (Rules.ofDepth (source.length + 2)) (ParserState.ofSource source dialect)
          = .error (.rejected blamed) after
        ∧ Script.Blames { source, dialect } blamed
        ∧ error = blamed.locate source := by
  have settled : ∃ first, Settled { source, dialect } [] first
      (Grammar.program (Rules.ofDepth (source.length + 2)) (ParserState.ofSource source dialect)) :=
    ⟨_, settled_of_lt (Nat.lt_succ_self source.length)⟩
  rw [parse_eq_outcome] at failed
  generalize Grammar.program _ (ParserState.ofSource source dialect) = result at settled failed ⊢
  obtain ⟨first, settled⟩ := settled
  cases settled with
  | accepted => cases failed
  | rejected blames =>
      cases failed
      exact ⟨_, _, rfl, blames, rfl⟩

/-- A grammatical error at a token depends only on the text up to the end of the token: whatever stands there
behind a space instead, parsing fails with the same error.
-/
theorem parse_front_of_misfit {error : SyntaxError}
    (failed : parse source dialect = .error (.rejected error)) (named : error.actual.isSome)
    (misfit : error.cause.isMisfit)
    : ∃ front,
        Text.take? error.span.stop source = some front
        ∧ ∀ behind, parse (front ++ ' ' :: behind) dialect = .error (.rejected error) := by
  obtain ⟨blamed, after, ran, blames, rfl⟩ := exists_run_of_parse failed
  obtain ⟨kind, actual_eq, written, nonempty⟩ := blames.exists_misfit named misfit
  -- The front is all that the error is about, and its position is looked up in the front alone.
  obtain ⟨rest, cut⟩ := blames.within.stop_boundary
  obtain ⟨front, source_eq, size_eq⟩ := Text.drop?_eq_some.mp cut
  change source = front ++ rest at source_eq
  subst source_eq
  refine ⟨front, Text.take?_eq_some.mpr ⟨rest, rfl, size_eq⟩, fun behind => ?_⟩
  let accord : Accord ⟨front ++ rest, dialect⟩ ⟨front ++ ' ' :: behind, dialect⟩ :=
    .ofFront _ _ front rfl rfl rfl
  have isBlamed : accord.blamed blamed := ⟨misfit, size_eq.ge, kind, actual_eq, written⟩
  obtain ⟨failure, last, twinRan, found⟩ :=
    program_echo _ ((front ++ ' ' :: behind).length + 2)
      (ParserState.shows_ofSource (front ++ rest) dialect)
      (ParserState.shows_ofSource (front ++ ' ' :: behind) dialect) ran isBlamed
  have twin := parse_eq_outcome (front ++ ' ' :: behind) dialect
  rw [twinRan] at twin
  rcases found with rfl | ⟨cause, rfl⟩
  · rw [twin, outcome, SyntaxError.locate_append (size_eq ▸ nonempty) _ rest]
  · obtain ⟨_, _, _, _, terminates⟩ :=
      parse_terminates (front ++ ' ' :: behind) dialect (Nat.lt_succ_self _)
    exact absurd twin (terminates cause)

/-- The first clause of a `for` header ends at a token that does not fit, which was looked at twice. -/
theorem parse_front_of_misfit_forHeader
    : ∃ error,
        parse "for (a b;;) {}".toList .ecma = .error (.rejected error)
        ∧ error.cause = .requiredTokenNotFound .semicolon
        ∧ error.actual = some .identifier
        ∧ ∀ behind, parse ("for (a b".toList ++ ' ' :: behind) .ecma = .error (.rejected error) := by
  have rejected
      : syntaxError? "for (a b;;) {}".toList .ecma
        = some {
            cause := .requiredTokenNotFound .semicolon
            span := { start := 7, stop := 8 }
            actual := some .identifier
            position := some { line := 1, column := 8 }
          } := by
    decide +kernel
  have failed := syntaxError?_eq_some.mp rejected
  obtain ⟨front, cut, same⟩ := parse_front_of_misfit failed rfl rfl
  have ends : Text.take? 8 "for (a b;;) {}".toList = some "for (a b".toList := by decide
  cases ends.symm.trans cut
  exact ⟨_, failed, rfl, rfl, same⟩

end Program

end EcmaSyntax
