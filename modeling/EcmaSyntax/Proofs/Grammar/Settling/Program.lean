import EcmaSyntax.Proofs.Grammar.Settling.Statement
import EcmaSyntax.Proofs.Grammar.Soundness.Program

/-! Every text is parsed or rejected for something in it. Parsing comes to an end: what it gives does not
depend on the bounds, from the length of the text on, because every statement, expression and function
leads further into the text.
-/

namespace EcmaSyntax

open EcmaSyntax.Parser EcmaSyntax.Grammar

variable {script : Script}

/-- As many levels of nesting as characters that are left suffice. -/
theorem Rules.settles_ofDepth (script : Script) {size depth limit : Nat} (enough : size ≤ depth)
    (room : size ≤ limit)
    : Rules.Settles script size (ofDepth depth) (ofDepth limit) := by
  induction size generalizing depth limit with
  | zero =>
      exact {
        sound := sound_ofDepth script depth
        expression := fun _ _ within => absurd within (Nat.not_lt_zero _)
        primary := fun _ within => absurd within (Nat.not_lt_zero _)
        statement := fun _ within => absurd within (Nat.not_lt_zero _)
      }
  | succ size ih =>
      obtain ⟨depth, rfl⟩ := Nat.exists_eq_add_one_of_ne_zero (Nat.ne_zero_of_lt enough)
      obtain ⟨limit, rfl⟩ := Nat.exists_eq_add_one_of_ne_zero (Nat.ne_zero_of_lt room)
      have settles := ih (Nat.le_of_succ_le_succ enough) (Nat.le_of_succ_le_succ room)
      exact {
        sound := sound_ofDepth script (depth + 1)
        expression := fun inAllowed least within =>
          expressionFrom_settles settles (Nat.le_of_lt_succ within) inAllowed least
        primary := fun inAllowed within =>
          primary_settles settles (Nat.le_of_lt_succ within) inAllowed
        statement := fun inAllowed within =>
          statement_settles settles (Nat.le_of_lt_succ within) inAllowed
      }

/-- A program is settled with more levels of nesting than the text has characters. -/
theorem Grammar.program_settles {depth limit : Nat} (enough : script.source.length < depth)
    (room : script.source.length < limit)
    : Settles script (Grammar.program (Rules.ofDepth depth)) (Grammar.program (Rules.ofDepth limit))
        0 := by
  have settles : Rules.Settles script (script.source.length + 1) _ _ :=
    Rules.settles_ofDepth script (Nat.succ_le_of_lt enough) (Nat.succ_le_of_lt room)
  have statements : Settles script _ _ 0 :=
    Settles.repeatUntil (settles.sound.statement true) (fun _ => rfl) .endOfInput
      fun place _ => settles.statement true (Nat.lt_succ_of_le (script.left_le place))
  refine statements.bind_last fun body place => ?_
  refine ((Settles.require .endOfInput .standard).map _).bind_last fun _ place => .bind_get ?_
  intro state mirror same sameMirror
  rw [ParserState.sourceSpan, ParserState.sourceSpan, same, sameMirror]
  exact .pure _

namespace Program

/-- What parsing gives, or why there is nothing. -/
def outcome (source : List Char)
    : EStateM.Result Failure ParserState Program → Except Failure Program
  | .ok program _ => .ok program
  | .error (.rejected error) _ => .error (.rejected (error.locate source))
  | .error (.fault fault) _ => .error (.fault fault)

/-- Parsing with so many levels of nesting, and so many items in each repetition. -/
def parseWithin (bound : Nat) (source : List Char) (dialect : Dialect) : Except Failure Program :=
  outcome source
    ((Grammar.program (Rules.ofDepth bound)).run
      { ParserState.ofSource source dialect with bound })

variable {source : List Char} {dialect : Dialect}

/-- Parsing is running the rules at the height of the source on its tokens. -/
theorem parse_eq_outcome (source : List Char) (dialect : Dialect)
    : parse source dialect
      = outcome source
          (Grammar.program (Rules.ofDepth (source.length + 2)) (ParserState.ofSource source dialect)) := by
  have run_eq
      : (withRules Grammar.program).run (ParserState.ofSource source dialect)
        = Grammar.program (Rules.ofDepth (source.length + 2)) (ParserState.ofSource source dialect) :=
    rfl
  unfold parse
  rw [run_eq]
  cases Grammar.program (Rules.ofDepth (source.length + 2)) (ParserState.ofSource source dialect) with
  | ok => rfl
  | error failure => cases failure <;> rfl

/-- Parsing with any bound beyond the length of the text settles as parsing does. -/
theorem settled_of_lt {bound : Nat} (enough : source.length < bound)
    : Settled { source, dialect } []
        (Grammar.program (Rules.ofDepth bound) { ParserState.ofSource source dialect with bound })
        (Grammar.program (Rules.ofDepth (source.length + 2)) (ParserState.ofSource source dialect)) := by
  have shows := ParserState.shows_ofSource source dialect
  have room : source.length < source.length + 2 := Nat.lt_add_of_pos_right (by decide)
  have settles : Settles { source, dialect } _ _ 0 := program_settles enough room
  refine settles _ _ _ ?_ shows rfl
  exact ⟨⟨Nat.le_refl 0, trivial, rfl⟩, rfl, rfl, enough, rfl⟩

/-- Two runs that settle have the same outcome: a program, or an error about something in the text. -/
theorem outcome_of_settled {script : Script} {consumed : List Token}
    {first second : EStateM.Result Failure ParserState Program}
    (settled : Settled script consumed first second)
    : outcome source first = outcome source second
      ∧ ((∃ program, outcome source second = .ok program)
        ∨ ∃ error,
            outcome source second = .error (.rejected (error.locate source))
            ∧ script.Blames error) := by
  cases settled with
  | accepted => exact ⟨rfl, .inl ⟨_, rfl⟩⟩
  | rejected blames => exact ⟨rfl, .inr ⟨_, rfl, blames⟩⟩

/-- Parsing with any bound beyond the length of the text gives what parsing gives. -/
theorem parseWithin_eq_parse {bound : Nat} (enough : source.length < bound)
    : parseWithin bound source dialect = parse source dialect := by
  rw [parse_eq_outcome]
  exact (outcome_of_settled (settled_of_lt enough)).1

/-- A text is parsed, or rejected for something in it. -/
theorem parse_or_blames (source : List Char) (dialect : Dialect)
    : (∃ program, parse source dialect = .ok program)
      ∨ ∃ error,
          parse source dialect = .error (.rejected (error.locate source))
          ∧ Script.Blames { source, dialect } error := by
  rw [parse_eq_outcome]
  exact (outcome_of_settled (settled_of_lt (Nat.lt_succ_self source.length))).2

-----------------------------------------------------------------------------------------
-- Errors
-----------------------------------------------------------------------------------------

/-- The error that parsing is rejected with. -/
def syntaxError? (source : List Char) (dialect : Dialect) : Option SyntaxError :=
  match parse source dialect with
  | .error (.rejected error) => some error
  | _ => none

/-- There is an error exactly if parsing is rejected with it. -/
theorem syntaxError?_eq_some {error : SyntaxError}
    : syntaxError? source dialect = some error
      ↔ parse source dialect = .error (.rejected error) := by
  unfold syntaxError?
  split
  next rejected failed => simp [failed]
  next other =>
    refine ⟨fun none => ?_, fun failed => (other error failed).elim⟩
    cases none

/-- Errors are told apart by the token that they name. It is the end of the input exactly if that was not
expected; it is invalid, or a string literal with an escape that has no meaning, exactly if the cause
is lexical; and an error at an invalid token is the one that the lexer came to.
-/
theorem error_of_parse {failure : Failure} (failed : parse source dialect = .error failure)
    : ∃ error,
        failure = .rejected error
        ∧ (error.cause = .unexpectedEnd ↔ error.actual = some .endOfInput)
        ∧ (error.cause.kind = .lexical
            ↔ error.actual = some .invalid
              ∨ error.cause = .invalidCharacterEscape ∧ error.actual = some .literalString)
        ∧ (error.actual = some .invalid →
            ∃ mode offset token,
              Script.Meets { source, dialect } mode offset token
              ∧ token.kind = .invalid
              ∧ token.lexical = some error.cause
              ∧ token.span = error.span) := by
  obtain ⟨program, parsed⟩ | ⟨error, rejected, blames⟩ := parse_or_blames source dialect
  · cases parsed.symm.trans failed
  · cases rejected.symm.trans failed
    exact ⟨_, rfl, blames.unexpectedEnd_iff, blames.lexical_iff, blames.exists_invalid⟩

/-- A string that does not end is blamed on a token that the lexer comes to. -/
theorem error_of_parse_quote
    : ∃ error,
        parse "a = '".toList .ecma = .error (.rejected error)
        ∧ error.cause = .unterminatedString
        ∧ error.cause.kind = .lexical
        ∧ ∃ mode offset token,
            Script.Meets { source := "a = '".toList, dialect := .ecma } mode offset token
            ∧ token.kind = .invalid
            ∧ token.lexical = some error.cause
            ∧ token.span = error.span := by
  have rejected
      : syntaxError? "a = '".toList .ecma
        = some {
            cause := .unterminatedString
            span := { start := 4, stop := 5 }
            actual := some .invalid
            position := some { line := 1, column := 5 }
          } := by
    decide +kernel
  have failed := syntaxError?_eq_some.mp rejected
  obtain ⟨error, same, _, lexical, invalid⟩ := error_of_parse failed
  cases same
  exact ⟨_, failed, rfl, lexical.mpr (.inl rfl), invalid rfl⟩

-----------------------------------------------------------------------------------------
-- Termination
-----------------------------------------------------------------------------------------

end Program

/-- Whenever the parser accepts, the last consumed token ends further on than before, and within the
text.
-/
def Parser.Advances {α : Type} (parser : Parser α) : Prop :=
  ∀ state value after,
    state.Consistent →
    state.source.length < state.bound →
    parser state = .ok value after →
    Token.endOf 0 state.consumed < Token.endOf 0 after.consumed
    ∧ Token.endOf 0 after.consumed ≤ Text.size state.source

/-- What parses as phrases that consume a token advances. -/
theorem Parser.advances_of_sound {α : Type} {parser : Parser α} {phrase : α → Phrase}
    (sound : ∀ script, parser.Sound script phrase) (consumes : ∀ value, (phrase value).consumes)
    : parser.Advances := by
  intro state value after consistent room ran
  have shows : state.Shows { source := state.source, dialect := state.dialect } state.consumed :=
    ⟨consistent, rfl, rfl, room, rfl⟩
  obtain ⟨tokens, shown, derivation⟩ := sound _ _ _ _ _ _ shows rfl ran
  have present := derivation.ne_nil (consumes value)
  have bounds := derivation.consumes.spanOf present
  have within := derivation.consumes.endOf_le present
  rw [shown.consumed_eq, Token.endOf_append]
  exact ⟨by omega, within⟩

namespace Program

/-- Statements, expressions and functions advance, whatever the levels of nesting, so parsing comes to an end:
no bound is reached, and any that exceeds the length of the text gives what parsing gives.
-/
theorem parse_terminates {bound : Nat} (source : List Char) (dialect : Dialect)
    (enough : source.length < bound)
    : (∀ depth inAllowed, (Grammar.statement (Rules.ofDepth depth) inAllowed).Advances)
      ∧ (∀ depth inAllowed least,
          (Grammar.expressionFrom (Rules.ofDepth depth) inAllowed least).Advances)
      ∧ (∀ depth, (Grammar.function (Rules.ofDepth depth)).Advances)
      ∧ parseWithin bound source dialect = parse source dialect
      ∧ ∀ fault, parse source dialect ≠ .error (.fault fault) := by
  refine ⟨?_, ?_, ?_, parseWithin_eq_parse enough, ?_⟩
  · exact fun depth inAllowed => advances_of_sound
      (fun script => statement_sound (Rules.sound_ofDepth script depth) inAllowed) fun _ => rfl
  · exact fun depth inAllowed least => advances_of_sound
      (fun script => expressionFrom_sound (Rules.sound_ofDepth script depth) inAllowed least)
      fun _ => rfl
  · exact fun depth => advances_of_sound
      (fun script => function_sound (Rules.sound_ofDepth script depth)) fun _ => rfl
  · intro fault stuck
    obtain ⟨program, parsed⟩ | ⟨error, rejected, _⟩ := parse_or_blames source dialect
    · cases parsed.symm.trans stuck
    · cases rejected.symm.trans stuck

/-- A loop over names of properties is parsed within a bound that is just above its length. -/
theorem parse_terminates_for
    : "for (a in b) c".toList.length < 15
      ∧ parseWithin 15 "for (a in b) c".toList .ecma = parse "for (a in b) c".toList .ecma
      ∧ (parse "for (a in b) c".toList .ecma).toOption.isSome := by
  have enough : "for (a in b) c".toList.length < 15 := by decide
  obtain ⟨_, _, _, same, _⟩ := parse_terminates "for (a in b) c".toList .ecma enough
  exact ⟨enough, same, by decide +kernel⟩

end Program

end EcmaSyntax
