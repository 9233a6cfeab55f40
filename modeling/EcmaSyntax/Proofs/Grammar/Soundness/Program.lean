import EcmaSyntax.Grammar.Program
import EcmaSyntax.Proofs.Grammar.Soundness.Statement

/-! What is accepted as a program parses as the grammar has it, for the tower of rules accepts nothing
else at any level.
-/

namespace EcmaSyntax

open EcmaSyntax.Parser EcmaSyntax.Grammar

/-- The statements parse as the tokens from the beginning of the text, and the last token ends it. -/
structure Script.Holds (script : Script) (statements : List Stmt) (tokens : List Token)
    (last : Token)
    : Prop where
  statements
    : Parses script (.repeated (goesUntil .endOfInput) (statements.map (.statement true))) 0 tokens
  read : script.Reads .standard (Token.endOf 0 tokens) last
  ends : last.kind = .endOfInput

variable {script : Script} {rules : Rules}

/-- The rules of the next level are sound if those of the level below are. -/
theorem Rules.Sound.next (sound : rules.Sound script) : rules.next.Sound script where
  expression inAllowed least := expressionFrom_sound sound inAllowed least
  primary inAllowed := primary_sound sound inAllowed
  statement inAllowed := statement_sound sound inAllowed

/-- What the rules for any number of levels accept parses as the grammar has it. -/
theorem Rules.sound_ofDepth (script : Script) (depth : Nat) : (Rules.ofDepth depth).Sound script := by
  induction depth with
  | zero =>
      exact {
        expression := fun _ _ _ => .fault
        primary := fun _ _ => .fault
        statement := fun _ _ => .fault
      }
  | succ depth ih => exact ih.next

/-- A program that is accepted covers the text, and what was consumed are its statements and the end of
the input.
-/
theorem Grammar.program_sound {state after : ParserState} {program : Program}
    (shows : state.Shows script [])
    (ran : withRules Grammar.program state = .ok program after)
    : ∃ tokens last,
        after.consumed = tokens ++ [last]
        ∧ script.Holds program.body tokens last
        ∧ program.span = { start := 0, stop := Text.size script.source } := by
  unfold withRules at ran
  rw [bind_of_ok _ (rfl : (get : Parser ParserState) state = .ok state state)] at ran
  have sound := Rules.sound_ofDepth script (state.source.length + 2)
  have ensures
      : Ensures script (Grammar.program (Rules.ofSource state.source)) 0 fun program tokens =>
          ∃ front last,
            tokens = front ++ [last]
            ∧ script.Holds program.body front last
            ∧ program.span = { start := 0, stop := Text.size script.source } := by
    refine ((sound.statement true).repeatUntil .endOfInput 0).bind fun body front derivation => ?_
    refine .bind_discard_require fun last read ends => .bind_get fun state shown => .pure ?_
    refine ⟨front, last, rfl, ⟨derivation, read, ends⟩, ?_⟩
    rw [ParserState.sourceSpan, shown]
  obtain ⟨tokens, shown, front, last, rfl, holds, span⟩ := ensures _ _ _ _ shows rfl ran
  exact ⟨front, last, shown.consumed_eq, holds, span⟩

/-- What is parsed was accepted by the grammar. -/
theorem Program.parse_eq_ok {source : List Char} {dialect : Dialect} {program : Program}
    : Program.parse source dialect = .ok program
      ↔ ∃ after,
          withRules Grammar.program (ParserState.ofSource source dialect) = .ok program after := by
  have run_eq
      : (withRules Grammar.program).run (ParserState.ofSource source dialect)
          = withRules Grammar.program (ParserState.ofSource source dialect) :=
    rfl
  unfold Program.parse
  rw [run_eq]
  cases withRules Grammar.program (ParserState.ofSource source dialect) with
  | ok result after => simp
  | error failure after => cases failure <;> simp

end EcmaSyntax
