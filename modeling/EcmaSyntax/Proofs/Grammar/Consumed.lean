import EcmaSyntax.Proofs.Grammar.Completeness.Program

/-! The tokens that the parse of a program consumes. A program is parsed exactly if its statements parse
as these tokens, which reach to the end of the text.
-/

namespace EcmaSyntax

open EcmaSyntax.Parser EcmaSyntax.Grammar

/-- The tokens that parsing the text consumes before the end of the input, if it is accepted. -/
def Program.tokens (source : List Char) (dialect : Dialect) : List Token :=
  match withRules Grammar.program (ParserState.ofSource source dialect) with
  | .ok _ after => after.consumed.filter fun token => token.kind ≠ .endOfInput
  | .error _ _ => []

/-- Tokens in a row come before the end of the input. -/
theorem Script.Consumes.present {script : Script} {offset : Nat} {tokens : List Token}
    (consumes : script.Consumes offset tokens)
    : ∀ token ∈ tokens, token.kind ≠ .endOfInput := by
  induction tokens generalizing offset with
  | nil => simp
  | cons token tokens ih =>
      obtain ⟨_, present, consumes⟩ := consumes
      simpa [present] using ih consumes

/-- The end of the input is the one token that is not consumed by the statements. -/
theorem Script.Consumes.filter_present {script : Script} {offset : Nat} {tokens : List Token}
    {last : Token} (consumes : script.Consumes offset tokens) (ends : last.kind = .endOfInput)
    : (tokens ++ [last]).filter (fun token => token.kind ≠ .endOfInput) = tokens := by
  rw [List.filter_append, List.filter_eq_self.mpr (by simpa using consumes.present)]
  simp [ends]

namespace Program

variable {source : List Char} {dialect : Dialect} {program : Program}

/-- A program that is parsed covers the text, and its statements parse as the tokens consumed. -/
theorem holds_of_parse (parsed : parse source dialect = .ok program)
    : (∃ last, Script.Holds { source, dialect } program.body (tokens source dialect) last)
      ∧ program.span = { start := 0, stop := Text.size source } := by
  obtain ⟨after, ran⟩ := parse_eq_ok.mp parsed
  obtain ⟨front, last, consumed, holds, span⟩ :=
    program_sound (ParserState.shows_ofSource source dialect) ran
  have same : tokens source dialect = front := by
    unfold tokens
    rw [ran]
    simp only [consumed]
    exact holds.statements.consumes.filter_present holds.ends
  exact ⟨⟨last, same ▸ holds⟩, span⟩

/-- Statements that parse as all tokens of a text are a program. -/
theorem parse_of_holds {statements : List Stmt} {front : List Token} {last : Token}
    (holds : Script.Holds { source, dialect } statements front last)
    : parse source dialect
        = .ok
            {
              span :=
                {
                  start := 0
                  stop := Text.size source
                }
              body := statements
            } := by
  obtain ⟨after, ran, _⟩ := program_complete (ParserState.shows_ofSource source dialect) holds
  exact parse_eq_ok.mpr ⟨after, ran⟩

end Program

end EcmaSyntax
