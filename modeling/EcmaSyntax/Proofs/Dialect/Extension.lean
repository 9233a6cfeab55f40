import EcmaSyntax.Proofs.Dialect.Constants
import EcmaSyntax.Proofs.Dialect.Productions

/-! The dialect with `const` extends the one without it. Whatever is accepted without `const` keeps its
tree, whatever is rejected for another reason than a `const` is rejected alike, and what is accepted with
`const` allowed and does without it is accepted by both.
-/

namespace EcmaSyntax

open EcmaSyntax.Parser EcmaSyntax.Grammar

/-- In the dialect with `const` a program is what it is without, unless it is rejected there for a
`const`.
-/
theorem Program.parse_js_eq (source : List Char)
    : (∃ failure, parse source .ecma = .error failure ∧ failure.IsReservedConst)
      ∨ parse source .js = parse source .ecma := by
  have run_eq (dialect : Dialect)
      : (withRules Grammar.program).run (ParserState.ofSource source dialect)
        = withRules Grammar.program ((ParserState.ofSource source .js).inDialect dialect) :=
    rfl
  obtain ⟨failure, after, ran, stops⟩ | ⟨result, ran⟩ :=
    lockstep_program (ParserState.ofSource source .js)
  · left
    cases failure with
    | fault => cases stops
    | rejected error =>
        refine ⟨.rejected (error.locate source), ?_, stops⟩
        rw [parse, run_eq, ran]
  · right
    rw [parse, parse, run_eq, run_eq, ran, ran]
    rcases result with ⟨program, after⟩ | ⟨_ | _, after⟩ <;> rfl

/-- The dialect with `const` is a conservative extension of the one without. -/
theorem Program.js_extends_ecma (source : List Char)
    : (∀ program, parse source .ecma = .ok program → parse source .js = .ok program)
      ∧ (∀ failure,
          parse source .ecma = .error failure →
          ¬failure.IsReservedConst →
          parse source .js = .error failure)
      ∧ (∀ program,
          parse source .js = .ok program →
          (Node.program program).ConstFree →
          parse source .ecma = .ok program) := by
  refine ⟨fun program parsed => ?_, fun failure rejected other => ?_,
    fun program parsed free => parse_inDialect parsed free .ecma⟩
  · obtain ⟨failure, rejected, _⟩ | same := parse_js_eq source
    · cases parsed.symm.trans rejected
    · exact same.trans parsed
  · obtain ⟨stop, stopped, isConst⟩ | same := parse_js_eq source
    · obtain rfl := Except.error.inj (rejected.symm.trans stopped)
      exact absurd isConst other
    · exact same.trans rejected

/-- The cause for which the text is rejected in the dialect. -/
def Program.rejection? (source : List Char) (dialect : Dialect) : Option Cause :=
  match parse source dialect with
  | .error (.rejected error) => some error.cause
  | _ => none

/-- A text that is rejected for a cause is rejected with an error of that cause. -/
theorem Program.exists_error_of_rejection? {source : List Char} {dialect : Dialect} {cause : Cause}
    (rejected : rejection? source dialect = some cause)
    : ∃ error, parse source dialect = .error (.rejected error) ∧ error.cause = cause := by
  unfold rejection? at rejected
  split at rejected
  · next error stopped => exact ⟨error, stopped, Option.some.inj rejected⟩
  · cases rejected

/-- A text that both dialects accept, which has no `const`, and one that both reject for want of a name. -/
theorem Program.js_extends_ecma_var
    : (∃ program,
        parse "var a = b".toList .ecma = .ok program
        ∧ parse "var a = b".toList .js = .ok program
        ∧ (Node.program program).ConstFree)
      ∧ ∃ failure,
          parse "var 1".toList .ecma = .error failure
          ∧ ¬failure.IsReservedConst
          ∧ parse "var 1".toList .js = .error failure := by
  constructor
  · have accepted : ∃ program, parse "var a = b".toList .ecma = .ok program := by
      have answered : (parse "var a = b".toList .ecma).toOption.isSome := by decide +kernel
      cases parsed : parse "var a = b".toList .ecma with
      | ok program => exact ⟨program, rfl⟩
      | error failure =>
          rw [parsed] at answered
          cases answered
    obtain ⟨program, parsed⟩ := accepted
    obtain ⟨keeps, _, back⟩ := js_extends_ecma "var a = b".toList
    have both := keeps program parsed
    have free := constFree_of_parse parsed
    exact ⟨program, back program both free, both, free⟩
  · have stopped : rejection? "var 1".toList .ecma = some (.expectedSyntax "identifier") := by
      decide +kernel
    obtain ⟨error, rejected, cause⟩ := exists_error_of_rejection? stopped
    have other : ¬(Failure.rejected error).IsReservedConst :=
      fun isConst => Cause.noConfusion (isConst.1.symm.trans cause)
    exact ⟨_, rejected, other, (js_extends_ecma "var 1".toList).2.1 _ rejected other⟩

end EcmaSyntax
