import EcmaSyntax.Proofs.Grammar.Derivation
import EcmaSyntax.Proofs.Token.Modes

/-! Two texts that have tokens in common up to some place. From there on nothing is known of the second text, so
what a parser does with the first one is compared only as far as both are the same.
-/

namespace EcmaSyntax

/-- A kind of valid token that has a text. -/
def Kind.isWritten (kind : Kind) : Bool :=
  kind != .endOfInput && kind != .invalid

/-- Only the end of the input and what is no token have no text. -/
theorem Kind.eq_of_not_isWritten {kind : Kind} (unwritten : ¬kind.isWritten)
    : kind = .endOfInput ∨ kind = .invalid := by
  simpa [isWritten, Classical.or_iff_not_imp_left] using unwritten

/-- Kinds that are read alike in both modes have a text. -/
theorem Kind.isWritten_of_isPlain {kind : Kind} (plain : kind.isPlain) : kind.isWritten := by
  simp only [isPlain, Bool.and_eq_true] at plain
  simp only [isWritten, Bool.and_eq_true]
  exact plain.1

/-- Words have a text. -/
theorem Kind.isWritten_of_isWord {kind : Kind} (word : kind.isWord) : kind.isWritten :=
  isWritten_of_isPlain (isPlain_of_isWord word)

/-- The causes of errors that are about one token, which does not fit where it stands. -/
def Cause.isMisfit : Cause → Bool
  | expectedSyntax _ | requiredTokenNotFound _ | expectedStatementEnd | reservedWord => true
  | _ => false

/-- What a text has in common with another one. The tokens that are `kept` are read in the other text, too, at
the same place; behind a token that is not, none is. The errors that are `blamed` are misfits at tokens that
are kept.
-/
structure Accord (script other : Script) where
  kept : Token → Prop
  blamed : SyntaxError → Prop
  dialect_eq : other.dialect = script.dialect
  reads {mode : LexMode} {offset : Nat} {token : Token} (read : script.Reads mode offset token)
    (keeps : kept token)
    : other.Reads mode offset token
  textOf_eq {mode : LexMode} {offset : Nat} {token : Token} (read : script.Reads mode offset token)
    (keeps : kept token)
    : other.textOf token.span = script.textOf token.span
  not_kept_operand {offset : Nat} {outside inside : Token}
    (read : script.Reads .standard offset outside) (operand : script.Reads .regex offset inside)
    (lost : ¬kept outside)
    : ¬kept inside
  not_kept_stop {mode further : LexMode} {offset : Nat} {token next : Token}
    (read : script.Reads mode offset token) (written : token.kind.isWritten) (lost : ¬kept token)
    (readNext : script.Reads further token.span.stop next)
    : ¬kept next
  kept_of_blamed {token : Token} {cause : Cause} (blames : blamed (token.error cause)) : kept token
  isMisfit_of_blamed {error : SyntaxError} (blames : blamed error)
    : error.actual.isSome ∧ error.cause.isMisfit

namespace Accord

variable {script other : Script} {mode : LexMode} {offset : Nat} {token : Token}

/-- A text has everything in common with itself. -/
def self (script : Script) : Accord script script where
  kept _ := True
  blamed _ := False
  dialect_eq := rfl
  reads read _ := read
  textOf_eq _ _ := rfl
  not_kept_operand _ _ lost := absurd trivial lost
  not_kept_stop _ _ lost _ := absurd trivial lost
  kept_of_blamed _ := trivial
  isMisfit_of_blamed impossible := impossible.elim

variable (accord : Accord script other)

/-- Nothing that is read at the offset is kept. -/
def Past (offset : Nat) : Prop :=
  ∀ mode token, script.Reads mode offset token → ¬accord.kept token

variable {accord}

/-- Where the token at the offset is not kept, nothing is. -/
theorem past_of_reads (read : script.Reads .standard offset token) (lost : ¬accord.kept token)
    : accord.Past offset := by
  intro mode next readNext
  cases mode with
  | standard =>
      obtain rfl := read.unique readNext
      exact lost
  | regex => exact accord.not_kept_operand read readNext lost

/-- Behind a token that is not kept, nothing is. -/
theorem past_stop (read : script.Reads mode offset token) (written : token.kind.isWritten)
    (lost : ¬accord.kept token)
    : accord.Past token.span.stop :=
  fun _ _ readNext => accord.not_kept_stop read written lost readNext

end Accord

end EcmaSyntax
