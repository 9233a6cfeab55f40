import EcmaSyntax.Proofs.Bytes.Stream
import EcmaSyntax.Proofs.Grammar.Consumed

/-! The tokens read without a grammar are those that the parser consumes, where the token before each slash
tells what the parser took the slash for. Tokens without a slash in front are the same in both modes, so one
token after the other is read as it was consumed.
-/

namespace EcmaSyntax

open EcmaSyntax.Parser EcmaSyntax.Grammar

/-- What a slash opens at the beginning of a text or behind a token of the kind. -/
def LexMode.behind (previous : Option Kind) : LexMode :=
  previous.elim .regex .after

/-- Every token that begins with a slash is a division exactly if it stands behind a token that ends an
operand.
-/
inductive Script.SlashesDivide (script : Script) : Option Kind → List Token → Prop
  | nil {previous : Option Kind} : SlashesDivide script previous []
  | cons {previous : Option Kind} {token : Token} {tokens : List Token}
    (divides
      : (script.textOf token.span).head? = some '/' →
        (token.kind.isSlash ↔ previous.any Kind.endsOperand))
    (rest : SlashesDivide script (some token.kind) tokens)
    : SlashesDivide script previous (token :: tokens)

namespace Script

variable {script : Script} {offset : Nat} {previous : Option Kind} {token last : Token}
  {tokens : List Token}

/-- The front of tokens whose slashes divide has such slashes too. -/
theorem SlashesDivide.front {back : List Token} (divide : script.SlashesDivide previous (tokens ++ back))
    : script.SlashesDivide previous tokens := by
  induction tokens generalizing previous with
  | nil => exact .nil
  | cons token tokens ih =>
      rcases divide with _ | ⟨divides, rest⟩
      exact .cons divides (ih rest)

/-- A slash divides exactly behind a token that ends an operand. -/
theorem behind_eq (previous : Option Kind)
    : LexMode.behind previous = if previous.any Kind.endsOperand then .standard else .regex := by
  cases previous <;> rfl

/-- A token that was consumed is read in the mode that the token before it suggests. -/
theorem Reads.behind (read : script.Reads token.kind.mode offset token)
    (present : token.kind ≠ .endOfInput)
    (divides
      : (script.textOf token.span).head? = some '/' →
        (token.kind.isSlash ↔ previous.any Kind.endsOperand))
    : script.Reads (.behind previous) offset token := by
  obtain ⟨front, gap, text, rest, _, lies, origin⟩ := Token.read?_eq_some read
  by_cases slash : ∃ tail, Text.drop? token.span.start script.source = some ('/' :: tail)
  · obtain ⟨tail, slash⟩ := slash
    have same : text ++ rest = '/' :: tail := Option.some.inj (lies.drop?_start.symm.trans slash)
    obtain ⟨c, inner, rfl⟩ := List.exists_cons_of_ne_nil (origin.text_ne_nil present)
    obtain ⟨rfl, _⟩ := List.cons.inj same
    have divides := divides (by rw [script.textOf_of_lies lies, List.head?_cons])
    unfold Kind.mode at read
    simp only [behind_eq, ← divides]
    split_ifs at read ⊢ with isSlash isRegex isRegex
    · rw [isRegex] at isSlash
      cases isSlash
    · exact read
    · exact read
    · exact read.toRegex (by simpa using isSlash)
  · exact Token.read?_mode _ read fun tail found => slash ⟨tail, found⟩

/-- The end of the input is read in every mode. -/
theorem Reads.ends (mode : LexMode) (read : script.Reads .standard offset last)
    (ends : last.kind = .endOfInput)
    : script.Reads mode offset last := by
  cases mode with
  | standard => exact read
  | regex => exact read.toRegex (by rw [ends]; rfl)

/-- The lexeme at the offset, and where the text goes on behind it. -/
theorem Reads.lexeme {mode : LexMode} {text : List Char} (read : script.Reads mode offset token)
    (cut : Text.drop? offset script.source = some text)
    : (Lexeme.read mode text).placedAt offset = token
      ∧ Text.drop? token.span.stop script.source = some (Bytes.afterLexeme mode text) := by
  rw [Script.Reads, Token.read?, cut, Option.map_some, Option.some_inj] at read
  refine ⟨read, ?_⟩
  obtain ⟨front, same, size⟩ := Text.drop?_eq_some.mp cut
  obtain ⟨lexeme, text_eq, width⟩ := Text.drop?_eq_some.mp (Bytes.drop?_lexeme mode text)
  refine Text.drop?_eq_some.mpr ⟨front ++ lexeme, by rw [same, List.append_assoc, ← text_eq], ?_⟩
  rw [← read, Text.size_append, size, width]
  simp [Lexeme.placedAt, Nat.add_assoc]

/-- Tokens that were consumed one after the other are streamed, and the end of the input behind them. -/
theorem streamFrom_of_consumes {bound : Nat} {text : List Char}
    (consumes : script.Consumes offset tokens) (valid : ∀ token ∈ tokens, token.kind ≠ .invalid)
    (divide : script.SlashesDivide previous tokens)
    (read : script.Reads .standard (Token.endOf offset tokens) last) (ends : last.kind = .endOfInput)
    (cut : Text.drop? offset script.source = some text) (enough : text.length < bound)
    : streamFrom bound (.behind previous) offset text = .ok (tokens ++ [last]) := by
  induction tokens generalizing bound offset previous text with
  | nil =>
      obtain ⟨bound, rfl⟩ := Nat.exists_eq_succ_of_ne_zero (show bound ≠ 0 by omega)
      have token_eq : (Lexeme.read (.behind previous) text).placedAt offset = last :=
        ((read.ends (.behind previous) ends).lexeme cut).1
      simp only [streamFrom, token_eq, ends, List.nil_append]
  | cons token tokens ih =>
      obtain ⟨bound, rfl⟩ := Nat.exists_eq_succ_of_ne_zero (show bound ≠ 0 by omega)
      obtain ⟨readFirst, present, consumes⟩ := consumes
      rcases divide with _ | ⟨divides, divide⟩
      obtain ⟨notInvalid, valid⟩ := List.forall_mem_cons.mp valid
      obtain ⟨token_eq, further⟩ := (readFirst.behind present divides).lexeme cut
      have shorter : (Bytes.afterLexeme (.behind previous) text).length < text.length :=
        Bytes.length_afterLexeme (by rw [← token_eq] at present; exact present)
      have rest
          : streamFrom bound (.behind (some token.kind)) token.span.stop
              (Bytes.afterLexeme (.behind previous) text)
            = .ok (tokens ++ [last]) :=
        ih consumes valid divide read further (by omega)
      rw [Bytes.streamFrom_of_inner token_eq notInvalid present]
      rw [show LexMode.after token.kind = .behind (some token.kind) from rfl, rest]
      rfl

end Script

namespace Program

/-- The tokens that parsing the text consumes, the end of the input among them, if it is accepted. -/
def consumed (source : List Char) (dialect : Dialect) : List Token :=
  match withRules Grammar.program (ParserState.ofSource source dialect) with
  | .ok _ after => after.consumed
  | .error _ _ => []

variable {source : List Char} {dialect : Dialect} {program : Program}

/-- The tokens of a text that is parsed are those that the parser consumes, one end of the input behind
all others, if the token before each slash tells what the parser took the slash for.
-/
theorem tokenize_eq_of_parse (parsed : parse source dialect = .ok program)
    (divide : Script.SlashesDivide { source, dialect } none (consumed source dialect))
    : tokenize source = .ok (consumed source dialect)
      ∧ ∃ front last,
          consumed source dialect = front ++ [last]
          ∧ last.kind = .endOfInput
          ∧ ∀ token ∈ front, token.kind ≠ .endOfInput := by
  obtain ⟨after, ran⟩ := parse_eq_ok.mp parsed
  obtain ⟨front, last, consumed_eq, holds, _⟩ :=
    program_sound (ParserState.shows_ofSource source dialect) ran
  have same : consumed source dialect = front ++ [last] := by
    unfold consumed
    rw [ran]
    exact consumed_eq
  have consumes := holds.statements.consumes
  rw [same] at divide ⊢
  refine ⟨?_, front, last, rfl, holds.ends, consumes.present⟩
  have streamed : streamFrom (source.length + 1) (.behind none) 0 source = .ok (front ++ [last]) :=
    Script.streamFrom_of_consumes consumes holds.statements.valid divide.front holds.read holds.ends
      (Text.drop?.eq_1 source) (Nat.lt_succ_self source.length)
  unfold tokenize
  rw [show LexMode.regex = .behind none from rfl, streamed]

/-- A division behind a number, and a regular expression behind an operator. -/
theorem tokenize_eq_of_parse_regex
    : ∃ program,
        parse "1/2+/a/".toList .ecma = .ok program
        ∧ Script.SlashesDivide { source := "1/2+/a/".toList, dialect := .ecma } none
            (consumed "1/2+/a/".toList .ecma)
        ∧ tokenize "1/2+/a/".toList = .ok (consumed "1/2+/a/".toList .ecma) := by
  have consumed_eq
      : consumed "1/2+/a/".toList .ecma
        = [
            { kind := .literalNumber, span := { start := 0, stop := 1 }, afterNewline := false },
            { kind := .slash, span := { start := 1, stop := 2 }, afterNewline := false },
            { kind := .literalNumber, span := { start := 2, stop := 3 }, afterNewline := false },
            { kind := .plus, span := { start := 3, stop := 4 }, afterNewline := false },
            { kind := .literalRegex, span := { start := 4, stop := 7 }, afterNewline := false },
            { kind := .endOfInput, span := { start := 7, stop := 7 }, afterNewline := false }
          ] := by
    decide +kernel
  have divide
      : Script.SlashesDivide { source := "1/2+/a/".toList, dialect := .ecma } none
          (consumed "1/2+/a/".toList .ecma) := by
    rw [consumed_eq]
    refine .cons ?_ (.cons ?_ (.cons ?_ (.cons ?_ (.cons ?_ (.cons ?_ .nil))))) <;> decide
  have accepted : (parse "1/2+/a/".toList .ecma).isOk := by decide +kernel
  cases parsed : parse "1/2+/a/".toList .ecma with
  | error failure =>
      rw [parsed] at accepted
      cases accepted
  | ok program => exact ⟨program, rfl, divide, (tokenize_eq_of_parse parsed divide).1⟩

end Program

end EcmaSyntax
