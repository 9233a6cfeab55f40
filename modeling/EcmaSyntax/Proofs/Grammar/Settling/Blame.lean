import EcmaSyntax.Proofs.Grammar.Locations
import EcmaSyntax.Proofs.Token.NumberLiterals
import EcmaSyntax.Proofs.Token.Quoted

/-! What an error can be about: a token that the lexer comes to, an escape in a string literal, or some tokens
in a row. The cause of the error and the kind of token that it names tell which, and its span lies within
the text.
-/

namespace EcmaSyntax

-----------------------------------------------------------------------------------------
-- Places between characters
-----------------------------------------------------------------------------------------

/-- The span goes from one place between characters of the text to a later or the same one. -/
structure Span.Within (source : List Char) (span : Span) : Prop where
  ordered : span.start ≤ span.stop
  bounded : span.stop ≤ Text.size source
  start_boundary : Text.IsBoundary source span.start
  stop_boundary : Text.IsBoundary source span.stop

namespace Script

variable {script : Script} {mode : LexMode} {offset : Nat} {token : Token}

/-- The lexer comes to the token: it reads it in the mode at the offset, where tokens end that it has
read in turn from the beginning of the text.
-/
structure Meets (script : Script) (mode : LexMode) (offset : Nat) (token : Token) : Prop where
  read : script.Reads mode offset token
  reached
    : ∃ before,
        ReadInTurn script.source 0 before
        ∧ Token.endOf 0 (before.map BufferedToken.token) = offset

/-- The error is about something in the text. -/
inductive Blames (script : Script) : SyntaxError → Prop
  | token {mode : LexMode} {offset : Nat} {token : Token} {cause : Cause}
    (met : script.Meets mode offset token) (grammatical : cause.kind = .grammatical)
    (ends : cause = .unexpectedEnd ↔ token.kind = .endOfInput)
    : Blames script (token.error cause)
  | escape {front back : List Char} (source_eq : script.source = front ++ '\\' :: back)
    : Blames script
        {
          cause := .invalidCharacterEscape
          span :=
            {
              start := Text.size front
              stop := Text.size front + 1
            }
          actual := some .literalString
        }
  | phrase {offset : Nat} {tokens : List Token} {span : Span} {cause : Cause}
    (spans : script.Spans offset tokens span) (grammatical : cause.kind = .grammatical)
    (present : cause ≠ .unexpectedEnd)
    : Blames script
        {
          cause
          span
          actual := none
        }

-----------------------------------------------------------------------------------------
-- Errors lie within the text
-----------------------------------------------------------------------------------------

/-- A token lies within the text. -/
theorem Reads.within (read : script.Reads mode offset token) : token.span.Within script.source := by
  obtain ⟨front, gap, text, rest, rfl, lies, _⟩ := Token.read?_eq_some read
  refine ⟨?_, ?_, ⟨_, lies.drop?_start⟩, ⟨_, lies.drop?_stop⟩⟩
  · rw [lies.start_eq, lies.stop_eq]
    omega
  · rw [lies.stop_eq, lies.source_eq]
    simp only [Text.size_append]
    omega

/-- Tokens in a row lie within the text. -/
theorem Spans.within {tokens : List Token} {span : Span} (spans : script.Spans offset tokens span)
    : span.Within script.source := by
  obtain ⟨consumes, present, rfl⟩ := spans
  have bounds := consumes.spanOf present
  refine ⟨Nat.le_of_lt bounds.2.1, ?_, ?_, ?_⟩
  · exact bounds.2.2 ▸ consumes.endOf_le present
  · obtain ⟨first, rest, rfl⟩ := List.exists_cons_of_ne_nil present
    exact (Reads.within consumes.1).start_boundary
  · exact bounds.2.2 ▸ consumes.isBoundary_endOf present

variable {error : SyntaxError}

/-- What an error is about lies within the text. -/
theorem Blames.within (blames : script.Blames error) : error.span.Within script.source := by
  cases blames with
  | token met => exact met.read.within
  | phrase spans => exact spans.within
  | @escape front back source_eq =>
      have width : Text.size ['\\'] = 1 := rfl
      have source_eq' : script.source = (front ++ ['\\']) ++ back := by simp [source_eq]
      refine ⟨Nat.le_succ _, ?_, ⟨'\\' :: back, ?_⟩, ⟨back, ?_⟩⟩
      · simp only [source_eq', Text.size_append, width]
        omega
      · exact source_eq ▸ Text.drop?_size_append _ _
      · exact Text.drop?_eq_some.mpr ⟨_, source_eq', by simp [width]⟩

-----------------------------------------------------------------------------------------
-- Errors are told apart by the token that they name
-----------------------------------------------------------------------------------------

/-- A token that is invalid has a lexical cause. -/
theorem Reads.exists_lexical (read : script.Reads mode offset token)
    (invalid : token.kind = .invalid)
    : ∃ cause, token.lexical = some cause ∧ cause.kind = .lexical := by
  obtain ⟨front, gap, text, rest, _, _, origin⟩ := Token.read?_eq_some read
  have caused := origin.kind.2.mpr invalid
  cases origin with
  | unterminated _ lexical_eq => exact ⟨_, lexical_eq, rfl⟩
  | scanned _ _ _ lexical_eq =>
      cases verdict : (Scan.token mode (text ++ rest)).verdict with
      | error cause => exact ⟨cause, by rw [lexical_eq, verdict], Scan.lexical_of_failed verdict⟩
      | ok kind => simp [lexical_eq, verdict] at caused

/-- The end of the text is the cause exactly if it is what was found. -/
theorem Blames.unexpectedEnd_iff (blames : script.Blames error)
    : error.cause = .unexpectedEnd ↔ error.actual = some .endOfInput := by
  cases blames with
  | @token _ _ token cause met grammatical ends =>
      by_cases invalid : token.kind = .invalid
      · obtain ⟨lexical, lexical_eq, kind_eq⟩ := met.read.exists_lexical invalid
        have other : lexical ≠ .unexpectedEnd := by
          rintro rfl
          cases kind_eq
        simp [Token.error, invalid, lexical_eq, other]
      · simp [Token.error, invalid, ends]
  | escape => simp
  | phrase _ _ present => simp [present]

/-- The cause is lexical exactly if an invalid token was found, or a string literal with an escape that
has no meaning.
-/
theorem Blames.lexical_iff (blames : script.Blames error)
    : error.cause.kind = .lexical
      ↔ error.actual = some .invalid
        ∨ error.cause = .invalidCharacterEscape ∧ error.actual = some .literalString := by
  cases blames with
  | @token _ _ token cause met grammatical =>
      by_cases invalid : token.kind = .invalid
      · obtain ⟨lexical, lexical_eq, kind_eq⟩ := met.read.exists_lexical invalid
        simp [Token.error, invalid, lexical_eq, kind_eq]
      · have other : cause ≠ .invalidCharacterEscape := by
          rintro rfl
          cases grammatical
        simp [Token.error, invalid, grammatical, other]
  | escape => simp [Cause.kind]
  | phrase _ grammatical => simp [grammatical]

/-- An error at an invalid token has its cause and its span. -/
theorem Blames.exists_invalid (blames : script.Blames error)
    (invalid : error.actual = some .invalid)
    : ∃ mode offset token,
        script.Meets mode offset token
        ∧ token.kind = .invalid
        ∧ token.lexical = some error.cause
        ∧ token.span = error.span := by
  cases blames with
  | @token mode offset token cause met =>
      have invalid : token.kind = .invalid := Option.some.inj invalid
      obtain ⟨lexical, lexical_eq, _⟩ := met.read.exists_lexical invalid
      exact ⟨mode, offset, token, met, invalid, by simp [Token.error, invalid, lexical_eq], rfl⟩
  | escape => cases invalid
  | phrase => cases invalid

-----------------------------------------------------------------------------------------
-- Literals
-----------------------------------------------------------------------------------------

/-- Every string literal has a text between its quotes. An escape in it without a meaning is blamed. -/
theorem Reads.exists_body (read : script.Reads mode offset token)
    (isString : token.kind = .literalString)
    : ∃ body,
        Text.unquote? (script.textOf token.span) = some body
        ∧ ∀ place,
            Text.decodeString body = .error place →
            script.Blames
              {
                cause := .invalidCharacterEscape
                span :=
                  {
                    start := token.span.start + 1 + place
                    stop := token.span.start + 1 + place + 1
                  }
                actual := some .literalString
              } := by
  obtain ⟨front, gap, text, rest, lies, scanned⟩ := Token.exists_found read isString (by decide)
  obtain ⟨quote, body, quotes, same⟩ := Scan.token_quoted scanned
  have same : text ++ rest = (quote :: (body ++ [quote])) ++ rest := by simpa using same
  obtain rfl := List.append_cancel_right same
  have width : quote.utf8Size = 1 := by rcases quotes with rfl | rfl <;> rfl
  refine ⟨body, by rw [textOf_of_lies lies, Text.unquote?_quoted quotes], fun place failed => ?_⟩
  have failed : Text.stringUnits 0 0 body = .error place := by
    unfold Text.decodeString at failed
    cases units : Text.stringUnits 0 0 body <;> simp_all [Except.map]
  obtain ⟨before, after, rfl, rfl⟩ := Text.stringUnits_error failed
  have source_eq
      : script.source = (front ++ gap ++ quote :: before) ++ '\\' :: (after ++ quote :: rest) := by
    simp [lies.source_eq]
  have start_eq : token.span.start + 1 + (0 + Text.size before)
      = Text.size (front ++ gap ++ quote :: before) := by
    simp only [Text.size_append, Text.size_cons, width, lies.start_eq]
    omega
  rw [start_eq]
  exact .escape source_eq

end Script

end EcmaSyntax
