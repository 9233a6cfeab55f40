import EcmaSyntax.Proofs.Bytes.Lexer
import EcmaSyntax.Proofs.Bytes.Lines
import EcmaSyntax.Proofs.Grammar.Settling.Blame
import EcmaSyntax.Token.Stream

/-! All tokens of a source, by byte offsets. Every token before the end of the input takes up a character,
so reading them one after the other comes to that end or to a token that is invalid, and an error is
about that token.
-/

namespace EcmaSyntax.Bytes

open Text (size)

/-- One more token behind those read so far. -/
def Lexing.streamStep (state : LexMode × List Token)
    : Lexing ((LexMode × List Token) ⊕ Except SyntaxError (List Token)) := do
  let token ← lexNext state.1
  match token.kind with
  | .invalid => return .inr (.error (token.error .unexpectedCharacter))
  | .endOfInput => return .inr (.ok (state.2 ++ [token]))
  | kind => return .inl (.after kind, state.2 ++ [token])

/-- The tokens of a source up to the end of the input. None if the lexer or the table of lines is left. -/
def tokenize (source : List Char) : Option (Except SyntaxError (List Token)) := do
  match ← Lexing.repeating Lexing.streamStep (.regex, []) source 0 with
  | (.ok (.ok tokens), _) => return .ok tokens
  | (.ok (.error error), _) => do
      let place ← position source error.span.start
      return .error { error with position := some place }
  | (.error _, _) => none

variable {source text : List Char} {mode : LexMode}

-----------------------------------------------------------------------------------------
-- What a lexeme leaves
-----------------------------------------------------------------------------------------

theorem afterLexeme_suffix (mode : LexMode) (text : List Char) : afterLexeme mode text <:+ text :=
  (Gives.lexNext text mode text (List.suffix_refl text)).1

/-- A lexeme can be cut off the text, trivia and all. -/
theorem drop?_lexeme (mode : LexMode) (text : List Char)
    : Text.drop? ((Lexeme.read mode text).before + (Lexeme.read mode text).width) text
      = some (afterLexeme mode text) := by
  have stop := stop_placedAt mode (List.suffix_refl text)
  have start : offsetOf text text = 0 := Nat.sub_self _
  rw [start] at stop
  simp only [Lexeme.placedAt, Nat.zero_add] at stop
  rw [stop, drop?_offsetOf (afterLexeme_suffix mode text)]

/-- Before the end of the input a lexeme takes up a character. -/
theorem length_afterLexeme (present : (Lexeme.read mode text).kind ≠ .endOfInput)
    : (afterLexeme mode text).length < text.length := by
  have read : Token.read? text mode 0 = some ((Lexeme.read mode text).placedAt 0) := by
    simp [Token.read?, Text.drop?]
  obtain ⟨after, cut, shorter⟩ := Token.length_rest_lt read present (Text.drop?.eq_1 text)
  have same := drop?_lexeme mode text
  simp only [Lexeme.placedAt, Nat.zero_add] at cut
  rw [cut] at same
  exact Option.some.inj same ▸ shorter

-----------------------------------------------------------------------------------------
-- The stream of tokens
-----------------------------------------------------------------------------------------

/-- A token that is neither invalid nor the end of the input has further ones behind it. -/
theorem streamFrom_of_inner {bound offset : Nat} {token : Token}
    (token_eq : (Lexeme.read mode text).placedAt offset = token)
    (valid : token.kind ≠ .invalid) (present : token.kind ≠ .endOfInput)
    : streamFrom (bound + 1) mode offset text
      = (streamFrom bound (.after token.kind) token.span.stop (afterLexeme mode text)).map
          (token :: ·) := by
  rw [streamFrom]
  simp only [token_eq, drop?_lexeme]

/-- A valid token before the end is added to those read so far, and decides the next mode. -/
theorem Gives.streamStep_of_inner {token : Token} {tokens : List Token}
    (token_eq : (Lexeme.read mode text).placedAt (offsetOf source text) = token)
    (valid : token.kind ≠ .invalid) (present : token.kind ≠ .endOfInput)
    : Gives source (Lexing.streamStep (mode, tokens)) text
        (.ok (.inl (.after token.kind, tokens ++ [token]))) (afterLexeme mode text) := by
  refine (Gives.lexNext source mode text).bind ?_
  rw [token_eq]
  split
  next invalid => exact absurd invalid valid
  next ends => exact absurd ends present
  next => exact .pure _ _

/-- What is left of the source is read as it is from the characters, and an error is about a token. -/
theorem streamStep_loops {bound : Nat} (mode : LexMode) (tokens : List Token)
    (within : text <:+ source) (enough : text.length < bound)
    : ∃ (outcome : Except SyntaxError (List Token)) (rest : List Char),
        streamFrom bound mode (offsetOf source text) text = outcome.mapError .rejected
        ∧ Loops source Lexing.streamStep (mode, tokens) text (.ok (outcome.map (tokens ++ ·))) rest
        ∧ ∀ error, outcome = .error error → error.span.Within source := by
  induction bound generalizing mode tokens text with
  | zero => omega
  | succ bound ih =>
      have gives := Gives.lexNext source mode text
      have stop := stop_placedAt mode within
      have read : Token.read? source mode (offsetOf source text)
          = some ((Lexeme.read mode text).placedAt (offsetOf source text)) := by
        rw [Token.read?, drop?_offsetOf within, Option.map_some]
      generalize token_eq
        : (Lexeme.read mode text).placedAt (offsetOf source text) = token at gives stop read
      by_cases invalid : token.kind = .invalid
      · have reads : Script.Reads { source, dialect := .ecma } mode (offsetOf source text) token := read
        have located := reads.within
        refine ⟨.error (token.error .unexpectedCharacter), afterLexeme mode text, ?_, .stop ?_, ?_⟩
        · simp only [streamFrom, token_eq, invalid]
          rfl
        · refine gives.bind ?_
          simp only [invalid]
          exact .pure _ _
        · rintro error ⟨⟩
          exact located
      by_cases ends : token.kind = .endOfInput
      · refine ⟨.ok [token], afterLexeme mode text, ?_, .stop ?_, ?_⟩
        · simp only [streamFrom, token_eq, ends]
          rfl
        · refine gives.bind ?_
          simp only [ends]
          exact .pure _ _
        · rintro error ⟨⟩
      -- The token takes up a character, so fewer are left for the tokens behind it.
      have shorter : (afterLexeme mode text).length < text.length :=
        length_afterLexeme (by rw [← token_eq] at ends; exact ends)
      obtain ⟨outcome, rest, streamed, loops, located⟩ :=
        ih (.after token.kind) (tokens ++ [token]) ((afterLexeme_suffix mode text).trans within)
          (by omega)
      refine ⟨outcome.map (token :: ·), rest, ?_, ?_, ?_⟩
      · rw [streamFrom_of_inner token_eq invalid ends, stop, streamed]
        cases outcome <;> rfl
      · have further := loops.more (Gives.streamStep_of_inner token_eq invalid ends) shorter
        cases outcome with
        | error error => exact further
        | ok others => simpa [Except.map] using further
      · intro error failed
        cases outcome with
        | error other =>
            cases failed
            exact located _ rfl
        | ok others => cases failed

/-- The tokens of a source are those that are read from its characters, or there is an error about one. -/
theorem tokenize_eq (source : List Char)
    : ∃ outcome : Except SyntaxError (List Token),
        tokenize source = some outcome
        ∧ EcmaSyntax.tokenize source = outcome.mapError .rejected
        ∧ ∀ error, outcome = .error error → error.span.Within source := by
  have whole := List.suffix_refl source
  obtain ⟨outcome, rest, streamed, loops, located⟩ :=
    streamStep_loops .regex [] whole (Nat.lt_succ_self source.length)
  have start : offsetOf source source = 0 := Nat.sub_self _
  have run := (loops.gives whole).2
  rw [start] at run streamed
  cases outcome with
  | ok tokens =>
      refine ⟨.ok tokens, ?_, ?_, ?_⟩
      · rw [tokenize, run]
        rfl
      · rw [EcmaSyntax.tokenize, streamed]
        rfl
      · rintro error ⟨⟩
  | error error =>
      refine ⟨.error (error.locate source), ?_, ?_, ?_⟩
      · rw [tokenize, run]
        simp [Except.map, position_eq, SyntaxError.locate]
      · rw [EcmaSyntax.tokenize, streamed]
        rfl
      · rintro _ ⟨⟩
        exact located error rfl

end EcmaSyntax.Bytes
