import EcmaSyntax.Proofs.Token.Cursor

/-! Token operations answer as if nothing were buffered. Whatever sequence of operations a parser
performs, each answers with the tokens that the lexer reads afresh where the last token consumed so far
ends, in the mode that the operation asks for.
-/

namespace EcmaSyntax

/-- An operation on the tokens of a parser. -/
inductive TokenRequest where
  | peek (mode : LexMode)
  | consume (mode : LexMode)
  | peekMany (count : Nat)
  | consumeIf (kind : Kind) (mode : LexMode)
  | require (kind : Kind) (mode : LexMode)
  | restore (checkpoint : Nat)
  deriving DecidableEq, Repr

/-- What an operation answers: a token, several tokens, a token and whether it was consumed, the
rejection of a token, or nothing.
-/
inductive TokenAnswer where
  | token (token : Token)
  | tokens (tokens : List Token)
  | compared (consumed : Bool) (token : Token)
  | rejected (error : SyntaxError)
  | done
  deriving DecidableEq, Repr

/-- Runs a parser whose rejections are answers, after which the parsing goes on. -/
def TokenAnswer.ofParser (parser : Parser Token) : Parser TokenAnswer := fun state =>
  match parser state with
  | .ok found after => .ok (.token found) after
  | .error (.rejected error) after => .ok (.rejected error) after
  | .error (.fault fault) after => .error (.fault fault) after

namespace TokenRequest

/-- Performs an operation on the buffer. -/
def perform : TokenRequest → Parser TokenAnswer
  | peek mode => .token <$> Parser.peek mode
  | consume mode => .token <$> Parser.consume mode
  | peekMany count => .tokens <$> Parser.peekMany count
  | consumeIf kind mode =>
      (fun answer => .compared answer.1 answer.2) <$> Parser.consumeIf kind mode
  | require kind mode => TokenAnswer.ofParser (Parser.require kind mode)
  | restore checkpoint => (fun _ => .done) <$> Parser.restore checkpoint

/-- Performs operations one after the other. -/
def performAll : List TokenRequest → Parser (List TokenAnswer)
  | [] => return []
  | request :: rest => do
      let answer ← request.perform
      let answers ← performAll rest
      return answer :: answers

/-- Every checkpoint among the operations lies behind what is consumed when it is gone back to. -/
def goesBack : List TokenRequest → ParserState → Bool
  | [], _ => true
  | request :: rest, state =>
      (match request with
        | restore checkpoint => checkpoint ≤ state.next
        | _ => true)
      && match request.perform state with
        | .ok _ after => goesBack rest after
        | .error _ _ => true

end TokenRequest

namespace Token

/-- The token that a lexer reads that starts where the last of the consumed tokens ends. -/
def following (source : List Char) (consumed : List Token) (mode : LexMode) : Option Token :=
  read? source mode (endOf 0 consumed)

/-- The token that follows what is consumed is the one that is read where that ends. -/
theorem following_eq {script : Script} {consumed : List Token} {mode : LexMode} {token : Token}
    (read : script.Reads mode (endOf 0 consumed) token)
    : following script.source consumed mode = some token :=
  read

/-- So many tokens, each read where the one before it ends. -/
def followingMany (source : List Char) : List Token → Nat → Option (List Token)
  | _, 0 => some []
  | consumed, count + 1 => do
      let first ← following source consumed .standard
      let rest ← followingMany source (consumed ++ [first]) count
      return first :: rest

/-- How a token answers to being required. -/
def required (token : Token) (kind : Kind) : TokenAnswer :=
  if token.kind = kind then .token token
  else if token.kind = .endOfInput then .rejected (token.error .unexpectedEnd)
  else .rejected (token.error (.requiredTokenNotFound kind))

end Token

namespace TokenRequest

/-- The answer to an operation without a buffer, and the tokens consumed after it. -/
def answerAfresh (source : List Char) (consumed : List Token)
    : TokenRequest → Option (TokenAnswer × List Token)
  | peek mode => do
      let token ← Token.following source consumed mode
      return (.token token, consumed)
  | consume mode => do
      let token ← Token.following source consumed mode
      return (.token token, consumed ++ [token])
  | peekMany count => do
      let tokens ← Token.followingMany source consumed count
      return (.tokens tokens, consumed)
  | consumeIf kind mode => do
      let token ← Token.following source consumed mode
      return (.compared (token.kind = kind) token,
        if token.kind = kind then consumed ++ [token] else consumed)
  | require kind mode => do
      let token ← Token.following source consumed mode
      return (token.required kind, consumed ++ [token])
  | restore checkpoint => return (.done, consumed.take checkpoint)

/-- The answers to operations one after the other without a buffer. -/
def answerAllAfresh (source : List Char) : List Token → List TokenRequest → Option (List TokenAnswer)
  | _, [] => some []
  | consumed, request :: rest => do
      let (answer, consumed) ← request.answerAfresh source consumed
      let answers ← answerAllAfresh source consumed rest
      return answer :: answers

variable {state : ParserState} {script : Script} {consumed : List Token}

/-- Consuming several tokens gives those that follow each other, by induction on their number. -/
theorem consumeMany_shows (shows : state.Shows script consumed) (count : Nat)
    : ∃ tokens after,
        Parser.consumeMany count state = .ok tokens after
        ∧ Token.followingMany script.source consumed count = some tokens
        ∧ after.Shows script (consumed ++ tokens) := by
  induction count generalizing state consumed with
  | zero => exact ⟨[], state, rfl, rfl, by simpa using shows⟩
  | succ count ih =>
      obtain ⟨first, between, ran, read, next⟩ := Parser.consume_shows shows .standard
      obtain ⟨rest, after, ranRest, readRest, last⟩ := ih next
      refine ⟨first :: rest, after, ?_, ?_, by simpa using last⟩
      · rw [Parser.consumeMany, Parser.bind_of_ok _ ran, Parser.bind_of_ok _ ranRest]
        rfl
      · simp [Token.followingMany, Token.following_eq read, readRest]

/-- Looking at several tokens is consuming them and going back. -/
theorem peekMany_of_consumeMany {count : Nat} {tokens : List Token} {between : ParserState}
    (ran : Parser.consumeMany count state = .ok tokens between)
    : Parser.peekMany count state = .ok tokens { between with next := state.next } := by
  rw [Parser.peekMany, Parser.bind_of_ok _ (rfl : Parser.checkpoint state = .ok state.next state),
    Parser.bind_of_ok _ ran]
  rfl

/-- Looking at several tokens gives those that follow each other, and consumes none. -/
theorem peekMany_shows (shows : state.Shows script consumed) (count : Nat)
    : ∃ tokens after,
        Parser.peekMany count state = .ok tokens after
        ∧ Token.followingMany script.source consumed count = some tokens
        ∧ after.Shows script consumed := by
  obtain ⟨tokens, between, ran, read, next⟩ := consumeMany_shows shows count
  obtain ⟨after, back, last⟩ := Parser.restore_shows next consumed.length (by simp)
  cases back
  refine ⟨tokens, _, peekMany_of_consumeMany ran, read, ?_⟩
  simpa [shows.next_eq] using last

theorem perform_require {kind : Kind} {mode : LexMode} {token : Token} {after : ParserState}
    (ran : Parser.consume mode state = .ok token after)
    : (require kind mode).perform state = .ok (token.required kind) after := by
  rw [perform, TokenAnswer.ofParser, Parser.require, Parser.bind_of_ok _ ran, Token.required]
  by_cases same : token.kind = kind
  · rw [if_pos same, if_pos same]
    rfl
  · rw [if_neg same, if_neg same]
    by_cases ended : token.kind = .endOfInput
    · rw [if_pos ended, if_pos ended]
      rfl
    · rw [if_neg ended, if_neg ended]
      rfl

/-- Requiring a kind consumes the next token even if it is of another kind. -/
theorem require_shows (shows : state.Shows script consumed) (kind : Kind) (mode : LexMode)
    : ∃ token after,
        (require kind mode).perform state = .ok (token.required kind) after
        ∧ script.Reads mode (Token.endOf 0 consumed) token
        ∧ after.Shows script (consumed ++ [token]) := by
  obtain ⟨token, after, ran, read, next⟩ := Parser.consume_shows shows mode
  exact ⟨token, after, perform_require ran, read, next⟩

/-- One operation answers from the buffer as without it, and leaves the buffer showing what is consumed. -/
theorem perform_shows (shows : state.Shows script consumed) (request : TokenRequest)
    (behind : ∀ checkpoint, request = restore checkpoint → checkpoint ≤ consumed.length)
    : ∃ answer after next,
        request.perform state = .ok answer after
        ∧ request.answerAfresh script.source consumed = some (answer, next)
        ∧ after.Shows script next := by
  cases request with
  | peek mode =>
      obtain ⟨token, after, ran, read, next, _⟩ := Parser.peek_shows shows mode
      exact ⟨_, after, _, Parser.map_of_ok _ ran, by simp [answerAfresh, Token.following_eq read], next⟩
  | consume mode =>
      obtain ⟨token, after, ran, read, next⟩ := Parser.consume_shows shows mode
      exact ⟨_, after, _, Parser.map_of_ok _ ran, by simp [answerAfresh, Token.following_eq read], next⟩
  | peekMany count =>
      obtain ⟨tokens, after, ran, read, next⟩ := peekMany_shows shows count
      exact ⟨_, after, _, Parser.map_of_ok _ ran, by simp [answerAfresh, read], next⟩
  | consumeIf kind mode =>
      obtain ⟨token, after, ran, read, next⟩ := Parser.consumeIf_shows shows kind mode
      exact ⟨_, after, _, Parser.map_of_ok _ ran, by simp [answerAfresh, Token.following_eq read], next⟩
  | require kind mode =>
      obtain ⟨token, after, ran, read, next⟩ := require_shows shows kind mode
      exact ⟨_, after, _, ran, by simp [answerAfresh, Token.following_eq read], next⟩
  | restore checkpoint =>
      obtain ⟨after, ran, next⟩ := Parser.restore_shows shows checkpoint (behind checkpoint rfl)
      exact ⟨_, after, _, Parser.map_of_ok _ ran, rfl, next⟩

/-- Operations answer from the buffer as without it, by induction on their sequence. -/
theorem performAll_shows (shows : state.Shows script consumed) (requests : List TokenRequest)
    (behind : goesBack requests state)
    : ∃ answers after,
        performAll requests state = .ok answers after
        ∧ answerAllAfresh script.source consumed requests = some answers := by
  induction requests generalizing state consumed with
  | nil => exact ⟨[], state, rfl, rfl⟩
  | cons request rest ih =>
      simp only [goesBack, Bool.and_eq_true] at behind
      obtain ⟨back, onward⟩ := behind
      obtain ⟨answer, between, next, ran, afresh, shown⟩ := perform_shows shows request (by
        rintro checkpoint rfl
        simpa [shows.next_eq] using back)
      rw [ran] at onward
      obtain ⟨answers, after, ranRest, afreshRest⟩ := ih shown onward
      refine ⟨answer :: answers, after, ?_, ?_⟩
      · rw [performAll, Parser.bind_of_ok _ ran, Parser.bind_of_ok _ ranRest]
        rfl
      · simp [answerAllAfresh, afresh, afreshRest]

/-- Buffering is invisible: from a fresh parser, every sequence of token operations that goes back only
to checkpoints behind it gets an answer from each of them, and the answers are those that a lexer gives
that starts anew, for every token, where the last consumed token ends.
-/
theorem buffer_transparent (source : List Char) (dialect : Dialect) (requests : List TokenRequest)
    (behind : goesBack requests (ParserState.ofSource source dialect))
    : ∃ answers after,
        (performAll requests).run (ParserState.ofSource source dialect) = .ok answers after
        ∧ answerAllAfresh source [] requests = some answers :=
  performAll_shows (ParserState.shows_ofSource source dialect) requests behind

/-- A slash is read as a division, gone back to and read as the beginning of a regular expression. -/
theorem buffer_transparent_slash
    : let source := ['a', ' ', '/', 'b', '/', '\n', 'c']
      let requests : List TokenRequest :=
        [
          .consume .standard, .peekMany 2, .consumeIf .slash .standard, .consume .standard,
          .restore 1, .require .literalRegex .regex, .require .colon .standard, .restore 0,
          .peek .regex
        ]
      goesBack requests (ParserState.ofSource source .js)
      ∧ ∃ answers after,
          (performAll requests).run (ParserState.ofSource source .js) = .ok answers after
          ∧ answerAllAfresh source [] requests = some answers :=
  ⟨by decide +kernel, buffer_transparent _ .js _ (by decide +kernel)⟩

end TokenRequest

end EcmaSyntax
