import EcmaSyntax.Dialect
import EcmaSyntax.Text.Escape
import EcmaSyntax.Token.Lexeme

/-!
The buffer between lexer and grammar. Tokens are kept as they are read, so that the grammar can go
back to a checkpoint and read them again; a buffered token is read anew only if it begins with a slash
and is now looked at in the other mode, and then the tokens after it are forgotten.
-/

namespace EcmaSyntax

/-- A token and the mode in which it was read. -/
structure BufferedToken where
  token : Token
  mode : LexMode
  deriving DecidableEq, Repr

/-- A source text that is being parsed. `offset` is where the lexer goes on, `next` the index of the
first buffered token that is not consumed. `bound` bounds the items that each repetition has; a text has
fewer tokens than one more than its characters. -/
structure ParserState where
  source : List Char
  dialect : Dialect
  bound : Nat := source.length + 1
  offset : Nat := 0
  tokens : Array BufferedToken := #[]
  next : Nat := 0
  deriving DecidableEq, Repr

/-- What cannot happen to a source text: nesting or repetition beyond the bounds computed from its
length, a look beyond the end of the buffer, or an offset that lies inside a character. -/
inductive Fault where
  | exhausted
  | noToken
  | noText
  deriving DecidableEq, Repr

/-- Why there is no result. -/
inductive Failure where
  | rejected (error : SyntaxError)
  | fault (fault : Fault)
  deriving DecidableEq, Repr

/-- A part of the grammar at work on a source text. What it has consumed stays consumed if it
fails. -/
abbrev Parser := EStateM Failure ParserState

namespace ParserState

/-- The state before the first token. -/
def ofSource (source : List Char) (dialect : Dialect) : ParserState :=
  {
    source
    dialect
  }

/-- The span of the whole source text. -/
def sourceSpan (state : ParserState) : Span :=
  {
    start := 0
    stop := Text.size state.source
  }

/-- Forgets all tokens from an index on and lets the lexer go on after those that are left. -/
def resetTo (state : ParserState) (index : Nat) : ParserState :=
  let kept := state.tokens.extract 0 index
  { state with
    next := index
    tokens := kept
    offset :=
      match kept.back? with
      | some last => last.token.span.stop
      | none => 0
  }

/-- The next token was read in the other mode and would be another one in this mode, because the source
text goes on with a slash where it begins. -/
def needsRereading (state : ParserState) (mode : LexMode) : Except Fault Bool :=
  match state.tokens[state.next]? with
  | none => .ok false
  | some buffered =>
      if buffered.mode = mode then
        .ok false
      else
        match Text.drop? buffered.token.span.start state.source with
        | some text => .ok (text.head? = some '/')
        | none => .error .noText

/-- Reads one more token into the buffer if all buffered tokens are consumed. -/
def fill (state : ParserState) (mode : LexMode) : Except Fault ParserState :=
  if state.tokens.size = state.next then
    match Token.read? state.source mode state.offset with
    | some token =>
        .ok
          { state with
            tokens :=
              state.tokens.push
                {
                  token
                  mode
                }
            offset := token.span.stop
          }
    | none => .error .noText
  else
    .ok state

/-- The next token in the mode, and the state with that token in the buffer. -/
def fetch (state : ParserState) (mode : LexMode) : Except Fault (Token × ParserState) :=
  match state.needsRereading mode with
  | .error fault => .error fault
  | .ok reread =>
      match (if reread then state.resetTo state.next else state).fill mode with
      | .error fault => .error fault
      | .ok state =>
          match state.tokens[state.next]? with
          | some buffered => .ok (buffered.token, state)
          | none => .error .noToken

/-- The span of the tokens consumed since the checkpoint. If there are none, it is the empty span where
the next token begins or, if that is not buffered, where the lexer goes on. -/
def since (state : ParserState) (checkpoint : Nat) : Except Fault Span :=
  let start :=
    match state.tokens[checkpoint]? with
    | some first => first.token.span.start
    | none => state.offset
  if checkpoint < state.next then
    match state.tokens[state.next - 1]? with
    | some last =>
        .ok
          {
            start
            stop := last.token.span.stop
          }
    | none => .error .noToken
  else
    .ok (Span.point start)

end ParserState

namespace Parser

def reject {α : Type} (error : SyntaxError) : Parser α :=
  throw (.rejected error)

def fault {α : Type} (fault : Fault) : Parser α :=
  throw (.fault fault)

-----------------------------------------------------------------------------------------
-- Tokens and checkpoints
-----------------------------------------------------------------------------------------

/-- The next token, which stays in place. -/
def peek (mode : LexMode := .standard) : Parser Token := do
  match (← get).fetch mode with
  | .ok (token, state) =>
      set state
      return token
  | .error cause => fault cause

/-- Consumes the next token. -/
def consume (mode : LexMode := .standard) : Parser Token := do
  let token ← peek mode
  modify fun state => { state with next := state.next + 1 }
  return token

/-- The index that later tokens are counted from. -/
def checkpoint : Parser Nat := do
  return (← get).next

/-- Goes back to a checkpoint. -/
def restore (checkpoint : Nat) : Parser Unit :=
  modify fun state => { state with next := checkpoint }

/-- The span of the tokens consumed since the checkpoint. -/
def since (checkpoint : Nat) : Parser Span := do
  match (← get).since checkpoint with
  | .ok span => return span
  | .error cause => fault cause

/-- Consumes so many tokens. -/
def consumeMany : Nat → Parser (List Token)
  | 0 => return []
  | count + 1 => do
      let first ← consume
      let rest ← consumeMany count
      return first :: rest

/-- So many of the next tokens, which stay in place. -/
def peekMany (count : Nat) : Parser (List Token) := do
  let start ← checkpoint
  let tokens ← consumeMany count
  restore start
  return tokens

/-- Consumes the next token if it is of the kind. Gives the token, and whether it was consumed. -/
def consumeIf (kind : Kind) (mode : LexMode := .standard) : Parser (Bool × Token) := do
  let token ← peek mode
  if token.kind = kind then
    modify fun state => { state with next := state.next + 1 }
    return (true, token)
  else
    return (false, token)

/-- Consumes the next token if it is of the kind, and says so. -/
def accept (kind : Kind) : Parser Bool := do
  return (← consumeIf kind).1

/-- The error for a token in the place of one that was asked for but not required. It names the kind
that was asked for. -/
def missing (token : Token) (kind : Kind) : SyntaxError :=
  {
    cause := .requiredTokenNotFound kind
    span := token.span
    actual := some kind
  }

/-- Consumes the next token, which has to be of the kind. -/
def require (kind : Kind) (mode : LexMode := .standard) : Parser Token := do
  let token ← consume mode
  if token.kind = kind then return token
  else if token.kind = .endOfInput then reject (token.error .unexpectedEnd)
  else reject (token.error (.requiredTokenNotFound kind))

/-- Consumes the next token, whose kind has to satisfy the condition. -/
def requireSome (condition : Kind → Bool) (expected : String) : Parser Token := do
  let token ← consume
  if condition token.kind then return token
  else reject (token.unexpected expected)

/-- Runs a part of the grammar and gives its result the span of the tokens that it consumed. -/
def spanned {α : Type} (parser : Parser (Span → α)) : Parser α := do
  let start ← checkpoint
  let build ← parser
  return build (← since start)

-----------------------------------------------------------------------------------------
-- Texts and names
-----------------------------------------------------------------------------------------

/-- The source text at a span. -/
def textAt (span : Span) : Parser (List Char) := do
  match Text.slice? span.start span.stop (← get).source with
  | some text => return text
  | none => fault .noText

/-- The name that the identifier or word at a span spells. -/
def nameAt (span : Span) : Parser String := do
  return Text.decodeName (← textAt span)

/-- Consumes an identifier and gives its name. -/
def requireIdentifier : Parser String := do
  let token ← consume
  if token.kind = .identifier then nameAt token.span
  else if token.kind.isWord then reject (token.error .reservedWord)
  else reject (token.unexpected "identifier")

/-- A kind of word without a use in the dialect. -/
def isReservedIn (dialect : Dialect) (kind : Kind) : Bool :=
  kind.isFutureReserved || kind = .keywordConst && dialect = .ecma

/-- Rejects words without a use in the dialect. -/
def checkReserved (token : Token) : Parser Unit := do
  if isReservedIn (← get).dialect token.kind then
    reject (token.error .reservedWord)

/-- The end of a statement: a semicolon, or without one a closing brace, the end of the input or a
token on a new line. -/
def requireStatementEnd : Parser Unit := do
  let token ← peek
  if token.kind = .semicolon then
    discard consume
  else if token.kind = .braceClose || token.kind = .endOfInput || token.afterNewline then
    return
  else
    reject (token.error .expectedStatementEnd)

-----------------------------------------------------------------------------------------
-- Repetition
-----------------------------------------------------------------------------------------

/-- A bound on repetitions that each consume a token before the end of the input. -/
def repetitions : Parser Nat := do
  return (← get).bound

/-- Items as long as the condition holds, at most so many. -/
def repeatAtMost {α : Type} (condition : Parser Bool) (item : Parser α) : Nat → Parser (List α)
  | 0 => fault .exhausted
  | bound + 1 => do
      if ← condition then
        let first ← item
        let rest ← repeatAtMost condition item bound
        return first :: rest
      else
        return []

/-- Items as long as the condition holds. -/
def repeatWhile {α : Type} (condition : Parser Bool) (item : Parser α) : Parser (List α) := do
  repeatAtMost condition item (← repetitions)

/-- Items up to a token of the kind, which is not consumed, or the end of the input. -/
def repeatUntil {α : Type} (stop : Kind) (item : Parser α) : Parser (List α) :=
  repeatWhile
    (do
      let kind := (← peek).kind
      return kind != stop && kind != .endOfInput)
    item

/-- The items of a list after its first item, at most so many, and the token that closes it. -/
def listTail {α : Type} (close : Kind) (item : Parser α) : Nat → Parser (List α)
  | 0 => fault .exhausted
  | bound + 1 => do
      if ← accept .comma then
        let first ← item
        let rest ← listTail close item bound
        return first :: rest
      else
        discard (require close)
        return []

/-- Items with commas between them, and the token that closes the list. -/
def list {α : Type} (close : Kind) (item : Parser α) : Parser (List α) := do
  if ← accept close then
    return []
  else
    let first ← item
    let rest ← listTail close item (← repetitions)
    return first :: rest

/-- Items each with a comma, at most so many, and the token that closes the list; the last comma may
be missing. -/
def looseListTail {α : Type} (close : Kind) (item : Parser α) : Nat → Parser (List α)
  | 0 => fault .exhausted
  | bound + 1 => do
      if ← accept close then
        return []
      else
        let first ← item
        if ← accept .comma then
          let rest ← looseListTail close item bound
          return first :: rest
        else
          discard (require close)
          return [first]

/-- Items with commas between them and, if so written, after the last one, and the token that closes
the list. -/
def looseList {α : Type} (close : Kind) (item : Parser α) : Parser (List α) := do
  looseListTail close item (← repetitions)

end Parser

end EcmaSyntax
