import EcmaSyntax.Proofs.Token.Cursor
import Mathlib.Tactic.SplitIfs

/-! Parsers that do not see the dialect, up to one point: with `ecma` they may stop at a `const`. Two
runs of such a parser, one in each dialect, go in lockstep up to there.
-/

namespace EcmaSyntax

-----------------------------------------------------------------------------------------
-- States and results in another dialect
-----------------------------------------------------------------------------------------

namespace ParserState

/-- The same state, at work in the dialect. -/
def inDialect (state : ParserState) (dialect : Dialect) : ParserState :=
  { state with dialect }

variable (state : ParserState) (dialect : Dialect)

/-- Spans do not depend on the dialect. -/
theorem since_inDialect (checkpoint : Nat)
    : (state.inDialect dialect).since checkpoint = state.since checkpoint :=
  rfl

/-- Filling the buffer does not depend on the dialect. -/
theorem fill_inDialect (mode : LexMode)
    : (state.inDialect dialect).fill mode
      = (state.fill mode).map fun after => after.inDialect dialect := by
  have size_eq : (state.inDialect dialect).tokens.size = state.tokens.size := rfl
  unfold fill
  rw [size_eq]
  by_cases full : state.tokens.size = state.next
  · rw [if_pos full, if_pos (show _ = (state.inDialect dialect).next from full)]
    have read_eq
        : Token.read? (state.inDialect dialect).source mode (state.inDialect dialect).offset
          = Token.read? state.source mode state.offset :=
      rfl
    rw [read_eq]
    cases Token.read? state.source mode state.offset <;> rfl
  · rw [if_neg full, if_neg (show ¬_ = (state.inDialect dialect).next from full)]
    rfl

/-- Looking at a token is blind to the dialect. -/
theorem fetch_inDialect (mode : LexMode)
    : (state.inDialect dialect).fetch mode
      = (state.fetch mode).map fun found => (found.1, found.2.inDialect dialect) := by
  have same : (state.inDialect dialect).needsRereading mode = state.needsRereading mode := rfl
  have reset : (state.inDialect dialect).resetTo (state.inDialect dialect).next
      = (state.resetTo state.next).inDialect dialect := rfl
  simp only [fetch, same, reset]
  cases state.needsRereading mode with
  | error fault => rfl
  | ok reread =>
      dsimp only
      rw [← apply_ite (fun start : ParserState => start.inDialect dialect), fill_inDialect]
      generalize (if reread then state.resetTo state.next else state) = start
      cases start.fill mode with
      | error fault => rfl
      | ok after =>
          have seen_eq
              : (after.inDialect dialect).tokens[(after.inDialect dialect).next]?
                = after.tokens[after.next]? :=
            rfl
          cases seen : after.tokens[after.next]? <;> simp [Except.map, seen_eq, seen]

end ParserState

/-- The same outcome of a parser, in a state that is at work in the dialect. -/
def resultIn {α : Type} (dialect : Dialect)
    : EStateM.Result Failure ParserState α → EStateM.Result Failure ParserState α
  | .ok value after => .ok value (after.inDialect dialect)
  | .error failure after => .error failure (after.inDialect dialect)

/-- The text is rejected because of the reserved word `const`. -/
def Failure.IsReservedConst : Failure → Prop
  | .rejected error => error.cause = .reservedWord ∧ error.actual = some .keywordConst
  | .fault _ => False

namespace Parser

variable {α β : Type}

/-- The parser rejects a `const` as a reserved word. -/
def StopsAtConst (parser : Parser α) (state : ParserState) : Prop :=
  ∃ failure after, parser state = .error failure after ∧ failure.IsReservedConst

/-- In both dialects the parser does the same, unless it stops at a `const` in the dialect without it. -/
def Lockstep (parser : Parser α) : Prop :=
  ∀ state : ParserState,
    StopsAtConst parser (state.inDialect .ecma)
    ∨ ∃ result, ∀ dialect, parser (state.inDialect dialect) = resultIn dialect result

namespace Lockstep

-----------------------------------------------------------------------------------------
-- Sequences
-----------------------------------------------------------------------------------------

/-- A parser that does not see the dialect goes in lockstep. -/
theorem of_blind {parser : Parser α}
    (blind
      : ∀ state dialect, parser (state.inDialect dialect) = resultIn dialect (parser state))
    : Lockstep parser :=
  fun state => .inr ⟨parser state, blind state⟩

theorem pure (value : α) : Lockstep (pure value : Parser α) :=
  of_blind fun _ _ => rfl

theorem reject (error : SyntaxError) : Lockstep (reject error : Parser α) :=
  of_blind fun _ _ => rfl

theorem fault (fault : Fault) : Lockstep (Parser.fault fault : Parser α) :=
  of_blind fun _ _ => rfl

/-- A stop of the first parser, or of the second, is a stop of both. -/
theorem bind {parser : Parser α} {next : α → Parser β} (first : Lockstep parser)
    (second : ∀ value, Lockstep (next value))
    : Lockstep (parser >>= next) := by
  intro state
  obtain ⟨failure, after, ran, stops⟩ | ⟨result, ran⟩ := first state
  · refine .inl ⟨failure, after, ?_, stops⟩
    change EStateM.bind parser next _ = _
    rw [EStateM.bind, ran]
  · cases result with
    | error failure after =>
        refine .inr ⟨.error failure after, fun dialect => ?_⟩
        change EStateM.bind parser next _ = _
        rw [EStateM.bind, ran]
        rfl
    | ok value after =>
        have onward (dialect : Dialect)
            : (parser >>= next) (state.inDialect dialect) = next value (after.inDialect dialect) :=
          bind_of_ok next (ran dialect)
        obtain ⟨failure, last, ranNext, stops⟩ | ⟨result, ranNext⟩ := second value after
        · exact .inl ⟨failure, last, (onward .ecma).trans ranNext, stops⟩
        · exact .inr ⟨result, fun dialect => (onward dialect).trans (ranNext dialect)⟩

/-- A function of the result does not see the dialect. -/
theorem map {parser : Parser α} (f : α → β) (lockstep : Lockstep parser)
    : Lockstep (f <$> parser) := by
  rw [← bind_pure_comp]
  exact lockstep.bind fun value => pure (f value)

theorem discard {parser : Parser α} (lockstep : Lockstep parser)
    : Lockstep (discard parser) :=
  lockstep.map _

/-- The state is asked only for what no dialect changes. -/
theorem bind_get {next : ParserState → Parser β}
    (blind : ∀ state dialect, next (state.inDialect dialect) = next state)
    (onward : ∀ state, Lockstep (next state))
    : Lockstep (get >>= next) := by
  intro state
  have asks (dialect : Dialect)
      : (get >>= next : Parser β) (state.inDialect dialect)
        = next state (state.inDialect dialect) := by
    rw [bind_of_ok next (rfl : (get : Parser ParserState) (state.inDialect dialect) = .ok _ _),
      blind]
  obtain ⟨failure, after, ran, stops⟩ | ⟨result, ran⟩ := onward state state
  · exact .inl ⟨failure, after, (asks .ecma).trans ran, stops⟩
  · exact .inr ⟨result, fun dialect => (asks dialect).trans (ran dialect)⟩

/-- A condition that does not see the dialect may decide between parsers. -/
theorem ite {condition : Prop} [Decidable condition] {first second : Parser α}
    (lockstep : Lockstep first) (other : Lockstep second)
    : Lockstep (if condition then first else second) := by
  split_ifs
  · exact lockstep
  · exact other

-----------------------------------------------------------------------------------------
-- Tokens
-----------------------------------------------------------------------------------------

theorem peek {mode : LexMode} : Lockstep (peek mode) := by
  refine of_blind fun state dialect => ?_
  unfold Parser.peek
  rw [bind_of_ok _ (rfl : (get : Parser ParserState) (state.inDialect dialect) = .ok _ _),
    bind_of_ok _ (rfl : (get : Parser ParserState) state = .ok _ _), state.fetch_inDialect]
  cases state.fetch mode <;> rfl

theorem advance (step : Nat → Nat)
    : Lockstep (modify fun state => { state with next := step state.next } : Parser PUnit) :=
  of_blind fun _ _ => rfl

theorem checkpoint : Lockstep checkpoint :=
  bind_get (fun _ _ => rfl) fun _ => pure _

theorem restore {start : Nat} : Lockstep (restore start) :=
  advance fun _ => start

theorem since {start : Nat} : Lockstep (since start) := by
  refine bind_get (fun state dialect => by rw [state.since_inDialect]) fun state => ?_
  cases state.since start with
  | ok span => exact pure span
  | error cause => exact fault cause

theorem consume {mode : LexMode} : Lockstep (consume mode) :=
  peek.bind fun token => (advance fun next => next + 1).bind fun _ => pure token

/-- Tokens are looked at in lockstep, by induction on their number. -/
theorem peekMany (count : Nat) : Lockstep (peekMany count) := by
  have many : Lockstep (consumeMany count) := by
    induction count with
    | zero => exact pure []
    | succ count ih => exact consume.bind fun _ => ih.bind fun _ => pure _
  exact checkpoint.bind fun _ => many.bind fun _ => restore.bind fun _ => pure _

theorem consumeIf {kind : Kind} {mode : LexMode} : Lockstep (consumeIf kind mode) :=
  peek.bind fun _ => .ite ((advance fun next => next + 1).bind fun _ => pure _) (pure _)

theorem accept {kind : Kind} : Lockstep (accept kind) :=
  consumeIf.bind fun _ => pure _

theorem require {kind : Kind} {mode : LexMode} : Lockstep (require kind mode) :=
  consume.bind fun _ => .ite (pure _) (.ite (reject _) (reject _))

theorem requireSome {condition : Kind → Bool} {expected : String}
    : Lockstep (requireSome condition expected) :=
  consume.bind fun _ => .ite (pure _) (reject _)

theorem spanned {parser : Parser (Span → α)} (lockstep : Lockstep parser)
    : Lockstep (spanned parser) :=
  checkpoint.bind fun _ => lockstep.bind fun _ => since.bind fun _ => pure _

-----------------------------------------------------------------------------------------
-- Texts and names
-----------------------------------------------------------------------------------------

/-- A text is cut out of the source, which both dialects share. -/
theorem textAt {span : Span} : Lockstep (textAt span) := by
  refine bind_get (fun _ _ => rfl) fun state => ?_
  cases Text.slice? span.start span.stop state.source with
  | some text => exact pure text
  | none => exact fault .noText

/-- A name is decoded from its text, which both dialects share. -/
theorem nameAt {span : Span} : Lockstep (nameAt span) :=
  textAt.bind fun _ => pure _

theorem requireIdentifier : Lockstep requireIdentifier :=
  consume.bind fun _ => .ite nameAt (.ite (reject _) (reject _))

/-- A statement ends alike in both dialects. -/
theorem requireStatementEnd : Lockstep requireStatementEnd :=
  peek.bind fun _ => .ite consume.discard (.ite (pure _) (reject _))

/-- The only place where the dialect is asked for. A word that is reserved in one dialect alone is
`const`.
-/
theorem checkReserved {token : Token} : Lockstep (checkReserved token) := by
  intro state
  have asks (dialect : Dialect)
      : Parser.checkReserved token (state.inDialect dialect)
        = if isReservedIn dialect token.kind then
            .error (.rejected (token.error .reservedWord)) (state.inDialect dialect)
          else
            .ok ⟨⟩ (state.inDialect dialect) := by
    unfold Parser.checkReserved
    rw [bind_of_ok _ (rfl : (get : Parser ParserState) (state.inDialect dialect) = .ok _ _)]
    by_cases reserved : isReservedIn dialect token.kind
    · rw [if_pos reserved, if_pos (show isReservedIn (state.inDialect dialect).dialect _ from reserved)]
      rfl
    · rw [if_neg reserved, if_neg (show ¬isReservedIn (state.inDialect dialect).dialect _ from reserved)]
      rfl
  by_cases isConst : token.kind = .keywordConst
  · refine .inl
      ⟨.rejected (token.error .reservedWord), _, (asks .ecma).trans (if_pos ?_), ?_,
        congrArg some isConst⟩
    · rw [isConst]
      rfl
    · simp [Token.error, isConst]
  · have same (dialect : Dialect)
        : isReservedIn dialect token.kind = token.kind.isFutureReserved := by
      simp [isReservedIn, isConst]
    by_cases reserved : token.kind.isFutureReserved
    · refine .inr ⟨.error (.rejected (token.error .reservedWord)) state, fun dialect => ?_⟩
      rw [asks, if_pos ((same dialect).trans reserved)]
      rfl
    · refine .inr ⟨.ok ⟨⟩ state, fun dialect => ?_⟩
      rw [asks, if_neg (by rwa [same dialect])]
      rfl

-----------------------------------------------------------------------------------------
-- Repetition
-----------------------------------------------------------------------------------------

theorem repetitions : Lockstep repetitions :=
  bind_get (fun _ _ => rfl) fun _ => pure _

/-- Items are repeated in lockstep if the test and each item are, by induction on the bound. -/
theorem repeatWhile {condition : Parser Bool} {item : Parser α} (tests : Lockstep condition)
    (each : Lockstep item)
    : Lockstep (repeatWhile condition item) := by
  refine repetitions.bind fun bound => ?_
  induction bound with
  | zero => exact fault .exhausted
  | succ bound ih =>
      exact tests.bind fun _ => .ite (each.bind fun _ => ih.bind fun _ => pure _) (pure [])

/-- Items go on up to a token in lockstep if each item does. -/
theorem repeatUntil {stop : Kind} {item : Parser α} (each : Lockstep item)
    : Lockstep (repeatUntil stop item) :=
  repeatWhile (peek.bind fun _ => pure _) each

/-- A list goes in lockstep if each item does. -/
theorem list {close : Kind} {item : Parser α} (each : Lockstep item)
    : Lockstep (list close item) := by
  have tail (bound : Nat) : Lockstep (listTail close item bound) := by
    induction bound with
    | zero => exact fault .exhausted
    | succ bound ih =>
        exact accept.bind fun _ =>
          .ite (each.bind fun _ => ih.bind fun _ => pure _) (require.discard.bind fun _ => pure [])
  exact accept.bind fun _ =>
    .ite (pure [])
      (each.bind fun _ => repetitions.bind fun bound => (tail bound).bind fun _ => pure _)

/-- A list with a comma behind its last item, too, goes in lockstep if each item does. -/
theorem looseList {close : Kind} {item : Parser α} (each : Lockstep item)
    : Lockstep (looseList close item) := by
  refine repetitions.bind fun bound => ?_
  induction bound with
  | zero => exact fault .exhausted
  | succ bound ih =>
      exact accept.bind fun _ =>
        .ite (pure [])
          (each.bind fun first =>
            accept.bind fun _ =>
              .ite (ih.bind fun _ => pure _) (require.discard.bind fun _ => pure [first]))

end Lockstep

end Parser

end EcmaSyntax
