import EcmaSyntax.Proofs.Token.Transparency

/-! Checkpoints and the buffer. A parser can go to every checkpoint that its buffer reaches, behind or
ahead. The buffer becomes shorter only when a slash in it is read anew in the other mode; so checkpoints
that were taken since then, and those behind, can always be gone to.
-/

namespace EcmaSyntax

-----------------------------------------------------------------------------------------
-- The length of the buffer
-----------------------------------------------------------------------------------------

namespace ParserState

variable {state after : ParserState} {script : Script} {consumed : List Token} {mode : LexMode}
  {token : Token}

/-- The next token is in the buffer, begins with a slash and is looked at in the other mode. -/
def rereads (state : ParserState) (mode : LexMode) : Bool :=
  match state.needsRereading mode with
  | .ok reread => reread
  | .error _ => false

/-- What is consumed after going to a place is the buffer up to there. -/
theorem Shows.goTo (shows : state.Shows script consumed) {checkpoint : Nat}
    (reached : checkpoint ≤ state.tokens.size)
    : ({ state with next := checkpoint } : ParserState).Shows script
        (state.buffer.take checkpoint) :=
  ⟨shows.consistent.goTo reached, shows.source_eq, shows.dialect_eq, shows.bound_gt, rfl⟩

/-- Filling the buffer makes it no shorter. -/
theorem size_le_of_fill (filled : state.fill mode = .ok after)
    : state.tokens.size ≤ after.tokens.size := by
  unfold fill at filled
  split at filled
  next =>
    split at filled
    next =>
      cases filled
      simp
    next => cases filled
  next =>
    cases filled
    exact Nat.le_refl _

/-- Without rereading, looking at a token forgets none. -/
theorem size_le_of_fetch (fetched : state.fetch mode = .ok (token, after))
    (kept : state.rereads mode = false)
    : state.tokens.size ≤ after.tokens.size := by
  unfold fetch at fetched
  unfold rereads at kept
  cases told : state.needsRereading mode with
  | error fault => simp [told] at fetched
  | ok reread =>
      simp only [told] at fetched kept
      subst kept
      split at fetched
      next => cases fetched
      next filled =>
        split at fetched
        next =>
          cases fetched
          exact size_le_of_fill filled
        next => cases fetched

end ParserState

namespace Parser

variable {state after : ParserState} {script : Script} {consumed : List Token} {mode : LexMode}
  {token : Token}

/-- Looking at a token beyond the end of the buffer is a fault. -/
theorem peek_beyond (beyond : state.tokens.size < state.next) (mode : LexMode)
    : peek mode state = .error (.fault .noToken) state := by
  have absent : state.tokens[state.next]? = none := Array.getElem?_eq_none (Nat.le_of_lt beyond)
  have fetched : state.fetch mode = .error .noToken := by
    simp [ParserState.fetch, ParserState.needsRereading, ParserState.fill, absent, Nat.ne_of_lt beyond]
  unfold peek
  rw [bind_of_ok _ (rfl : (get : Parser ParserState) state = .ok state state), fetched]
  rfl

/-- Looking at a token makes the buffer no shorter unless the token is read anew. -/
theorem size_le_of_peek (ran : peek mode state = .ok token after) (kept : state.rereads mode = false)
    : state.tokens.size ≤ after.tokens.size := by
  unfold peek at ran
  rw [bind_of_ok _ (rfl : (get : Parser ParserState) state = .ok state state)] at ran
  cases fetched : state.fetch mode with
  | error fault =>
      rw [fetched] at ran
      cases ran
  | ok found =>
      rw [fetched] at ran
      cases ran
      exact ParserState.size_le_of_fetch fetched kept

/-- Consuming a token makes the buffer no shorter unless the token is read anew. -/
theorem size_le_of_consume (ran : consume mode state = .ok token after)
    (kept : state.rereads mode = false)
    : state.tokens.size ≤ after.tokens.size := by
  obtain ⟨looked, between, ranPeek, ranRest⟩ := bind_eq_ok.mp ran
  have grows := size_le_of_peek ranPeek kept
  cases ranRest
  exact grows

end Parser

-----------------------------------------------------------------------------------------
-- Operations that keep the buffer
-----------------------------------------------------------------------------------------

namespace TokenRequest

variable {state after : ParserState} {script : Script} {consumed : List Token}

/-- One of so many tokens from the next one on is reread. -/
def rereadsMany : Nat → ParserState → Bool
  | 0, _ => false
  | count + 1, state =>
      state.rereads .standard
      || match Parser.consume .standard state with
        | .ok _ after => rereadsMany count after
        | .error _ _ => false

/-- The operation reads a token anew, and the tokens after it are forgotten. -/
def rereads : TokenRequest → ParserState → Bool
  | peek mode, state | consume mode, state | consumeIf _ mode, state | require _ mode, state =>
      state.rereads mode
  | peekMany count, state => rereadsMany count state
  | restore _, _ => false

/-- Consuming tokens makes the buffer no shorter unless one of them is read anew. -/
theorem size_le_of_consumeMany {count : Nat} {tokens : List Token}
    (ran : Parser.consumeMany count state = .ok tokens after)
    (kept : rereadsMany count state = false)
    : state.tokens.size ≤ after.tokens.size := by
  induction count generalizing state tokens with
  | zero =>
      cases ran
      exact Nat.le_refl _
  | succ count ih =>
      obtain ⟨first, between, ranFirst, ranRest⟩ := Parser.bind_eq_ok.mp ran
      obtain ⟨rest, last, ranMany, ranLast⟩ := Parser.bind_eq_ok.mp ranRest
      rw [rereadsMany, ranFirst, Bool.or_eq_false_iff] at kept
      cases ranLast
      exact Nat.le_trans (Parser.size_le_of_consume ranFirst kept.1) (ih ranMany kept.2)

/-- Unless it rereads, an operation forgets no token. -/
theorem size_le_of_perform (shows : state.Shows script consumed) {request : TokenRequest}
    {answer : TokenAnswer} (ran : request.perform state = .ok answer after)
    (kept : request.rereads state = false)
    : state.tokens.size ≤ after.tokens.size := by
  cases request with
  | peek mode =>
      obtain ⟨token, between, looked, _⟩ := Parser.peek_shows shows mode
      have grows := Parser.size_le_of_peek looked kept
      rw [perform, Parser.map_of_ok _ looked] at ran
      cases ran
      exact grows
  | consume mode =>
      obtain ⟨token, between, taken, _⟩ := Parser.consume_shows shows mode
      have grows := Parser.size_le_of_consume taken kept
      rw [perform, Parser.map_of_ok _ taken] at ran
      cases ran
      exact grows
  | peekMany count =>
      obtain ⟨tokens, between, taken, _⟩ := consumeMany_shows shows count
      have grows := size_le_of_consumeMany taken kept
      rw [perform, Parser.map_of_ok _ (peekMany_of_consumeMany taken)] at ran
      cases ran
      exact grows
  | consumeIf kind mode =>
      obtain ⟨token, between, looked, _⟩ := Parser.peek_shows shows mode
      have grows := Parser.size_le_of_peek looked kept
      rw [perform, Parser.map_of_ok _ (Parser.consumeIf_of_peek looked)] at ran
      cases ran
      split <;> exact grows
  | require kind mode =>
      obtain ⟨token, between, taken, _⟩ := Parser.consume_shows shows mode
      have grows := Parser.size_le_of_consume taken kept
      rw [perform_require taken] at ran
      cases ran
      exact grows
  | restore checkpoint =>
      cases ran
      exact Nat.le_refl _

-----------------------------------------------------------------------------------------
-- Sequences of operations
-----------------------------------------------------------------------------------------

/-- The checkpoint that an operation goes to. -/
def target? : TokenRequest → Option Nat
  | restore checkpoint => some checkpoint
  | _ => none

/-- Every operation is answered, and the buffer reaches up to the next token before and after each. -/
def staysBuffered : List TokenRequest → ParserState → Bool
  | [], state => state.next ≤ state.tokens.size
  | request :: rest, state =>
      state.next ≤ state.tokens.size
      && match request.perform state with
        | .ok _ after => staysBuffered rest after
        | .error _ _ => false

/-- The buffer reaches up to every checkpoint among the operations when it is gone to. -/
def restoresBuffered : List TokenRequest → ParserState → Bool
  | [], _ => true
  | request :: rest, state =>
      request.target?.all (· ≤ state.tokens.size)
      && match request.perform state with
        | .ok _ after => restoresBuffered rest after
        | .error _ _ => true

/-- The operations go back to any place, and ahead only to checkpoints that were taken before. `taken` are
the places where the parser stood, for a checkpoint can be taken anywhere, since an operation last made them
forgotten.
-/
def recalls (forgets : TokenRequest → ParserState → Bool)
    : List Nat → List TokenRequest → ParserState → Bool
  | _, [], _ => true
  | taken, request :: rest, state =>
      request.target?.all (fun checkpoint => checkpoint ≤ state.next || taken.contains checkpoint)
      && match request.perform state with
        | .ok _ after =>
            recalls forgets (if forgets request state then [] else state.next :: taken) rest after
        | .error _ _ => true

/-- An operation is answered, unless it goes to a checkpoint that the buffer does not reach. -/
theorem perform_buffered (shows : state.Shows script consumed) (request : TokenRequest)
    (reached : ∀ checkpoint, request.target? = some checkpoint → checkpoint ≤ state.tokens.size)
    : ∃ answer after next, request.perform state = .ok answer after ∧ after.Shows script next := by
  cases going : request.target? with
  | none =>
      obtain ⟨answer, after, next, ran, _, shown⟩ := perform_shows shows request (by
        rintro checkpoint rfl
        cases going)
      exact ⟨answer, after, next, ran, shown⟩
  | some checkpoint =>
      cases request <;> cases going
      exact ⟨.done, _, _, rfl, shows.goTo (reached checkpoint rfl)⟩

/-- Operations that stay within the buffer begin within it. -/
theorem within_of_staysBuffered {requests : List TokenRequest} (within : staysBuffered requests state)
    : state.next ≤ state.tokens.size := by
  cases requests with
  | nil => exact of_decide_eq_true within
  | cons request rest =>
      rw [staysBuffered, Bool.and_eq_true] at within
      exact of_decide_eq_true within.1

/-- Where each checkpoint is reached, every operation is answered. -/
theorem staysBuffered_of_restoresBuffered (shows : state.Shows script consumed)
    (requests : List TokenRequest) (buffered : restoresBuffered requests state)
    : staysBuffered requests state := by
  induction requests generalizing state consumed with
  | nil => exact decide_eq_true shows.consistent.next_le
  | cons request rest ih =>
      rw [restoresBuffered, Bool.and_eq_true] at buffered
      obtain ⟨reached, onward⟩ := buffered
      obtain ⟨answer, after, next, ran, shown⟩ :=
        perform_buffered shows request (by simpa [Option.all_eq_true] using reached)
      rw [ran] at onward
      rw [staysBuffered, ran, Bool.and_eq_true]
      exact ⟨decide_eq_true shows.consistent.next_le, ih shown onward⟩

/-- Operations that stay within the buffer reach each checkpoint. -/
theorem restoresBuffered_of_staysBuffered {requests : List TokenRequest}
    (within : staysBuffered requests state)
    : restoresBuffered requests state := by
  induction requests generalizing state with
  | nil => rfl
  | cons request rest ih =>
      rw [staysBuffered, Bool.and_eq_true] at within
      rw [restoresBuffered, Bool.and_eq_true]
      cases ran : request.perform state with
      | error failure after => simp [ran] at within
      | ok answer after =>
          rw [ran] at within
          refine ⟨?_, ih within.2⟩
          cases request with
          | restore checkpoint =>
              cases ran
              exact decide_eq_true (within_of_staysBuffered within.2)
          | _ => rfl

/-- Checkpoints that were taken since a token was last reread are reached by the buffer, by induction on
the operations; the invariant is that it reaches those that are not forgotten.
-/
theorem restoresBuffered_of_recalls (shows : state.Shows script consumed) {taken : List Nat}
    (reached : ∀ checkpoint ∈ taken, checkpoint ≤ state.tokens.size)
    (requests : List TokenRequest) (recalled : recalls rereads taken requests state)
    : restoresBuffered requests state := by
  induction requests generalizing state consumed taken with
  | nil => rfl
  | cons request rest ih =>
      rw [recalls, Bool.and_eq_true] at recalled
      obtain ⟨known, onward⟩ := recalled
      have present := shows.consistent.next_le
      have within (checkpoint : Nat) (goes : request.target? = some checkpoint)
          : checkpoint ≤ state.tokens.size := by
        rw [goes, Option.all_some, Bool.or_eq_true, decide_eq_true_iff, List.contains_iff_mem] at known
        exact known.elim (Nat.le_trans · present) (reached checkpoint)
      obtain ⟨answer, after, next, ran, shown⟩ := perform_buffered shows request within
      rw [ran] at onward
      rw [restoresBuffered, ran, Bool.and_eq_true]
      refine ⟨by simpa [Option.all_eq_true] using within, ih shown ?_ onward⟩
      cases kept : request.rereads state with
      | true => simp
      | false =>
          have grows := size_le_of_perform shows ran kept
          simp only [Bool.false_eq_true, if_false, List.forall_mem_cons]
          exact ⟨Nat.le_trans present grows, fun checkpoint member =>
            Nat.le_trans (reached checkpoint member) grows⟩

/-- From a fresh parser, every operation is answered and the next token is never beyond the end of the buffer
if and only if the buffer reaches up to every checkpoint that is gone to. It does if every such checkpoint
lies behind, or was taken before and no token was reread since then.
-/
theorem staysBuffered_iff (source : List Char) (dialect : Dialect) (requests : List TokenRequest)
    : (staysBuffered requests (ParserState.ofSource source dialect)
        ↔ restoresBuffered requests (ParserState.ofSource source dialect))
      ∧ (recalls rereads [] requests (ParserState.ofSource source dialect)
        → staysBuffered requests (ParserState.ofSource source dialect)) := by
  have shows := ParserState.shows_ofSource source dialect
  refine ⟨⟨restoresBuffered_of_staysBuffered, staysBuffered_of_restoresBuffered shows requests⟩, ?_⟩
  intro recalled
  exact staysBuffered_of_restoresBuffered shows requests
    (restoresBuffered_of_recalls shows (by simp) requests recalled)

/-- A parser goes back and ahead again, also after a slash was reread. -/
theorem staysBuffered_iff_slash
    : let source := ['a', ' ', '/', 'b', '/', '\n', 'c']
      let requests : List TokenRequest :=
        [
          .consume .standard, .consume .standard, .peekMany 2, .restore 0, .restore 2,
          .restore 1, .peek .regex, .consume .regex, .consume .standard, .restore 0, .restore 3,
          .peek .standard
        ]
      recalls rereads [] requests (ParserState.ofSource source .js)
      ∧ staysBuffered requests (ParserState.ofSource source .js) :=
  ⟨by decide +kernel, (staysBuffered_iff _ .js _).2 (by decide +kernel)⟩

/-- Going back to a slash and reading it as the beginning of a regular expression leaves a checkpoint
beyond the end of the buffer, and after going there the next token cannot be looked at.
-/
theorem checkpoint_beyond_buffer
    : let start := ParserState.ofSource ['/', 'b', '/'] .js
      let requests : List TokenRequest :=
        [
          .consume .standard, .consume .standard, .consume .standard, .restore 0, .peek .regex,
          .restore 3
        ]
      recalls (fun _ _ => false) [] requests start
      ∧ ¬staysBuffered requests start
      ∧ ∃ answers after,
          performAll requests start = .ok answers after
          ∧ after.tokens.size < after.next
          ∧ Parser.peek .standard after = .error (.fault .noToken) after := by
  intro start requests
  have outrun
      : (match performAll requests start with
          | .ok _ after => decide (after.tokens.size < after.next)
          | .error _ _ => false)
        = true := by
    decide +kernel
  refine ⟨by decide +kernel, by decide +kernel, ?_⟩
  split at outrun
  next answers after ran =>
    have beyond := of_decide_eq_true outrun
    exact ⟨answers, after, ran, beyond, Parser.peek_beyond beyond .standard⟩
  next => cases outrun

end TokenRequest

end EcmaSyntax
