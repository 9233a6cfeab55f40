import EcmaSyntax.Proofs.Grammar.Settling.Program

/-! A `for` loop is of the kind that its header says. The header is read up to the end of its first clause,
once to find out what follows the clause and once more as part of the loop. A loop of the other kind is
never accepted where one is, and what the loop gives does not show that its header was read before.
-/

namespace EcmaSyntax.Grammar

open EcmaSyntax.Parser

variable {script : Script} {rules : Rules} {inAllowed : Bool} {offset : Nat}

-----------------------------------------------------------------------------------------
-- The first clause
-----------------------------------------------------------------------------------------

/-- Reads the header of a loop up to the end of its first clause. -/
def forOpening (rules : Rules) : Parser ForStart := do
  discard (require .keywordFor)
  discard (require .parenthesisOpen)
  forStart rules

/-- The word `in` follows the first clause, which is not missing. -/
def inFollows : ForStart → Parser Bool
  | .nothing => return false
  | .declaration _ | .expression _ => return (← peek).kind = .keywordIn

/-- What the first clause is as the target of a `for`-`in` loop. One that is missing is still to be read
as an expression.
-/
def targetOf (rules : Rules) : ForStart → Parser ForInTarget
  | .nothing => do
      let target ← expression rules false
      requireTarget target
      return .expression target
  | .declaration declaration =>
      if declaration.declarators.length = 1 then
        return .declaration declaration
      else
        reject
          {
            cause := .expectedSyntax "single variable declaration"
            span := declaration.span
            actual := none
          }
  | .expression target => do
      requireTarget target
      return .expression target

/-- The rest of a `for`-`in` loop after its first clause. -/
def forInFrom (rules : Rules) (inAllowed : Bool) (start : ForStart) : Parser (Span → Stmt) := do
  let target ← targetOf rules start
  discard (require .keywordIn)
  let object ← expression rules inAllowed
  discard (require .parenthesisClose)
  let body ← rules.statement inAllowed
  return fun span => .forIn span target object body

/-- The rest of a loop with three clauses after the first one. -/
def forLoopFrom (rules : Rules) (inAllowed : Bool) (start : ForStart) : Parser (Span → Stmt) := do
  discard (require .semicolon)
  let condition ← forClause rules inAllowed .semicolon
  let update ← forClause rules inAllowed .parenthesisClose
  let body ← rules.statement inAllowed
  return fun span => .forLoop span start condition update body

/-- A header is read up to the end of its first clause, and then `in` is looked for. -/
theorem forHeaderHasIn_eq (rules : Rules)
    : forHeaderHasIn rules = forOpening rules >>= inFollows := by
  unfold forHeaderHasIn forOpening forStart
  simp only [bind_assoc]
  refine bind_congr fun _ => bind_congr fun _ => bind_congr fun first => ?_
  by_cases missing : first.kind = .semicolon
  · simp [missing, opensDeclaration, inFollows]
  · by_cases opens : opensDeclaration first.kind <;>
      simp [missing, opens, inFollows, discard, map_const]

/-- The target of a loop is read as a first clause is, unless there is none. -/
theorem forInTarget_eq (rules : Rules)
    : forInTarget rules = forStart rules >>= targetOf rules := by
  unfold forInTarget forStart
  simp only [bind_assoc]
  refine bind_congr fun first => ?_
  by_cases missing : first.kind = .semicolon
  · simp [missing, opensDeclaration, targetOf]
  · by_cases opens : opensDeclaration first.kind <;> simp [missing, opens, targetOf]

/-- A loop over the names of properties is its opening and the rest of it. -/
theorem forInStatement_eq (rules : Rules) (inAllowed : Bool)
    : forInStatement rules inAllowed
      = spanned (forOpening rules >>= forInFrom rules inAllowed) := by
  unfold forInStatement forOpening forInFrom
  simp only [forInTarget_eq, bind_assoc]

/-- A loop with three clauses is its opening and the rest of it. -/
theorem forLoopStatement_eq (rules : Rules) (inAllowed : Bool)
    : forLoopStatement rules inAllowed
      = spanned (forOpening rules >>= forLoopFrom rules inAllowed) := by
  unfold forLoopStatement forOpening forLoopFrom
  simp only [bind_assoc]

-----------------------------------------------------------------------------------------
-- What follows the first clause
-----------------------------------------------------------------------------------------

/-- No expression begins with a semicolon. -/
theorem expressionFrom_never {first : Token} {least : Nat}
    (read : script.Reads .standard offset first) (missing : first.kind = .semicolon)
    : Ensures script (expressionFrom rules inAllowed least) offset fun _ _ => False := by
  have readAgain := read.toRegex (missing ▸ rfl)
  have never : Ensures script (operand rules inAllowed) offset fun _ _ => False := by
    refine .bind_peek fun token readOperand => ?_
    obtain rfl := readAgain.unique readOperand
    rw [missing]
    refine .bind_peek fun token readPrimary => ?_
    obtain rfl := readAgain.unique readPrimary
    rw [missing]
    exact .bind_consume fun _ _ => .bind_checkReserved fun _ => .reject
  exact never.bind nofun

/-- A first clause is missing in front of a semicolon only. -/
theorem forOpening_ensures (sound : rules.Sound script)
    : Ensures script (forOpening rules) offset fun start tokens =>
        start = .nothing →
        ∃ next,
          script.Reads .standard (Token.endOf offset tokens) next ∧ next.kind = .semicolon := by
  refine .bind_discard_require fun keyword read opens => ?_
  refine .bind_discard_require fun bracket readBracket parenthesis => ?_
  refine (forStart_sound sound _).mono fun start front derivation => ?_
  rintro rfl
  obtain ⟨items, rfl, rule, components⟩ := derivation.statement_components rfl
  cases rule with
  | forStartNothing missing => exact ⟨_, components.1.1, missing⟩

/-- Whether `in` follows is found by looking at the next token. -/
theorem inFollows_shows {state : ParserState} {consumed : List Token}
    (shows : state.Shows script consumed) (start : ForStart)
    : ∃ next hasIn after,
        inFollows start state = .ok hasIn after
        ∧ after.Shows script consumed
        ∧ script.Reads .standard (Token.endOf 0 consumed) next
        ∧ (hasIn = true ↔ start ≠ .nothing ∧ next.kind = .keywordIn) := by
  obtain ⟨next, after, ran, read, stays, _⟩ := peek_shows shows .standard
  cases start with
  | nothing => exact ⟨next, false, state, rfl, shows, read, by simp⟩
  | declaration | expression =>
      exact ⟨next, decide (next.kind = .keywordIn), after, bind_of_ok _ ran, stays, read, by simp⟩

/-- A loop with three clauses does not go on with anything but a semicolon. -/
theorem forLoopFrom_never {next : Token} (start : ForStart)
    (read : script.Reads .standard offset next) (noMark : next.kind ≠ .semicolon)
    : Ensures script (forLoopFrom rules inAllowed start) offset fun _ _ => False :=
  .bind_discard_require fun _ readAgain divides => absurd (read.unique readAgain ▸ divides) noMark

/-- Where a semicolon stands for the first clause, there is no target. -/
theorem forInFrom_nothing_never {next : Token} (read : script.Reads .standard offset next)
    (missing : next.kind = .semicolon)
    : Ensures script (forInFrom rules inAllowed .nothing) offset fun _ _ => False := by
  have never : Ensures script (targetOf rules .nothing) offset fun _ _ => False :=
    (expressionFrom_never read missing).bind nofun
  exact never.bind nofun

/-- A clause becomes a target without more tokens. -/
theorem targetOf_ensures {start : ForStart} (present : start ≠ .nothing)
    : Ensures script (targetOf rules start) offset fun _ tokens => tokens = [] := by
  cases start with
  | nothing => exact absurd rfl present
  | expression => exact bind_requireTarget fun _ => .pure rfl
  | declaration inner =>
      rw [targetOf]
      split
      next => exact .pure rfl
      next => exact .reject

/-- A `for`-`in` loop does not go on with anything but `in`. -/
theorem forInFrom_never {next : Token} {start : ForStart} (present : start ≠ .nothing)
    (read : script.Reads .standard offset next) (noIn : next.kind ≠ .keywordIn)
    : Ensures script (forInFrom rules inAllowed start) offset fun _ _ => False := by
  refine (targetOf_ensures present).bind ?_
  rintro _ _ rfl
  exact .bind_discard_require fun _ readAgain isIn => absurd (read.unique readAgain ▸ isIn) noIn

-----------------------------------------------------------------------------------------
-- One of the two loops
-----------------------------------------------------------------------------------------

/-- Of two loops the state has at most one, and the parser reads it. Where it has neither, the parser fails
as one of them does.
-/
structure Chooses (state : ParserState) (parser first second : Parser Stmt) : Prop where
  exclusive
    : ¬((∃ value after, first state = .ok value after) ∧ ∃ value after, second state = .ok value after)
  accepts
    : ∀ value after,
        first state = .ok value after ∨ second state = .ok value after →
        ∃ last, parser state = .ok value last ∧ last.consumed = after.consumed
  fails
    : ∀ failure another after other,
        first state = .error failure after →
        second state = .error another other →
        ∃ last, parser state = .error failure last ∨ parser state = .error another last

/-- The choice does not depend on which loop is named first. -/
theorem Chooses.swap {state : ParserState} {parser first second : Parser Stmt}
    (chooses : Chooses state parser first second)
    : Chooses state parser second first := by
  refine ⟨fun both => chooses.exclusive both.symm, ?_, ?_⟩
  · exact fun value after accepted => chooses.accepts value after accepted.symm
  · intro failure another after other failed failedToo
    obtain ⟨last, ran⟩ := chooses.fails another failure other after failedToo failed
    exact ⟨last, ran.symm⟩

/-- In the state one of the loops is not accepted, and the parser settles on what the other one does. -/
structure ReadAs (script : Script) (consumed : List Token) (state : ParserState)
    (parser loop other : Parser Stmt)
    : Prop where
  never : ∀ value after, other state ≠ .ok value after
  settled : Settled script consumed (parser state) (loop state)

/-- The parsers fail in the same way in the state. -/
def FailAlike (state : ParserState) (parsers : List (Parser Stmt)) : Prop :=
  ∃ failure after, ∀ parser ∈ parsers, parser state = .error failure after

/-- Where all fail alike, there is neither loop to be chosen. -/
theorem FailAlike.chooses {state : ParserState} {parser first second : Parser Stmt}
    (alike : FailAlike state [parser, first, second])
    : Chooses state parser first second := by
  obtain ⟨failure, after, failed⟩ := alike
  simp only [List.forall_mem_cons, List.not_mem_nil, false_imp_iff, implies_true, and_true] at failed
  obtain ⟨ran, ranFirst, ranSecond⟩ := failed
  refine ⟨?_, ?_, ?_⟩
  · rintro ⟨⟨value, between, accepted⟩, _⟩
    cases ranFirst.symm.trans accepted
  · rintro value between (accepted | accepted)
    · cases ranFirst.symm.trans accepted
    · cases ranSecond.symm.trans accepted
  · intro other another between last rejected _
    cases ranFirst.symm.trans rejected
    exact ⟨after, .inl ran⟩

/-- Where one loop is never accepted, the other one is what is chosen. -/
theorem ReadAs.chooses {script : Script} {consumed : List Token} {state : ParserState}
    {parser loop other : Parser Stmt} (readAs : ReadAs script consumed state parser loop other)
    : Chooses state parser loop other := by
  obtain ⟨never, settled⟩ := readAs
  refine ⟨fun ⟨_, value, after, accepted⟩ => never value after accepted, ?_, ?_⟩
  · rintro value after (accepted | accepted)
    · rw [accepted] at settled
      generalize parser state = result at settled ⊢
      cases settled with
      | accepted shown mirrored => exact ⟨_, rfl, shown.consumed_eq.trans mirrored.consumed_eq.symm⟩
    · exact absurd accepted (never value after)
  · intro failure another after last failed _
    rw [failed] at settled
    generalize parser state = result at settled ⊢
    cases settled with
    | rejected blames => exact ⟨_, .inl rfl⟩

/-- A failure is the failure of all that was to follow. -/
theorem bind_of_error {α β : Type} {parser : Parser α} (next : α → Parser β) {failure : Failure}
    {state between : ParserState} (failed : parser state = .error failure between)
    : (parser >>= next) state = .error failure between := by
  change EStateM.bind parser next state = _
  rw [EStateM.bind, failed]

/-- A failure is the same with a span to come. -/
theorem spanned_of_error {α : Type} {parser : Parser (Span → α)} {failure : Failure}
    {state between : ParserState} (failed : parser state = .error failure between)
    : spanned parser state = .error failure between := by
  unfold spanned
  rw [bind_of_ok _ (rfl : checkpoint state = .ok state.next state)]
  exact bind_of_error _ failed

/-- What never accepts after a beginning that was accepted does not accept with it. -/
theorem spanned_never {α β : Type} {parser : Parser α} {next : α → Parser (Span → β)} {value : α}
    {state between : ParserState} {consumed : List Token} (ran : parser state = .ok value between)
    (shown : between.Shows script consumed)
    (never : Ensures script (next value) (Token.endOf 0 consumed) fun _ _ => False)
    : ∀ result after, spanned (parser >>= next) state ≠ .ok result after := by
  intro result after accepted
  unfold spanned at accepted
  rw [bind_of_ok _ (rfl : checkpoint state = .ok state.next state)] at accepted
  obtain ⟨build, _, ranWhole, _⟩ := bind_eq_ok.mp accepted
  rw [bind_of_ok _ ran] at ranWhole
  obtain ⟨_, _, impossible⟩ := never _ _ _ _ shown rfl ranWhole
  exact impossible

variable {size : Nat} {state : ParserState} {consumed : List Token}

/-- A header that is read leaves the choice of the loop and nothing else. -/
theorem forStatement_of_header {start : ForStart} {hasIn : Bool} {tokens : List Token}
    {between after : ParserState} (inAllowed : Bool) (shows : state.Shows script consumed)
    (opened : forOpening rules state = .ok start between)
    (follows : inFollows start between = .ok hasIn after)
    (shown : after.Shows script (consumed ++ tokens))
    : ∃ back,
        back.Shows script consumed
        ∧ forStatement rules inAllowed state
          = (if hasIn then forInStatement rules inAllowed else forLoopStatement rules inAllowed)
              back := by
  obtain ⟨back, ranBack, restored⟩ := restore_shows shown consumed.length (by simp)
  refine ⟨back, by simpa using restored, ?_⟩
  unfold forStatement
  rw [bind_of_ok _ (checkpoint_shows shows), forHeaderHasIn_eq, bind_assoc, bind_of_ok _ opened,
    bind_of_ok _ follows, bind_of_ok _ ranBack]

/-- Where no header is read, no loop is. -/
theorem failAlike_of_header {failure : Failure} {between : ParserState}
    (opened : forOpening rules state = .error failure between)
    : FailAlike state
        [
          forStatement rules inAllowed,
          forInStatement rules inAllowed,
          forLoopStatement rules inAllowed
        ] := by
  refine ⟨failure, between, ?_⟩
  simp only [List.forall_mem_cons, List.not_mem_nil, false_imp_iff, implies_true, and_true]
  rw [forInStatement_eq, forLoopStatement_eq]
  refine ⟨?_, spanned_of_error (bind_of_error _ opened), spanned_of_error (bind_of_error _ opened)⟩
  unfold forStatement
  rw [bind_of_ok _ (rfl : checkpoint state = .ok state.next state), forHeaderHasIn_eq, bind_assoc]
  exact bind_of_error _ opened

/-- No header is read, or it is the header of one of the loops. -/
theorem forStatement_cases (settles : Rules.Settles script size rules rules)
    (fits : script.left (Token.endOf 0 consumed) ≤ size) (inAllowed : Bool)
    (shows : state.Shows script consumed)
    : FailAlike state
          [
            forStatement rules inAllowed,
            forInStatement rules inAllowed,
            forLoopStatement rules inAllowed
          ]
        ∨ ReadAs script consumed state (forStatement rules inAllowed)
            (forInStatement rules inAllowed) (forLoopStatement rules inAllowed)
        ∨ ReadAs script consumed state (forStatement rules inAllowed)
            (forLoopStatement rules inAllowed) (forInStatement rules inAllowed) := by
  cases opened : forOpening rules state with
  | error failure between => exact .inl (failAlike_of_header opened)
  | ok start between =>
      obtain ⟨tokens, shown, missing⟩ := forOpening_ensures settles.sound _ _ _ _ shows rfl opened
      obtain ⟨next, hasIn, after, follows, stays, read, decides⟩ := inFollows_shows shown start
      obtain ⟨back, restored, ran⟩ := forStatement_of_header inAllowed shows opened follows stays
      rw [Token.endOf_append] at read
      cases hasIn with
      | true =>
          obtain ⟨present, isIn⟩ := decides.mp rfl
          have header : forHeaderHasIn rules state = .ok true after := by
            rw [forHeaderHasIn_eq, bind_of_ok _ opened, follows]
          obtain ⟨_, _, filled⟩ := forHeaderHasIn_ensures settles.sound _ _ _ _ _ shows rfl header
          refine .inr (.inl ⟨?_, ?_⟩)
          · rw [forLoopStatement_eq]
            refine spanned_never opened shown ?_
            rw [Token.endOf_append]
            exact forLoopFrom_never start read (isIn ▸ by decide)
          · rw [ran, if_pos rfl]
            exact forInStatement_settles settles fits inAllowed (filled rfl) _ _ _ restored shows rfl
      | false =>
          refine .inr (.inr ⟨?_, ?_⟩)
          · rw [forInStatement_eq]
            refine spanned_never opened shown ?_
            rw [Token.endOf_append]
            by_cases present : start = .nothing
            · obtain ⟨mark, readMark, isMark⟩ := missing present
              rw [present]
              exact forInFrom_nothing_never readMark isMark
            · refine forInFrom_never present read fun isIn => ?_
              exact Bool.false_ne_true (decides.mpr ⟨present, isIn⟩)
          · rw [ran, if_neg Bool.false_ne_true]
            exact forLoopStatement_settles settles fits inAllowed _ _ _ restored shows rfl

/-- From any state, at most one of the two loops is accepted. What one of them accepts is accepted as a
`for` loop, with the same tokens; and where neither is accepted, the `for` loop fails as one of them does.
-/
theorem forStatement_chooses {depth : Nat}
    (enough : script.left (Token.endOf 0 consumed) ≤ depth) (inAllowed : Bool)
    (shows : state.Shows script consumed)
    : Chooses state (forStatement (Rules.ofDepth depth) inAllowed)
        (forInStatement (Rules.ofDepth depth) inAllowed)
        (forLoopStatement (Rules.ofDepth depth) inAllowed) := by
  have settles := Rules.settles_ofDepth script (Nat.le_refl depth) (Nat.le_refl depth)
  rcases forStatement_cases settles enough inAllowed shows with alike | readIn | readLoop
  · exact alike.chooses
  · exact readIn.chooses
  · exact readLoop.chooses.swap

/-- A header whose first clause has a regular expression, which is read again in the loop. -/
theorem forStatement_chooses_regex
    : ∃ value after last,
        forLoopStatement (Rules.ofDepth 30) true (.ofSource "for (a = /b c/; d; ) e".toList .js)
            = .ok value after
          ∧ forStatement (Rules.ofDepth 30) true (.ofSource "for (a = /b c/; d; ) e".toList .js)
            = .ok value last
          ∧ last.consumed = after.consumed
          ∧ after.consumed.length = 10 := by
  have accepted
      : (match
            forLoopStatement (Rules.ofDepth 30) true
              (.ofSource "for (a = /b c/; d; ) e".toList .js)
          with
          | .ok _ after => some after.consumed.length
          | .error .. => none)
          = some 10 := by
    decide +kernel
  have shows := ParserState.shows_ofSource "for (a = /b c/; d; ) e".toList .js
  have chooses := forStatement_chooses ((Script.left_le _ _).trans (by decide : _ ≤ 30)) true shows
  split at accepted
  next value after ran =>
    obtain ⟨last, ranToo, same⟩ := chooses.accepts value after (.inr ran)
    exact ⟨value, after, last, ran, ranToo, same, Option.some.inj accepted⟩
  next => cases accepted

end EcmaSyntax.Grammar
