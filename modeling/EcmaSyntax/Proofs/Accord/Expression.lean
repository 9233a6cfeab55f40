import EcmaSyntax.Proofs.Accord.Repetition
import EcmaSyntax.Proofs.Grammar.Soundness.Expression

/-! The productions of functions and expressions echo in texts in accord, given that the rules of the level below
do.
-/

namespace EcmaSyntax

open EcmaSyntax.Parser EcmaSyntax.Grammar

/-- The rules for the second text echo those for the first one. -/
structure Rules.Echo {script other : Script} (accord : Accord script other) (rules twin : Rules)
    : Prop where
  sound : rules.Sound script
  expression (inAllowed : Bool) (least : Nat)
    : Parser.Echo accord (rules.expression inAllowed least) (twin.expression inAllowed least)
  primary (inAllowed : Bool) : Parser.Echo accord (rules.primary inAllowed) (twin.primary inAllowed)
  statement (inAllowed : Bool)
    : Parser.Echo accord (rules.statement inAllowed) (twin.statement inAllowed)

namespace Grammar

variable {script other : Script} {accord : Accord script other} {lost : Prop} {offset : Nat}
variable {rules twin : Rules}

-----------------------------------------------------------------------------------------
-- Functions
-----------------------------------------------------------------------------------------

theorem parameter_echo : Echo accord parameter parameter :=
  .spanned_sound parameter_sound (fun _ => rfl) (Echoes.requireIdentifier.bind fun _ => .pure _)

/-- Statements echo up to the token that stops them, as each statement does. -/
theorem statements_echo (echo : Rules.Echo accord rules twin) (inAllowed : Bool) (stop : Kind)
    : Echo accord (rules.statements inAllowed stop) (twin.statements inAllowed stop) :=
  .repeatUntil stop (echo.statement inAllowed)

theorem functionBody_echo (echo : Rules.Echo accord rules twin)
    : Echo accord (functionBody rules) (functionBody twin) :=
  .spanned_sound (functionBody_sound echo.sound) (fun _ => rfl)
    (.bind_discard_require rfl
      ((statements_echo echo true .braceClose).bind fun _ =>
        .bind_discard_require rfl (.pure _)))

/-- A function echoes part by part: its parameters need no rules, its body those of the level below. -/
theorem function_echo (echo : Rules.Echo accord rules twin)
    : Echo accord (function rules) (function twin) :=
  .spanned_sound (function_sound echo.sound) (fun _ => rfl)
    (.bind (.bind_discard_require rfl (.list rfl parameter_echo)) fun _ =>
      (functionBody_echo echo).bind fun _ => .pure _)

theorem functionExpression_echo (echo : Rules.Echo accord rules twin)
    : Echo accord (functionExpression rules) (functionExpression twin) := by
  refine .spanned_sound (functionExpression_sound echo.sound) (fun _ => rfl) ?_
  refine .bind_discard_require rfl (.bind_peek fun _ _ => ?_)
  have onward (name : Option String)
      : Echo accord
          (do
            let function ← function rules
            return fun span => Expr.function span name function)
          (do
            let function ← function twin
            return fun span => Expr.function span name function) :=
    (function_echo echo).bind fun _ => .pure _
  exact .ite (fun _ => (Echoes.pure none).bind onward)
    fun _ => (Echoes.requireIdentifier.map some).bind onward

-----------------------------------------------------------------------------------------
-- Literals
-----------------------------------------------------------------------------------------

/-- A string has the same text in both runs, as long as its token is kept, so it has the same value. -/
theorem stringAt_echoes {mode : LexMode} {place : Nat} {token : Token}
    (read : script.Reads mode place token) (keeps : ¬lost → accord.kept token)
    : Echoes accord lost (stringAt token.span) (stringAt token.span) offset := by
  refine .bind_textAt read keeps ?_
  split
  next => exact .fault
  next =>
    split
    · exact .pure _
    · exact .reject_other nofun

/-- A number has the same text in both runs, as long as its token is kept, so it has the same value. -/
theorem numberAt_echoes {mode : LexMode} {place : Nat} {token : Token}
    (read : script.Reads mode place token) (keeps : ¬lost → accord.kept token)
    : Echoes accord lost (numberAt token.span) (numberAt token.span) offset := by
  refine .bind_textAt read keeps ?_
  split
  · exact .pure _
  · exact .reject_other nofun

/-- A name has the same text in both runs, as long as its token is kept. -/
theorem identifierExpression_echo : Echo accord identifierExpression identifierExpression :=
  .spanned_sound identifierExpression_sound (fun _ => rfl)
    (.bind_require rfl fun _ read _ => .bind_nameAt read not_not.mp (.pure _))

theorem thisExpression_echo : Echo accord thisExpression thisExpression :=
  .spanned_sound thisExpression_sound (fun _ => rfl) (.bind_discard_require rfl (.pure _))

theorem booleanLiteral_echo : Echo accord booleanLiteral booleanLiteral := by
  refine .spanned_sound booleanLiteral_sound (fun _ => rfl)
    (.bind_requireSome (fun kind holds => ?_) fun _ _ => .pure _)
  simp only [Bool.or_eq_true, decide_eq_true_eq] at holds
  rcases holds with rfl | rfl <;> rfl

theorem nullLiteral_echo : Echo accord nullLiteral nullLiteral :=
  .spanned_sound nullLiteral_sound (fun _ => rfl) (.bind_discard_require rfl (.pure _))

theorem numberLiteral_echo : Echo accord numberLiteral numberLiteral :=
  .spanned_sound numberLiteral_sound (fun _ => rfl)
    (.bind_require rfl fun _ read _ =>
      (numberAt_echoes read not_not.mp).bind fun _ => .pure _)

theorem regexLiteral_echo : Echo accord regexLiteral regexLiteral :=
  .spanned_sound regexLiteral_sound (fun _ => rfl)
    (.bind_require rfl fun _ read _ => .bind_textAt read not_not.mp (.pure _))

theorem stringLiteral_echo : Echo accord stringLiteral stringLiteral :=
  .spanned_sound stringLiteral_sound (fun _ => rfl)
    (.bind_require rfl fun _ read _ =>
      (stringAt_echoes read not_not.mp).bind fun _ => .pure _)

/-- Elements of an array echo, by induction on the bounds of both runs. -/
theorem arrayElements_echo (echo : Rules.Echo accord rules twin) (bound limit : Nat)
    : Echo accord (arrayElements rules bound) (arrayElements twin limit) := by
  refine .bounded rfl rfl (fun bound limit ih => ?_) bound limit
  exact .bind_accept rfl (ih.bind fun _ => .pure _)
    (.bind_peek fun _ _ => .ite (fun _ => .pure _) fun _ =>
      (echo.expression true _).bind fun _ =>
        .bind_peek fun _ _ => .ite (fun _ => .pure _) fun _ =>
          .bind_discard_require rfl (ih.bind fun _ => .pure _))

theorem arrayLiteral_echo (echo : Rules.Echo accord rules twin)
    : Echo accord (arrayLiteral rules) (arrayLiteral twin) :=
  .spanned_sound (arrayLiteral_sound echo.sound) (fun _ => rfl)
    (.bind_discard_require rfl
      (.bind_repetitions fun bound limit =>
        (arrayElements_echo echo bound limit).bind fun _ =>
          .bind_discard_require rfl (.pure _)))

/-- The key of a member is a name, a string or a number, each of which has a text. -/
theorem memberKey_echo : Echo accord memberKey memberKey := by
  refine .bind_consume (fun token read => ?_) fun token unwritten => ?_
  · exact .ite (fun _ => .nameAt read not_not.mp) fun _ =>
      .ite (fun _ => stringAt_echoes read not_not.mp) fun _ =>
        .ite (fun _ => (numberAt_echoes read not_not.mp).bind fun _ => .pure _) fun _ =>
          .ite (fun _ => .bind_textAt read not_not.mp (.pure _)) fun _ => .reject_unexpected _
  · exact .ite unwritten (fun same => same ▸ rfl)
      (.ite unwritten (fun same => same ▸ rfl)
        (.ite unwritten (fun same => same ▸ rfl)
          (.ite unwritten (fun word => Kind.isWritten_of_isWord word) (.unexpected token _))))

/-- Whoever reads a key in front of what is not kept leaves the common part. -/
theorem memberKey_leaves {token : Token} (read : script.Reads .standard offset token)
    (named : token.kind = .identifier) (past : accord.Past token.span.stop)
    : Leaves accord memberKey offset := by
  refine .bind_runs (.consume read) ?_
  rw [if_pos named]
  exact .of_past past trivial (.nameAt read nofun)

/-- An accessor is its word, which may be kept, and what is echoed wherever it starts. -/
theorem accessor_split (echo : Rules.Echo accord rules twin) (isGetter : Bool)
    : ∃ next twinNext,
        accessor rules isGetter = (discard Parser.consume >>= next)
        ∧ accessor twin isGetter = (discard Parser.consume >>= twinNext)
        ∧ Echo accord (next ⟨⟩) (twinNext ⟨⟩) := by
  refine ⟨_, _, rfl, rfl, ?_⟩
  refine memberKey_echo.bind fun _ => (function_echo echo).bind fun function => ?_
  have arity (expected : String)
      : Echo (α := Span → Member) accord (Parser.reject (arityError function expected))
          (Parser.reject (arityError function expected)) :=
    .reject_other fun _ => rfl
  intro lost offset
  split_ifs
  · exact .pure _
  · exact arity _
  · exact .pure _
  · exact arity _

/-- An accessor whose word is read and written echoes from there on. -/
theorem accessor_echoes (echo : Rules.Echo accord rules twin) (isGetter : Bool)
    {word : Token} (read : script.Reads .standard offset word) (written : word.kind.isWritten)
    : Echoes accord lost (accessor rules isGetter) (accessor twin isGetter) offset := by
  obtain ⟨next, twinNext, same, twinSame, echoes⟩ := accessor_split echo isGetter
  rw [same, twinSame]
  refine .bind_discard_consume (fun token readToken => ?_) fun _ _ => echoes
  obtain rfl := read.unique readToken
  exact written

/-- An accessor leaves the common part with the token behind its word. -/
theorem accessor_leaves (echo : Rules.Echo accord rules twin) (isGetter : Bool)
    {word : Token} (read : script.Reads .standard offset word) (past : accord.Past word.span.stop)
    : Leaves accord (accessor rules isGetter) offset := by
  obtain ⟨next, twinNext, same, _, echoes⟩ := accessor_split echo isGetter
  rw [same]
  exact .bind_runs (.discard (.consume read)) (.of_past past trivial echoes)

/-- A property is its key, which may be kept, and what is echoed wherever it starts. -/
theorem property_split (echo : Rules.Echo accord rules twin)
    : ∃ next twinNext,
        property rules = (memberKey >>= next)
        ∧ property twin = (memberKey >>= twinNext)
        ∧ ∀ key, Echo accord (next key) (twinNext key) :=
  ⟨_, _, rfl, rfl, fun _ =>
    .bind_discard_require rfl ((echo.expression true _).bind fun _ => .pure _)⟩

theorem property_echo (echo : Rules.Echo accord rules twin)
    : Echo accord (property rules) (property twin) := by
  obtain ⟨next, twinNext, same, twinSame, echoes⟩ := property_split echo
  rw [same, twinSame]
  exact memberKey_echo.bind echoes

/-- A property leaves the common part with the token behind its key. -/
theorem property_leaves (echo : Rules.Echo accord rules twin) {token : Token}
    (read : script.Reads .standard offset token) (named : token.kind = .identifier)
    (past : accord.Past token.span.stop)
    : Leaves accord (property rules) offset := by
  obtain ⟨next, twinNext, same, _, echoes⟩ := property_split echo
  rw [same]
  exact (memberKey_leaves read named past).bind echoes

/-- The token after a word decides whether it opens an accessor; if it is not kept, nothing is behind the word,
which is then a key or opens an accessor.
-/
theorem objectMember_echo (echo : Rules.Echo accord rules twin)
    : Echo accord (objectMember rules) (objectMember twin) := by
  intro lost offset
  refine .spanned_sound (objectMember_sound echo.sound) (fun _ => rfl) ?_
  unfold accessorWord?
  rw [bind_assoc, bind_assoc]
  refine .bind_peekMany_two (fun first second readFirst _ => ?_)
    (fun first second another other => ?_)
    fun first second readFirst readSecond named left => ?_
  · dsimp only
    split
    next opens =>
      simp only [Bool.and_eq_true, decide_eq_true_eq] at opens
      rw [bind_assoc, bind_assoc]
      refine .bind_textAt readFirst not_not.mp ?_
      rw [pure_bind, pure_bind]
      split
      next isGetter _ => exact accessor_echoes echo isGetter readFirst (opens.1 ▸ rfl)
      next => exact property_echo echo
    next => exact property_echo echo
  · simp [other]
  · have past := Accord.past_of_reads readSecond left
    dsimp only
    split
    next =>
      rw [bind_assoc]
      refine .bind_runs (.textAt readFirst) ?_
      rw [pure_bind]
      split
      next isGetter _ => exact accessor_leaves echo isGetter readFirst past
      next => exact property_leaves echo readFirst named past
    next => exact property_leaves echo readFirst named past

theorem objectLiteral_echo (echo : Rules.Echo accord rules twin)
    : Echo accord (objectLiteral rules) (objectLiteral twin) :=
  .spanned_sound (objectLiteral_sound echo.sound) (fun _ => rfl)
    (.bind_discard_require rfl
      (.bind (.looseList rfl (objectMember_echo echo)) fun _ => .pure _))

-----------------------------------------------------------------------------------------
-- Expressions without operators
-----------------------------------------------------------------------------------------

theorem parenthesized_echo (echo : Rules.Echo accord rules twin)
    : Echo accord (parenthesized rules) (parenthesized twin) :=
  .spanned_sound (parenthesized_sound echo.sound) (fun _ => rfl)
    (.bind_discard_require rfl
      ((echo.expression true 1).bind fun _ => .bind_discard_require rfl (.pure _)))

theorem callArguments_echo (echo : Rules.Echo accord rules twin)
    : Echo accord (callArguments rules) (callArguments twin) :=
  .spanned_sound (callArguments_sound echo.sound) (fun _ => rfl)
    (.bind_discard_require rfl
      (.bind (.list rfl (echo.expression true _)) fun _ => .pure _))

theorem memberAccess_echo (object : Expr)
    : Echo accord (memberAccess object) (memberAccess object) := by
  refine .bind_discard_require rfl
    (.bind_consume (fun token read => ?_) fun token unwritten => ?_)
  · exact .ite (fun _ => .bind_nameAt read not_not.mp (.pure _)) fun _ => .reject_unexpected _
  · refine .ite unwritten (fun holds => ?_) (.unexpected token _)
    simp only [Bool.or_eq_true, decide_eq_true_eq] at holds
    rcases holds with named | word
    · exact named ▸ rfl
    · exact Kind.isWritten_of_isWord word

theorem indexAccess_echo (echo : Rules.Echo accord rules twin) (object : Expr)
    : Echo accord (indexAccess rules object) (indexAccess twin object) :=
  .bind_discard_require rfl
    ((echo.expression true 1).bind fun _ => .bind_require rfl fun _ _ _ => .pure _)

/-- The accesses behind a constructor echo, by induction on the bounds of both runs. -/
theorem constructorAccess_echo (echo : Rules.Echo accord rules twin) (bound limit : Nat)
    (constructor : Expr)
    : Echo accord (constructorAccess rules bound constructor)
        (constructorAccess twin limit constructor) := by
  refine .bounded_at (fun _ => rfl) (fun _ => rfl) (fun bound limit ih constructor => ?_)
    bound limit constructor
  exact .bind_peek fun _ _ =>
    .ite (fun _ => (memberAccess_echo constructor).bind ih) fun _ =>
      .ite (fun _ => (indexAccess_echo echo constructor).bind ih) fun _ => .pure _

/-- A `new` echoes, with or without arguments, which the token behind the constructor decides. -/
theorem newExpression_echo (echo : Rules.Echo accord rules twin) (inAllowed : Bool)
    : Echo accord (newExpression rules inAllowed) (newExpression twin inAllowed) :=
  .bind_require rfl fun _ _ _ =>
    (echo.primary inAllowed).bind fun operand =>
      .bind_repetitions fun bound limit =>
        (constructorAccess_echo echo bound limit operand).bind fun _ =>
          .bind_peek fun _ _ =>
            .ite (fun _ => (callArguments_echo echo).bind fun _ => .pure _) fun _ => .pure _

/-- A regular expression that is not kept may begin with a slash that is. -/
theorem regexLiteral_leaves {token : Token} (read : script.Reads .regex offset token)
    (isRegex : token.kind = .literalRegex) (left : ¬accord.kept token)
    : Leaves accord regexLiteral offset := by
  refine .spanned (.bind_runs (.require read isRegex) ?_)
  have past : accord.Past token.span.stop := Accord.past_stop read (isRegex ▸ rfl) left
  exact .bind_runs (.textAt read) (.of_past past trivial (.pure _))

/-- Before the end of the text and what is no token no reserved word is rejected. -/
theorem bind_checkReserved_unwritten {α : Type} {token : Token} {next : PUnit → Parser α}
    (unwritten : token.kind = .endOfInput ∨ token.kind = .invalid)
    : (checkReserved token >>= next) = next ⟨⟩ := by
  have free (dialect : Dialect) : isReservedIn dialect token.kind = false := by
    rcases unwritten with ends | invalid
    · rw [ends]
      rfl
    · rw [invalid]
      rfl
  funext state
  unfold checkReserved
  rw [bind_assoc, bind_of_ok _ (rfl : (get : Parser ParserState) state = .ok state state), free]
  rfl

/-- What begins like an operand but is not kept leaves the common part. -/
theorem primary_leaves (rules : Rules) (inAllowed : Bool) {token : Token}
    (read : script.Reads .regex offset token) (left : ¬accord.kept token)
    (slash : token.kind = .literalRegex ∨ token.kind = .invalid)
    : Leaves accord (primary rules inAllowed) offset := by
  refine .bind_runs (.peek read) ?_
  rcases slash with isRegex | invalid
  · rw [isRegex]
    exact regexLiteral_leaves read isRegex left
  · rw [invalid]
    refine .bind_runs (.consume read) ?_
    rw [bind_checkReserved_unwritten (.inr invalid), Token.unexpected, invalid]
    exact .reject_token left

theorem primary_echo (echo : Rules.Echo accord rules twin) (inAllowed : Bool)
    : Echo accord (primary rules inAllowed) (primary twin inAllowed) := by
  intro lost offset
  refine .bind_peek_operand (fun token read => ?_) fun token read left slash =>
    primary_leaves rules inAllowed read left slash
  split
  · exact objectLiteral_echo echo
  · exact arrayLiteral_echo echo
  · exact identifierExpression_echo
  · exact functionExpression_echo echo
  · exact newExpression_echo echo inAllowed
  · exact thisExpression_echo
  · exact booleanLiteral_echo
  · exact booleanLiteral_echo
  · exact nullLiteral_echo
  · exact numberLiteral_echo
  · exact regexLiteral_echo
  · exact stringLiteral_echo
  · exact parenthesized_echo echo
  · refine .bind_consume (fun token _ => .bind_checkReserved id (.reject_unexpected _))
      fun token unwritten => ?_
    rw [bind_checkReserved_unwritten (Kind.eq_of_not_isWritten unwritten)]
    exact .unexpected token _

-----------------------------------------------------------------------------------------
-- Operators
-----------------------------------------------------------------------------------------

theorem requireTarget_echo (target : Expr)
    : Echo accord (requireTarget target) (requireTarget target) :=
  .ite (fun _ => .pure _) fun _ => .reject_other fun _ => rfl

/-- An operand echoes, whether an operator stands in front of it or not. -/
theorem operand_echo (echo : Rules.Echo accord rules twin) (inAllowed : Bool)
    : Echo accord (operand rules inAllowed) (operand twin inAllowed) := by
  intro lost offset
  refine .bind_peek_operand (fun token read => ?_) fun token read left slash => ?_
  · split
    next => exact primary_echo echo inAllowed
    next operator opens =>
      refine .bind_discard_consume (fun again readAgain => ?_) fun _ _ => ?_
      · obtain rfl := read.unique readAgain
        exact Kind.isWritten_of_isPlain (Kind.isPlain_of_prefixOperator? opens)
      · exact (echo.expression inAllowed _).bind fun argument =>
          .ite (fun _ => (requireTarget_echo argument).bind fun _ => .pure _) fun _ => .pure _
  · refine .bind_runs (.peek read) ?_
    have noOperator : token.kind.prefixOperator? = none := by
      rcases slash with isRegex | invalid
      · rw [isRegex]
        rfl
      · rw [invalid]
        rfl
    rw [noOperator]
    exact primary_leaves rules inAllowed read left slash

/-- The token was consumed if the operator begins neither arguments nor an access. -/
theorem continuation_echoes (echo : Rules.Echo accord rules twin) (inAllowed : Bool)
    (operator : Operator) (left : Expr) {token : Token} (read : script.Reads .standard offset token)
    (written : token.kind.isWritten)
    : Echoes.After accord token (continuation rules inAllowed operator left)
        (continuation twin inAllowed operator left) offset := by
  unfold continuation
  split
  · exact .back read ((callArguments_echo echo).bind fun _ => .pure _)
  · exact .back read (indexAccess_echo echo left)
  · exact .back read (memberAccess_echo left)
  · exact .keep read written
      ((echo.expression true _).bind fun _ =>
        .bind_discard_require rfl ((echo.expression inAllowed _).bind fun _ => .pure _))
  · have right
        : Echo accord
            (do
              let right ← rules.expression inAllowed operator.rightPrecedence
              return Expr.binary (left.span.cover right.span) operator left right)
            (do
              let right ← twin.expression inAllowed operator.rightPrecedence
              return Expr.binary (left.span.cover right.span) operator left right) :=
      (echo.expression inAllowed _).bind fun _ => .pure _
    exact .keep read written
      (.ite (fun _ => (requireTarget_echo left).bind fun _ => right) fun _ => right)

/-- The operators behind an operand echo, by induction on the bounds of both runs. -/
theorem operators_echo (echo : Rules.Echo accord rules twin) (inAllowed : Bool) (least : Nat)
    (bound limit : Nat) (left : Expr)
    : Echo accord (operators rules inAllowed least bound left)
        (operators twin inAllowed least limit left) := by
  refine .bounded_at (fun _ => rfl) (fun _ => rfl) (fun bound limit ih left => ?_) bound limit left
  intro lost offset
  refine .bind_checkpoint_consume fun token read => ?_
  cases updates : updateOperator? token with
  | some operator =>
      have written := Kind.isWritten_of_isPlain (Kind.isPlain_of_updateOperator? updates)
      dsimp only
      by_cases loose : operator.precedence < least
      · simp only [if_pos loose]
        exact .back read (.pure left)
      · simp only [if_neg loose]
        exact .keep read written ((requireTarget_echo left).bind fun _ => ih _)
  | none =>
      dsimp only
      cases opens : token.kind.infixOperator? with
      | none => exact .back read (.pure left)
      | some operator =>
          have written := Kind.isWritten_of_isPlain (Kind.isPlain_of_infixOperator? opens)
          dsimp only
          by_cases stops : (decide (operator.precedence < least)
              || decide (operator = .isIn) && !inAllowed) = true
          · simp only [if_pos stops]
            exact .back read (.pure left)
          · simp only [if_neg stops]
            exact (continuation_echoes echo inAllowed operator left read written).bind ih

theorem operatorsBehind_echo (echo : Rules.Echo accord rules twin) (inAllowed : Bool)
    (least : Nat) (left : Expr)
    : Echo accord (repetitions >>= fun bound => operators rules inAllowed least bound left)
        (repetitions >>= fun bound => operators twin inAllowed least bound left) :=
  .bind_repetitions fun bound limit => operators_echo echo inAllowed least bound limit left

/-- An expression of the least precedence is an operand and the operators behind it. -/
theorem expressionFrom_echo (echo : Rules.Echo accord rules twin) (inAllowed : Bool) (least : Nat)
    : Echo accord (expressionFrom rules inAllowed least) (expressionFrom twin inAllowed least) :=
  (operand_echo echo inAllowed).bind (operatorsBehind_echo echo inAllowed least)

/-- An expression that is an identifier in front of what is not kept leaves the common part. -/
theorem expressionFrom_leaves (echo : Rules.Echo accord rules twin) (inAllowed : Bool) (least : Nat)
    {token : Token} (read : script.Reads .standard offset token)
    (named : token.kind = .identifier) (past : accord.Past token.span.stop)
    : Leaves accord (expressionFrom rules inAllowed least) offset := by
  have readOperand := read.toRegex (named ▸ rfl)
  refine .bind (.bind_runs (.peek readOperand) ?_) (operatorsBehind_echo echo inAllowed least)
  rw [named]
  refine .bind_runs (.peek readOperand) ?_
  rw [named]
  refine .spanned (.bind_runs (.require read named) ?_)
  exact .bind_runs (.nameAt read) (.of_past past trivial (.pure _))

end Grammar

end EcmaSyntax
