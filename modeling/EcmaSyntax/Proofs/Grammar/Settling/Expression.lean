import EcmaSyntax.Proofs.Grammar.Settling.Repetition
import EcmaSyntax.Proofs.Grammar.Soundness.Expression

/-! The productions of functions and expressions settle the text, given that the rules of the level below do
so wherever less of the text is left.
-/

namespace EcmaSyntax

open EcmaSyntax.Parser EcmaSyntax.Grammar

/-- The rules settle the text wherever less than the size is left of it. -/
structure Rules.Settles (script : Script) (size : Nat) (rules twin : Rules) : Prop where
  sound : rules.Sound script
  expression {offset : Nat} (inAllowed : Bool) (least : Nat) (within : script.left offset < size)
    : Parser.Settles script (rules.expression inAllowed least) (twin.expression inAllowed least) offset
  primary {offset : Nat} (inAllowed : Bool) (within : script.left offset < size)
    : Parser.Settles script (rules.primary inAllowed) (twin.primary inAllowed) offset
  statement {offset : Nat} (inAllowed : Bool) (within : script.left offset < size)
    : Parser.Settles script (rules.statement inAllowed) (twin.statement inAllowed) offset

namespace Grammar

variable {script : Script} {size offset : Nat} {rules twin : Rules}

-----------------------------------------------------------------------------------------
-- Functions
-----------------------------------------------------------------------------------------

theorem parameter_settles : Settles script parameter parameter offset :=
  .spanned_sound parameter_sound (fun _ => rfl)
    (Settles.requireIdentifier.bind_last fun _ _ => .pure _)

/-- The body of a function settles what is left, statement by statement. -/
theorem functionBody_settles (settles : Rules.Settles script size rules twin)
    (fits : script.left offset ≤ size)
    : Settles script (functionBody rules) (functionBody twin) offset := by
  refine .spanned_sound (functionBody_sound settles.sound) (fun _ => rfl) ?_
  refine .bind_discard_require (by decide) fun brace read opens shorter => ?_
  have statements := Settles.repeatUntil (settles.sound.statement true) (fun _ => rfl) .braceClose
    fun place (within : script.left place ≤ script.left brace.span.stop) =>
      settles.statement true (by omega)
  exact statements.bind_last fun _ _ => .bind_discard_require (by decide) fun _ _ _ _ => .pure _

/-- A function settles what is left: its parameters first, then less text in its body. -/
theorem function_settles (settles : Rules.Settles script size rules twin)
    (fits : script.left offset ≤ size)
    : Settles script (function rules) (function twin) offset := by
  refine .spanned_sound (function_sound settles.sound) (fun _ => rfl) ?_
  unfold functionParameters
  rw [bind_assoc, bind_assoc]
  refine .bind_discard_require (by decide) fun parenthesis read opens shorter => ?_
  refine (Settles.list parameter_sound fun _ _ => parameter_settles).bind
    (parameter_sound.list (by decide) _) fun parameters tokens derivation => ?_
  have further := derivation.left_le
  exact (functionBody_settles settles (by omega)).bind_last fun _ _ => .pure _

theorem functionExpression_settles (settles : Rules.Settles script size rules twin)
    (fits : script.left offset ≤ size)
    : Settles script (functionExpression rules) (functionExpression twin) offset := by
  refine .spanned_sound (functionExpression_sound settles.sound) (fun _ => rfl) ?_
  refine .bind_discard_require (by decide) fun keyword read opens shorter => ?_
  refine .bind_peek fun next met => .ite (fun anonymous => ?_) fun named => ?_
  · rw [pure_bind, pure_bind]
    exact (function_settles settles (by omega)).bind_last fun _ _ => .pure _
  · rw [bind_map_left, bind_map_left]
    refine .bind_requireIdentifier fun token readToken named further => ?_
    exact (function_settles settles (by omega)).bind_last fun _ _ => .pure _

-----------------------------------------------------------------------------------------
-- Literals
-----------------------------------------------------------------------------------------

/-- The escapes of a string literal have a meaning or are blamed. -/
theorem stringAt_settles {mode : LexMode} {place : Nat} {token : Token}
    (read : script.Reads mode place token) (isString : token.kind = .literalString)
    : Settles script (stringAt token.span) (stringAt token.span) offset := by
  obtain ⟨body, unquoted, blamed⟩ := read.exists_body isString
  refine .bind_textAt read ?_
  rw [unquoted]
  dsimp only
  cases decoded : Text.decodeString body with
  | ok value => exact .pure value
  | error place => exact .reject (blamed place decoded)

/-- A number token has a value, so it never fails. -/
theorem bind_numberAt_settles {α : Type} {mode : LexMode} {place : Nat} {token : Token}
    {next twinNext : Number → Parser α} (read : script.Reads mode place token)
    (isNumber : token.kind = .literalNumber)
    (onward : ∀ value, Settles script (next value) (twinNext value) offset)
    : Settles script (numberAt token.span >>= next) (numberAt token.span >>= twinNext) offset := by
  obtain ⟨magnitude, denotes⟩ := read.exists_number isNumber
  unfold numberAt
  rw [bind_assoc, bind_assoc]
  refine .bind_textAt read ?_
  rw [show Number.ofLiteral? (script.textOf token.span) = some (.signed false magnitude) from denotes]
  exact onward _

theorem identifierExpression_settles
    : Settles script identifierExpression identifierExpression offset :=
  .spanned_sound identifierExpression_sound (fun _ => rfl)
    (.bind_require (by decide) fun _ read _ _ => .bind_nameAt read (.pure _))

theorem thisExpression_settles : Settles script thisExpression thisExpression offset :=
  .spanned_sound thisExpression_sound (fun _ => rfl)
    (.bind_discard_require (by decide) fun _ _ _ _ => .pure _)

theorem booleanLiteral_settles : Settles script booleanLiteral booleanLiteral offset :=
  .spanned_sound booleanLiteral_sound (fun _ => rfl) (.bind_requireSome fun _ _ _ => .pure _)

theorem nullLiteral_settles : Settles script nullLiteral nullLiteral offset :=
  .spanned_sound nullLiteral_sound (fun _ => rfl)
    (.bind_discard_require (by decide) fun _ _ _ _ => .pure _)

theorem numberLiteral_settles : Settles script numberLiteral numberLiteral offset :=
  .spanned_sound numberLiteral_sound (fun _ => rfl)
    (.bind_require (by decide) fun _ read isNumber _ =>
      bind_numberAt_settles read isNumber fun _ => .pure _)

theorem regexLiteral_settles : Settles script regexLiteral regexLiteral offset :=
  .spanned_sound regexLiteral_sound (fun _ => rfl)
    (.bind_require (by decide) fun _ read _ _ => .bind_textAt read (.pure _))

theorem stringLiteral_settles : Settles script stringLiteral stringLiteral offset :=
  .spanned_sound stringLiteral_sound (fun _ => rfl)
    (.bind_require (by decide) fun _ read isString _ =>
      (stringAt_settles read isString).bind_last fun _ _ => .pure _)

/-- Elements of an array settle what is left, by induction on the bounds, each of which is above it. -/
theorem arrayElements_settles (settles : Rules.Settles script size rules twin) {bound limit : Nat}
    (within : script.left offset < size) (enough : script.left offset < bound)
    (room : script.left offset < limit)
    : Settles script (arrayElements rules bound) (arrayElements twin limit) offset := by
  induction bound generalizing offset limit with
  | zero => exact absurd enough (Nat.not_lt_zero _)
  | succ bound ih =>
      obtain ⟨limit, rfl⟩ := Nat.exists_eq_add_one_of_ne_zero (Nat.ne_zero_of_lt room)
      refine .bind_accept (fun comma read separates => ?_) (fun first read noComma => ?_)
      · have shorter := read.left_lt (separates ▸ by decide)
        exact (ih (by omega) (by omega) (by omega)).bind_last fun _ _ => .pure _
      · refine .bind_peek fun next met => .ite (fun _ => .pure []) fun _ => ?_
        refine (settles.expression true _ within).bind (settles.sound.expression true _ _)
          fun value tokens derivation => ?_
        have shorter := derivation.left_lt rfl
        refine .bind_peek fun next met => .ite (fun _ => .pure _) fun _ => ?_
        refine .bind_discard_require (by decide) fun comma read separates further => ?_
        exact (ih (by omega) (by omega) (by omega)).bind_last fun _ _ => .pure _

theorem arrayLiteral_settles (settles : Rules.Settles script size rules twin)
    (fits : script.left offset ≤ size)
    : Settles script (arrayLiteral rules) (arrayLiteral twin) offset := by
  refine .spanned_sound (arrayLiteral_sound settles.sound) (fun _ => rfl) ?_
  refine .bind_discard_require (by decide) fun bracket read opens shorter => ?_
  refine .bind_repetitions fun bound enough limit room => ?_
  have left_le := script.left_le bracket.span.stop
  exact (arrayElements_settles settles (by omega) (by omega) (by omega)).bind_last
    fun _ _ => .bind_discard_require (by decide) fun _ _ _ _ => .pure _

/-- The key of a member is read, or the token that is none is blamed. -/
theorem memberKey_settles : Settles script memberKey memberKey offset := by
  refine .bind_consume fun token met => .ite (fun _ => .nameAt met.read) fun _ => ?_
  refine .ite (fun isString => stringAt_settles met.read isString) fun _ => ?_
  refine .ite (fun isNumber => bind_numberAt_settles met.read isNumber fun _ => .pure _) fun _ => ?_
  exact .ite (fun _ => .bind_textAt met.read (.pure _)) fun _ => .reject_unexpected _ met

theorem bind_memberKey_settles {α : Type} {next twinNext : String → Parser α}
    (onward
      : ∀ key token,
          script.Reads .standard offset token →
          Settles script (next key) (twinNext key) token.span.stop)
    : Settles script (memberKey >>= next) (memberKey >>= twinNext) offset := by
  have keys
      : Ensures script memberKey offset fun _ tokens =>
          ∃ token, tokens = [token] ∧ script.Reads .standard offset token := by
    rw [← bind_pure memberKey]
    exact bind_memberKey fun token _ read _ => .pure ⟨token, rfl, read⟩
  refine memberKey_settles.bind keys ?_
  rintro key _ ⟨token, rfl, read⟩
  exact onward key token read

/-- An accessor with too many or too few parameters is blamed. -/
theorem accessor_settles (settles : Rules.Settles script size rules twin)
    (fits : script.left offset ≤ size) (isGetter : Bool)
    : Settles script (accessor rules isGetter) (accessor twin isGetter) offset := by
  refine .bind_discard_consume fun word met => bind_memberKey_settles fun key token read => ?_
  have shorter := met.read.left_le
  have further := read.left_le
  refine (function_settles settles (by omega)).bind (function_sound settles.sound _)
    fun function tokens derivation => ?_
  have blamed (expected : String) : script.Blames (arityError function expected) :=
    .phrase derivation.spans rfl nofun
  exact .ite (fun _ => .ite (fun _ => .pure _) fun _ => .reject (blamed _))
    fun _ => .ite (fun _ => .pure _) fun _ => .reject (blamed _)

theorem property_settles (settles : Rules.Settles script size rules twin)
    (fits : script.left offset ≤ size)
    : Settles script (property rules) (property twin) offset := by
  refine bind_memberKey_settles fun key token read => ?_
  have shorter := read.left_le
  refine .bind_discard_require (by decide) fun colon readColon divides further => ?_
  exact (settles.expression true _ (by omega)).bind_last fun _ _ => .pure _

/-- The word of an accessor is looked at and gone back over. -/
theorem accessorWord?_settles : Settles script accessorWord? accessorWord? offset := by
  refine .bind_peekMany_two fun first second read _ => ?_
  exact .ite (fun _ => .bind_textAt read (.pure _)) fun _ => .pure none

/-- A member settles what is left, whether it is an accessor or a property. -/
theorem objectMember_settles (settles : Rules.Settles script size rules twin)
    (fits : script.left offset ≤ size)
    : Settles script (objectMember rules) (objectMember twin) offset := by
  refine .spanned_sound (objectMember_sound settles.sound) (fun _ => rfl) ?_
  refine accessorWord?_settles.bind (accessorWord?_ensures offset) ?_
  rintro answer _ ⟨rfl, _⟩
  cases answer with
  | none => exact property_settles settles fits
  | some isGetter => exact accessor_settles settles fits isGetter

theorem objectLiteral_settles (settles : Rules.Settles script size rules twin)
    (fits : script.left offset ≤ size)
    : Settles script (objectLiteral rules) (objectLiteral twin) offset := by
  refine .spanned_sound (objectLiteral_sound settles.sound) (fun _ => rfl) ?_
  refine .bind_discard_require (by decide) fun brace read opens shorter => ?_
  refine (Settles.looseList (objectMember_sound settles.sound) fun place within => ?_).bind_last
    fun _ _ => .pure _
  exact objectMember_settles settles (by omega)

-----------------------------------------------------------------------------------------
-- Expressions without operators
-----------------------------------------------------------------------------------------

theorem parenthesized_settles (settles : Rules.Settles script size rules twin)
    (fits : script.left offset ≤ size)
    : Settles script (parenthesized rules) (parenthesized twin) offset := by
  refine .spanned_sound (parenthesized_sound settles.sound) (fun _ => rfl) ?_
  refine .bind_discard_require (by decide) fun parenthesis read opens shorter => ?_
  exact (settles.expression true 1 (by omega)).bind_last
    fun _ _ => .bind_discard_require (by decide) fun _ _ _ _ => .pure _

theorem callArguments_settles (settles : Rules.Settles script size rules twin)
    (fits : script.left offset ≤ size)
    : Settles script (callArguments rules) (callArguments twin) offset := by
  refine .spanned_sound (callArguments_sound settles.sound) (fun _ => rfl) ?_
  refine .bind_discard_require (by decide) fun parenthesis read opens shorter => ?_
  refine (Settles.list (settles.sound.expression true _) fun place within => ?_).bind_last
    fun _ _ => .pure _
  exact settles.expression true _ (by omega)

/-- Behind a point there is a name, or the token that is none is blamed. -/
theorem memberAccess_settles (object : Expr)
    : Settles script (memberAccess object) (memberAccess object) offset := by
  refine .bind_discard_require (by decide) fun _ _ _ _ => .bind_consume fun token met => ?_
  exact .ite (fun _ => .bind_nameAt met.read (.pure _)) fun _ => .reject_unexpected _ met

theorem indexAccess_settles (settles : Rules.Settles script size rules twin)
    (fits : script.left offset ≤ size) (object : Expr)
    : Settles script (indexAccess rules object) (indexAccess twin object) offset := by
  refine .bind_discard_require (by decide) fun bracket read opens shorter => ?_
  exact (settles.expression true 1 (by omega)).bind_last
    fun _ _ => .bind_require (by decide) fun _ _ _ _ => .pure _

/-- The accesses behind a constructor settle what is left, by induction on the bounds. -/
theorem constructorAccess_settles (settles : Rules.Settles script size rules twin)
    {bound limit : Nat} (constructor : Expr) (fits : script.left offset ≤ size)
    (enough : script.left offset < bound) (room : script.left offset < limit)
    : Settles script (constructorAccess rules bound constructor)
        (constructorAccess twin limit constructor) offset := by
  induction bound generalizing offset limit constructor with
  | zero => exact absurd enough (Nat.not_lt_zero _)
  | succ bound ih =>
      obtain ⟨limit, rfl⟩ := Nat.exists_eq_add_one_of_ne_zero (Nat.ne_zero_of_lt room)
      refine .bind_peek fun next met => .ite (fun _ => ?_) fun _ => .ite (fun _ => ?_) fun _ => .pure _
      · refine (memberAccess_settles constructor).bind (memberAccess_sound constructor _)
          fun between tokens derivation => ?_
        have shorter := derivation.left_lt rfl
        exact ih between (by omega) (by omega) (by omega)
      · refine (indexAccess_settles settles fits constructor).bind
          (indexAccess_sound settles.sound constructor _) fun between tokens derivation => ?_
        have shorter := derivation.left_lt rfl
        exact ih between (by omega) (by omega) (by omega)

/-- A `new` settles what is left: its constructor is behind the keyword, and so has less text. -/
theorem newExpression_settles (settles : Rules.Settles script size rules twin)
    (fits : script.left offset ≤ size) (inAllowed : Bool)
    : Settles script (newExpression rules inAllowed) (newExpression twin inAllowed) offset := by
  refine .bind_require (by decide) fun keyword read opens shorter => ?_
  refine (settles.primary inAllowed (by omega)).bind (settles.sound.primary inAllowed _)
    fun head front derivation => ?_
  have further := derivation.left_le
  refine .bind_repetitions fun bound enough limit room => ?_
  have left_le := script.left_le (Token.endOf keyword.span.stop front)
  refine (constructorAccess_settles settles head (by omega) (by omega) (by omega)).bind
    (constructorAccess_sound settles.sound bound head _) fun constructor middle accesses => ?_
  have furthest := accesses.left_le
  refine .bind_peek fun next met => .ite (fun _ => ?_) fun _ => .pure _
  exact (callArguments_settles settles (by omega)).bind_last fun _ _ => .pure _

/-- A primary expression settles what is left, by cases on its first token, which is blamed if it is
none.
-/
theorem primary_settles (settles : Rules.Settles script size rules twin)
    (fits : script.left offset ≤ size) (inAllowed : Bool)
    : Settles script (primary rules inAllowed) (primary twin inAllowed) offset := by
  refine .bind_peek fun token met => ?_
  split
  · exact objectLiteral_settles settles fits
  · exact arrayLiteral_settles settles fits
  · exact identifierExpression_settles
  · exact functionExpression_settles settles fits
  · exact newExpression_settles settles fits inAllowed
  · exact thisExpression_settles
  · exact booleanLiteral_settles
  · exact booleanLiteral_settles
  · exact nullLiteral_settles
  · exact numberLiteral_settles
  · exact regexLiteral_settles
  · exact stringLiteral_settles
  · exact parenthesized_settles settles fits
  · exact .bind_consume fun token met => .bind_checkReserved met fun _ => .reject_unexpected _ met

-----------------------------------------------------------------------------------------
-- Operators
-----------------------------------------------------------------------------------------

/-- What cannot be assigned to is blamed. -/
theorem bind_requireTarget_settles {α : Type} {target : Expr} {place : Nat} {tokens : List Token}
    {next twinNext : PUnit → Parser α} (spans : script.Spans place tokens target.span)
    (onward : Settles script (next ⟨⟩) (twinNext ⟨⟩) offset)
    : Settles script (requireTarget target >>= next) (requireTarget target >>= twinNext) offset := by
  unfold requireTarget
  split
  next => exact onward
  next =>
    have present : Cause.invalidAssignmentTarget ≠ .unexpectedEnd := nofun
    have blames : script.Blames _ := .phrase spans rfl present
    exact (Settles.reject blames).bind .reject fun _ _ (impossible : False) => impossible.elim

/-- An operand settles what is left; behind an operator in front of it there is less text. -/
theorem operand_settles (settles : Rules.Settles script size rules twin)
    (fits : script.left offset ≤ size) (inAllowed : Bool)
    : Settles script (operand rules inAllowed) (operand twin inAllowed) offset := by
  refine .bind_peek fun token met => ?_
  split
  next => exact primary_settles settles fits inAllowed
  next operator opens =>
    refine .bind_discard_consume fun again metAgain => ?_
    obtain rfl := met.read.unique metAgain.read
    have shorter := met.read.left_lt (by rintro ends; rw [ends] at opens; cases opens)
    refine (settles.expression inAllowed _ (by omega)).bind (settles.sound.expression inAllowed _ _)
      fun argument tokens derivation => ?_
    exact .ite (fun _ => bind_requireTarget_settles derivation.spans (.pure _)) fun _ => .pure _

/-- The token was consumed if the operator begins neither arguments nor an access. -/
theorem continuation_settles (settles : Rules.Settles script size rules twin)
    (fits : script.left offset ≤ size) (inAllowed : Bool) (operator : Operator) {left : Expr}
    {token : Token} {place : Nat} {front : List Token} (spans : script.Spans place front left.span)
    (shorter : script.left token.span.stop < script.left offset)
    : Settles.After script token (continuation rules inAllowed operator left)
        (continuation twin inAllowed operator left) offset := by
  unfold continuation
  split
  · exact .back ((callArguments_settles settles fits).bind_last fun _ _ => .pure _)
  · exact .back (indexAccess_settles settles fits left)
  · exact .back (memberAccess_settles left)
  · refine .keep ((settles.expression true _ (by omega)).bind (settles.sound.expression true _ _)
      fun consequent tokens derivation => ?_)
    have further := derivation.left_le
    refine .bind_discard_require (by decide) fun colon _ _ furthest => ?_
    exact (settles.expression inAllowed _ (by omega)).bind_last fun _ _ => .pure _
  · have right
        : Settles script
            (do
              let right ← rules.expression inAllowed operator.rightPrecedence
              return Expr.binary (left.span.cover right.span) operator left right)
            (do
              let right ← twin.expression inAllowed operator.rightPrecedence
              return Expr.binary (left.span.cover right.span) operator left right)
            token.span.stop :=
      (settles.expression inAllowed _ (by omega)).bind_last fun _ _ => .pure _
    exact .keep (.ite (fun _ => bind_requireTarget_settles spans right) fun _ => right)

/-- The operators behind an operand settle what is left, by induction on the bounds. -/
theorem operators_settles (settles : Rules.Settles script size rules twin) (inAllowed : Bool)
    (least : Nat) {bound limit place : Nat} {left : Expr} {front : List Token}
    (spans : script.Spans place front left.span) (ends : Token.endOf place front = offset)
    (fits : script.left offset ≤ size) (enough : script.left offset < bound)
    (room : script.left offset < limit)
    : Settles script (operators rules inAllowed least bound left)
        (operators twin inAllowed least limit left) offset := by
  induction bound generalizing offset limit left front with
  | zero => exact absurd enough (Nat.not_lt_zero _)
  | succ bound ih =>
      obtain ⟨limit, rfl⟩ := Nat.exists_eq_add_one_of_ne_zero (Nat.ne_zero_of_lt room)
      refine .bind_checkpoint_consume fun token read => ?_
      cases updates : updateOperator? token with
      | some operator =>
          have plain := Kind.isPlain_of_updateOperator? updates
          have shorter := read.left_lt (by rintro ended; rw [ended] at plain; cases plain)
          dsimp only
          by_cases loose : operator.precedence < least
          · simp only [if_pos loose]
            exact .back (.pure left)
          · simp only [if_neg loose]
            refine .keep (bind_requireTarget_settles spans ?_)
            subst ends
            exact ih (spans.cover_append (.of_token (read.consumes plain))) (by simp) (by omega)
              (by omega) (by omega)
      | none =>
          dsimp only
          cases opens : token.kind.infixOperator? with
          | none => exact .back (.pure left)
          | some operator =>
              have plain := Kind.isPlain_of_infixOperator? opens
              have shorter := read.left_lt (by rintro ended; rw [ended] at plain; cases plain)
              dsimp only
              by_cases stops : (decide (operator.precedence < least)
                  || decide (operator = .isIn) && !inAllowed) = true
              · simp only [if_pos stops]
                exact .back (.pure left)
              · simp only [if_neg stops]
                refine (continuation_settles settles fits inAllowed operator spans shorter).bind
                  (continuation_sound settles.sound inAllowed left read opens)
                  fun between tokens derivation => ?_
                have further := derivation.left_lt rfl
                exact ih (derivation.spans _ _ spans ends) (by rw [Token.endOf_append, ends])
                  (by omega) (by omega) (by omega)

/-- An expression settles what is left, as an operand and the operators behind it. -/
theorem expressionFrom_settles (settles : Rules.Settles script size rules twin)
    (fits : script.left offset ≤ size) (inAllowed : Bool) (least : Nat)
    : Settles script (expressionFrom rules inAllowed least) (expressionFrom twin inAllowed least)
        offset := by
  refine (operand_settles settles fits inAllowed).bind (operand_sound settles.sound inAllowed _)
    fun left tokens derivation => ?_
  have shorter := derivation.left_le
  refine .bind_repetitions fun bound enough limit room => ?_
  have left_le := script.left_le (Token.endOf offset tokens)
  exact operators_settles settles inAllowed least derivation.spans rfl (by omega) (by omega) (by omega)

end Grammar

end EcmaSyntax
