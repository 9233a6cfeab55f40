import EcmaSyntax.Grammar.Expression
import EcmaSyntax.Proofs.Grammar.Soundness.Repetition

/-! What the parsers of functions and expressions accept parses as the grammar has it, given that the
same is true of the rules of the level below.
-/

namespace EcmaSyntax

open EcmaSyntax.Parser EcmaSyntax.Grammar

/-- What the rules accept parses as the grammar has it. -/
structure Rules.Sound (script : Script) (rules : Rules) : Prop where
  expression (inAllowed : Bool) (least : Nat)
    : (rules.expression inAllowed least).Sound script (.expression inAllowed least)
  primary (inAllowed : Bool) : (rules.primary inAllowed).Sound script .primary
  statement (inAllowed : Bool) : (rules.statement inAllowed).Sound script (.statement inAllowed)

namespace Grammar

variable {script : Script} {rules : Rules}

-----------------------------------------------------------------------------------------
-- Functions
-----------------------------------------------------------------------------------------

theorem parameter_sound : parameter.Sound script .parameter := by
  intro offset
  refine .spanned (.bind_requireIdentifier fun token read named => .pure ⟨by simp, ?_⟩)
  exact .intro (.expression (.parameter named)) (.token read .nil) rfl

/-- What is read as the body of a function parses as one, statements and braces. -/
theorem functionBody_sound (sound : rules.Sound script)
    : (functionBody rules).Sound script .body := by
  intro offset
  refine .spanned (.bind_discard_require fun brace read opens => ?_)
  refine ((sound.statement true).repeatUntil .braceClose _).bind fun statements tokens derivation => ?_
  refine .bind_discard_require fun close readClose closes => .pure ⟨by simp, ?_⟩
  exact .intro (.expression (.body opens closes))
    (.token read (.part derivation (.token readClose .nil))) rfl

/-- What is read as a function parses as one: parameters in parentheses, and a body. -/
theorem function_sound (sound : rules.Sound script)
    : (function rules).Sound script .function := by
  intro offset
  refine .spanned ?_
  unfold functionParameters
  rw [bind_assoc]
  refine .bind_discard_require fun parenthesis read opens => ?_
  refine (parameter_sound.list (by decide) _).bind fun parameters front names => ?_
  refine (functionBody_sound sound _).bind fun body back derivation => .pure ⟨by simp, ?_⟩
  exact .intro (.expression (.function opens))
    (.token read (.part names (.part derivation .nil))) rfl

/-- A function expression has a name exactly if a name stands behind the keyword. -/
theorem functionExpression_sound (sound : rules.Sound script)
    : (functionExpression rules).Sound script .primary := by
  intro offset
  refine .spanned (.bind_discard_require fun keyword read opens => ?_)
  refine .bind_peek fun next readNext => ?_
  split
  next anonymous =>
    rw [pure_bind]
    refine (function_sound sound _).bind fun function tokens derivation => .pure ⟨by simp, ?_⟩
    exact .intro (.expression (.functionAnonymous opens anonymous))
      (.token read (.ahead ⟨readNext, trivial⟩ (.part derivation .nil))) rfl
  next =>
    rw [bind_map_left]
    refine .bind_requireIdentifier fun token readToken named => ?_
    refine (function_sound sound _).bind fun function tokens derivation => .pure ⟨by simp, ?_⟩
    exact .intro (.expression (.functionNamed opens named))
      (.token read (.token readToken (.part derivation .nil))) rfl

-----------------------------------------------------------------------------------------
-- Literals
-----------------------------------------------------------------------------------------

/-- A string that has a value denotes it. -/
theorem bind_stringAt {α : Type} {token : Token} {next : String → Parser α} {offset : Nat}
    {relation : α → List Token → Prop}
    (onward
      : ∀ value,
          script.stringOf? token = some value →
          Ensures script (next value) offset relation)
    : Ensures script (stringAt token.span >>= next) offset relation := by
  unfold stringAt
  rw [bind_assoc]
  refine .bind_textAt ?_
  unfold Script.stringOf? at onward
  split
  next => exact .bind_fault
  next body unquoted =>
    rw [unquoted] at onward
    split
    next value decoded => exact onward value (by simp [decoded, Except.toOption])
    next => exact .bind_reject

/-- A number that has a value denotes it. -/
theorem bind_numberAt {α : Type} {token : Token} {next : Number → Parser α} {offset : Nat}
    {relation : α → List Token → Prop}
    (onward
      : ∀ value,
          script.numberOf? token = some value →
          Ensures script (next value) offset relation)
    : Ensures script (numberAt token.span >>= next) offset relation := by
  unfold numberAt
  rw [bind_assoc]
  refine .bind_textAt ?_
  split
  next value denotes => exact onward value denotes
  next => exact .bind_reject

theorem identifierExpression_sound : identifierExpression.Sound script .primary := by
  intro offset
  refine .spanned (.bind_require fun token read named => .bind_nameAt (.pure ⟨by simp, ?_⟩))
  exact .intro (.expression (.identifier named)) (.token read .nil) rfl

theorem thisExpression_sound : thisExpression.Sound script .primary := by
  intro offset
  refine .spanned (.bind_discard_require fun token read opens => .pure ⟨by simp, ?_⟩)
  exact .intro (.expression (.this opens)) (.token read .nil) rfl

theorem booleanLiteral_sound : booleanLiteral.Sound script .primary := by
  intro offset
  refine .spanned (.bind_requireSome fun token read opens => .pure ⟨by simp, ?_⟩)
  have opens : token.kind = .literalTrue ∨ token.kind = .literalFalse := by
    rcases Bool.or_eq_true_iff.mp opens with isTrue | isFalse
    · exact .inl (by simpa using isTrue)
    · exact .inr (by simpa using isFalse)
  exact .intro (.expression (.boolean opens)) (.token read .nil) rfl

theorem nullLiteral_sound : nullLiteral.Sound script .primary := by
  intro offset
  refine .spanned (.bind_discard_require fun token read opens => .pure ⟨by simp, ?_⟩)
  exact .intro (.expression (.null opens)) (.token read .nil) rfl

theorem numberLiteral_sound : numberLiteral.Sound script .primary := by
  intro offset
  refine .spanned (.bind_require fun token read opens => ?_)
  refine bind_numberAt fun value denotes => .pure ⟨by simp, ?_⟩
  exact .intro (.expression (.number opens denotes)) (.token read .nil) rfl

theorem regexLiteral_sound : regexLiteral.Sound script .primary := by
  intro offset
  refine .spanned (.bind_require fun token read opens => .bind_textAt (.pure ⟨by simp, ?_⟩))
  exact .intro (.expression (.regex opens)) (.regex read .nil) rfl

theorem stringLiteral_sound : stringLiteral.Sound script .primary := by
  intro offset
  refine .spanned (.bind_require fun token read opens => ?_)
  refine bind_stringAt fun value denotes => .pure ⟨by simp, ?_⟩
  exact .intro (.expression (.string opens denotes)) (.token read .nil) rfl

/-- What is read as elements parses as them, by induction on the bound. -/
theorem arrayElements_sound (sound : rules.Sound script) (bound offset : Nat)
    : Ensures script (arrayElements rules bound) offset fun elements tokens =>
        Parses script (.phrase (.elements elements)) offset tokens := by
  induction bound generalizing offset with
  | zero => exact .fault
  | succ bound ih =>
      refine .bind_accept (fun comma read separates => ?_) (fun first read noComma => ?_)
      · refine (ih _).bind fun rest tokens derivation => .pure ?_
        exact .intro (.expression (.elementsHole separates))
          (.token read (.part derivation .nil)) rfl
      · refine .bind_peek fun next readNext => ?_
        obtain rfl := read.unique readNext
        split
        next closes =>
          refine .pure ?_
          exact .intro (.expression (.elementsNone closes)) (.ahead ⟨read, trivial⟩ .nil) rfl
        next noClose =>
          refine (sound.expression true _ _).bind fun value front derivation => ?_
          refine .bind_peek fun next readAfter => ?_
          split
          next closes =>
            refine .pure ?_
            exact .intro (.expression (.elementsLast noComma noClose closes))
              (.ahead ⟨read, trivial⟩ (.part derivation (.ahead ⟨readAfter, trivial⟩ .nil))) rfl
          next =>
            refine .bind_discard_require fun comma readComma separates => ?_
            refine (ih _).bind fun rest back derivations => .pure ?_
            exact .intro (.expression (.elementsMore noComma noClose separates))
              (.ahead ⟨read, trivial⟩
                (.part derivation (.token readComma (.part derivations .nil)))) rfl

theorem arrayLiteral_sound (sound : rules.Sound script)
    : (arrayLiteral rules).Sound script .primary := by
  intro offset
  refine .spanned (.bind_discard_require fun bracket read opens => .bind_repetitions fun bound => ?_)
  refine (arrayElements_sound sound bound _).bind fun elements tokens derivation => ?_
  refine .bind_discard_require fun close readClose closes => .pure ⟨by simp, ?_⟩
  exact .intro (.expression (.array opens closes))
    (.token read (.part derivation (.token readClose .nil))) rfl

/-- The token that is read as a key denotes the key. -/
theorem bind_memberKey {α : Type} {next : String → Parser α} {offset : Nat}
    {relation : α → List Token → Prop}
    (onward
      : ∀ token key,
          script.Reads .standard offset token →
          script.keyOf? token = some key →
          Ensures script (next key) token.span.stop
            fun result more => relation result (token :: more))
    : Ensures script (memberKey >>= next) offset relation := by
  unfold memberKey
  rw [bind_assoc]
  refine .bind_consume fun token read => ?_
  have onward := onward token
  unfold Script.keyOf? at onward
  split
  next isName => exact .bind_nameAt (onward _ read (by rw [if_pos isName]))
  next noName =>
    rw [if_neg noName] at onward
    split
    next isString => exact bind_stringAt fun key denotes => onward key read (by rw [if_pos isString, denotes])
    next noString =>
      rw [if_neg noString] at onward
      split
      next isNumber =>
        rw [bind_assoc]
        refine bind_numberAt fun value denotes => ?_
        exact onward _ read (by rw [if_pos isNumber, denotes, Option.map_some])
      next noNumber =>
        rw [if_neg noNumber] at onward
        split
        next isWord =>
          rw [bind_assoc]
          exact .bind_textAt (onward _ read (by rw [if_pos isWord]))
        next => exact .bind_reject

/-- The word before the key of a getter or a setter. -/
def accessorWord (isGetter : Bool) : String :=
  if isGetter then "get" else "set"

/-- A word is taken for that of an accessor only if it is spelled like it. Nothing is consumed. -/
theorem accessorWord?_ensures (offset : Nat)
    : Ensures script accessorWord? offset fun answer tokens =>
        tokens = []
        ∧ ∀ isGetter,
            answer = some isGetter →
            ∃ first,
              script.Reads .standard offset first
              ∧ first.kind = .identifier
              ∧ String.ofList (script.textOf first.span) = accessorWord isGetter := by
  refine .bind_peekMany_two fun first second read _ => ?_
  dsimp only
  split
  next opens =>
    simp only [Bool.and_eq_true, decide_eq_true_eq] at opens
    refine .bind_textAt (.pure ⟨rfl, ?_⟩)
    intro isGetter found
    refine ⟨first, read, opens.1, ?_⟩
    split at found
    next isGet =>
      cases found
      exact isGet
    next =>
      split at found
      next isSet =>
        cases found
        exact isSet
      next => cases found
  next => exact .pure ⟨rfl, fun _ isSome => by cases isSome⟩

/-- What is read as a member parses as an accessor or as a property. -/
theorem objectMember_sound (sound : rules.Sound script)
    : (objectMember rules).Sound script .member := by
  intro offset
  refine .spanned ((accessorWord?_ensures offset).bind ?_)
  rintro answer _ ⟨rfl, opened⟩
  split
  next isGetter =>
    obtain ⟨word, readWord, opens, spelled⟩ := opened isGetter rfl
    refine .bind_discard_consume fun first read => ?_
    obtain rfl := readWord.unique read
    refine bind_memberKey fun token key readKey named => ?_
    refine (function_sound sound _).bind fun function tokens derivation => ?_
    have sequence := Sequence.token read (.token readKey (.part derivation .nil))
    cases isGetter with
    | true =>
        rw [if_pos rfl]
        split
        next arity =>
          refine .pure ⟨by simp, ?_⟩
          exact .intro (.expression (.memberGetter opens spelled named arity)) sequence rfl
        next => exact .reject
    | false =>
        rw [if_neg Bool.false_ne_true]
        split
        next arity =>
          refine .pure ⟨by simp, ?_⟩
          exact .intro (.expression (.memberSetter opens spelled named arity)) sequence rfl
        next => exact .reject
  next =>
    refine bind_memberKey fun token key readKey named => ?_
    refine .bind_discard_require fun colon read divides => ?_
    refine (sound.expression true _ _).bind fun value tokens derivation => .pure ⟨by simp, ?_⟩
    exact .intro (.expression (.memberProperty named divides))
      (.token readKey (.token read (.part derivation .nil))) rfl

theorem objectLiteral_sound (sound : rules.Sound script)
    : (objectLiteral rules).Sound script .primary := by
  intro offset
  refine .spanned (.bind_discard_require fun brace read opens => ?_)
  refine ((objectMember_sound sound).looseList (by decide) _).bind fun members tokens derivation =>
    .pure ⟨by simp, ?_⟩
  exact .intro (.expression (.object opens)) (.token read (.part derivation .nil)) rfl

-----------------------------------------------------------------------------------------
-- Expressions without operators
-----------------------------------------------------------------------------------------

theorem parenthesized_sound (sound : rules.Sound script)
    : (parenthesized rules).Sound script .primary := by
  intro offset
  refine .spanned (.bind_discard_require fun parenthesis read opens => ?_)
  refine (sound.expression true 1 _).bind fun inner tokens derivation => ?_
  refine .bind_discard_require fun close readClose closes => .pure ⟨by simp, ?_⟩
  exact .intro (.expression (.parenthesized opens closes))
    (.token read (.part derivation (.token readClose .nil))) rfl

theorem callArguments_sound (sound : rules.Sound script)
    : (callArguments rules).Sound script .arguments := by
  intro offset
  refine .spanned (.bind_discard_require fun parenthesis read opens => ?_)
  refine ((sound.expression true _).list (by decide) _).bind fun values tokens derivation =>
    .pure ⟨by simp, ?_⟩
  exact .intro (.expression (.arguments opens)) (.token read (.part derivation .nil)) rfl

theorem memberAccess_sound (object : Expr)
    : (memberAccess object).Sound script (.access .memberAccess object) := by
  intro offset
  refine .bind_discard_require fun point read opens => .bind_consume fun token readToken => ?_
  split
  next named =>
    refine .bind_nameAt (.pure ?_)
    exact .intro (.expression (.accessMember opens (by simpa using named)))
      (.token read (.token readToken .nil)) rfl
  next => exact .reject

theorem indexAccess_sound (sound : rules.Sound script) (object : Expr)
    : (indexAccess rules object).Sound script (.access .computedMemberAccess object) := by
  intro offset
  refine .bind_discard_require fun bracket read opens => ?_
  refine (sound.expression true 1 _).bind fun key tokens derivation => ?_
  refine .bind_require fun close readClose closes => .pure ?_
  exact .intro (.expression (.accessIndex opens closes))
    (.token read (.part derivation (.token readClose .nil))) rfl

/-- What is read behind a constructor parses as accesses, by induction on the bound. -/
theorem constructorAccess_sound (sound : rules.Sound script) (bound : Nat) (constructor : Expr)
    : (constructorAccess rules bound constructor).Sound script (.accesses constructor) := by
  induction bound generalizing constructor with
  | zero => exact fun _ => .fault
  | succ bound ih =>
      intro offset
      refine .bind_peek fun next read => ?_
      dsimp only
      split
      next isDot =>
        refine (memberAccess_sound constructor _).bind fun between front derivation => ?_
        refine (ih between _).mono fun value back derivations => ?_
        exact .intro (.expression (.accessesMore (by rw [isDot]; rfl) (.inl rfl)))
          (.ahead ⟨read, trivial⟩ (.part derivation (.part derivations .nil)))
          (by simp [Item.tokensOf])
      next noDot =>
        split
        next isBracket =>
          refine (indexAccess_sound sound constructor _).bind fun between front derivation => ?_
          refine (ih between _).mono fun value back derivations => ?_
          exact .intro (.expression (.accessesMore (by rw [isBracket]; rfl) (.inr rfl)))
            (.ahead ⟨read, trivial⟩ (.part derivation (.part derivations .nil)))
            (by simp [Item.tokensOf])
        next noBracket =>
          refine .pure ?_
          exact .intro (.expression (.accessesNone noDot noBracket)) (.ahead ⟨read, trivial⟩ .nil)
            rfl

/-- What is read as a `new` parses as one, with arguments or without. -/
theorem newExpression_sound (sound : rules.Sound script) (inAllowed : Bool)
    : (newExpression rules inAllowed).Sound script .primary := by
  intro offset
  refine .bind_require fun keyword read opens => ?_
  refine (sound.primary inAllowed _).bind fun head front derivation => .bind_repetitions fun bound => ?_
  refine (constructorAccess_sound sound bound head _).bind fun constructor middle accesses => ?_
  refine .bind_peek fun next readNext => ?_
  split
  next called =>
    refine (callArguments_sound sound _).bind fun arguments back called' => .pure ?_
    exact .intro (.expression (.construct opens called))
      (.token read (.part derivation (.part accesses
        (.ahead ⟨readNext, trivial⟩ (.part called' .nil))))) rfl
  next bare =>
    refine .pure ?_
    exact .intro (.expression (.constructBare opens bare))
      (.token read (.part derivation (.part accesses (.ahead ⟨readNext, trivial⟩ .nil)))) rfl

/-- What is read as a primary expression parses as one, by cases on its first token. -/
theorem primary_sound (sound : rules.Sound script) (inAllowed : Bool)
    : (primary rules inAllowed).Sound script .primary := by
  intro offset
  refine .bind_peek fun token read => ?_
  split
  · exact objectLiteral_sound sound offset
  · exact arrayLiteral_sound sound offset
  · exact identifierExpression_sound offset
  · exact functionExpression_sound sound offset
  · exact newExpression_sound sound inAllowed offset
  · exact thisExpression_sound offset
  · exact booleanLiteral_sound offset
  · exact booleanLiteral_sound offset
  · exact nullLiteral_sound offset
  · exact numberLiteral_sound offset
  · exact regexLiteral_sound offset
  · exact stringLiteral_sound offset
  · exact parenthesized_sound sound offset
  · refine .bind_consume fun token read => .bind_checkReserved fun _ => .reject

-----------------------------------------------------------------------------------------
-- Operators
-----------------------------------------------------------------------------------------

/-- Behind a target there is something that can be assigned to. -/
theorem bind_requireTarget {α : Type} {target : Expr} {next : PUnit → Parser α} {offset : Nat}
    {relation : α → List Token → Prop}
    (onward : target.isAssignmentTarget → Ensures script (next ⟨⟩) offset relation)
    : Ensures script (requireTarget target >>= next) offset relation := by
  unfold requireTarget
  split
  next isTarget => exact onward isTarget
  next => exact .bind_reject

/-- Kinds of tokens that open an operator in front of an operand are read alike in both modes. -/
theorem prefixOperator?_plain {kind : Kind} {operator : Operator}
    (opens : kind.prefixOperator? = some operator)
    : kind ≠ .literalRegex ∧ kind ≠ .invalid := by
  constructor <;> rintro rfl <;> cases opens

/-- What is read as an operand parses as one, operators in front of it included. -/
theorem operand_sound (sound : rules.Sound script) (inAllowed : Bool)
    : (operand rules inAllowed).Sound script (.operand inAllowed) := by
  intro offset
  refine .bind_peek fun token read => ?_
  split
  next =>
    refine (primary_sound sound inAllowed offset).mono fun value tokens derivation => ?_
    exact .intro (.expression .operandPlain) (.part derivation .nil) (by simp [Item.tokensOf])
  next operator opens =>
    have plain := prefixOperator?_plain opens
    refine .bind_discard_consume fun again readAgain => ?_
    obtain rfl := read.unique readAgain
    refine (sound.expression inAllowed _ _).bind fun argument tokens derivation => ?_
    have sequence := Sequence.token (read.toStandard plain.1 plain.2) (.part derivation .nil)
    split
    next isUpdate =>
      refine bind_requireTarget fun target => .pure ?_
      exact .intro (.expression (.operandPrefixed opens fun _ => target)) sequence rfl
    next noUpdate =>
      refine .pure ?_
      exact .intro (.expression (.operandPrefixed opens fun isUpdate =>
        absurd (by simpa using isUpdate) noUpdate)) sequence rfl

/-- The token was consumed if the operator begins neither arguments nor an access. -/
theorem continuation_sound (sound : rules.Sound script) (inAllowed : Bool) {operator : Operator}
    (left : Expr) {token : Token} {offset : Nat} (read : script.Reads .standard offset token)
    (opens : token.kind.infixOperator? = some operator)
    : Ensures.After script token (continuation rules inAllowed operator left) offset
        fun value tokens =>
          Parses script (.phrase (.continuation inAllowed operator left value)) offset tokens := by
  unfold continuation
  split
  · refine .back ((callArguments_sound sound offset).bind fun arguments tokens derivation => .pure ?_)
    exact .intro (.expression .continuationCall) (.part derivation .nil) rfl
  · refine .back ((indexAccess_sound sound left offset).mono fun value tokens derivation => ?_)
    exact .intro (.expression (.continuationAccess (.inr rfl))) (.part derivation .nil)
      (by simp [Item.tokensOf])
  · refine .back ((memberAccess_sound left offset).mono fun value tokens derivation => ?_)
    exact .intro (.expression (.continuationAccess (.inl rfl))) (.part derivation .nil)
      (by simp [Item.tokensOf])
  · refine .keep ((sound.expression true _ _).bind fun consequent front first => ?_)
    refine .bind_discard_require fun colon readColon divides => ?_
    refine (sound.expression inAllowed _ _).bind fun alternate back second => .pure ?_
    have question := Kind.eq_question_of_infixOperator? opens
    exact .intro (.expression (.continuationConditional question divides))
      (.token read (.part first (.token readColon (.part second .nil)))) rfl
  next noCall noIndex noMember noConditional =>
    have isBinary : operator.isBinary := by cases operator <;> simp_all [Operator.isBinary]
    refine .keep ?_
    split
    next isAssignment =>
      refine bind_requireTarget fun target => ?_
      refine (sound.expression inAllowed _ _).bind fun right tokens derivation => .pure ?_
      exact .intro (.expression (.continuationBinary opens isBinary fun _ => target))
        (.token read (.part derivation .nil)) rfl
    next noAssignment =>
      refine (sound.expression inAllowed _ _).bind fun right tokens derivation => .pure ?_
      exact .intro
        (.expression (.continuationBinary opens isBinary fun isAssignment =>
          absurd isAssignment noAssignment))
        (.token read (.part derivation .nil)) rfl

/-- What is read behind an operand parses as operators, by induction on the bound. -/
theorem operators_sound (sound : rules.Sound script) (inAllowed : Bool) (least bound : Nat)
    (left : Expr)
    : (operators rules inAllowed least bound left).Sound script
        (.operators inAllowed least left) := by
  induction bound generalizing left with
  | zero => exact fun _ => .fault
  | succ bound ih =>
      intro offset
      refine .bind_checkpoint_consume fun token read => ?_
      cases updates : updateOperator? token with
      | some operator =>
          dsimp only
          by_cases loose : operator.precedence < least
          · simp only [if_pos loose]
            refine .back (.pure ?_)
            refine .intro (.expression (.operatorsNone ?_)) (.ahead ⟨read, trivial⟩ .nil) rfl
            unfold StopsOperators
            rwa [updates]
          · simp only [if_neg loose]
            refine .keep (bind_requireTarget fun target => ?_)
            refine (ih _ _).mono fun value tokens derivation => ?_
            exact .intro (.expression (.operatorsUpdate updates (Nat.le_of_not_lt loose) target))
              (.token read (.part derivation .nil)) (by simp [Item.tokensOf])
      | none =>
          dsimp only
          cases opens : token.kind.infixOperator? with
          | none =>
              refine .back (.pure ?_)
              refine .intro (.expression (.operatorsNone ?_)) (.ahead ⟨read, trivial⟩ .nil) rfl
              unfold StopsOperators
              rw [updates, opens]
              exact fun _ isSome => by cases isSome
          | some operator =>
              dsimp only
              by_cases stops : operator.precedence < least ∨ operator = .isIn ∧ inAllowed = false
              · simp only [if_pos (show (decide (operator.precedence < least)
                    || decide (operator = .isIn) && !inAllowed) = true by simpa using stops)]
                refine .back (.pure ?_)
                refine .intro (.expression (.operatorsNone ?_)) (.ahead ⟨read, trivial⟩ .nil) rfl
                unfold StopsOperators
                rw [updates, opens]
                rintro _ ⟨⟩
                exact stops
              · simp only [if_neg (show ¬(decide (operator.precedence < least)
                    || decide (operator = .isIn) && !inAllowed) = true by simpa using stops)]
                refine (continuation_sound sound inAllowed left read opens).bind
                  fun between front derivation => ?_
                refine (ih between _).mono fun value back derivations => ?_
                obtain ⟨binds, allowed⟩ := not_or.mp stops
                refine .intro
                  (.expression (.operatorsMore updates opens (Nat.le_of_not_lt binds) ?_))
                  (.ahead ⟨read, trivial⟩ (.part derivation (.part derivations .nil)))
                  (by simp [Item.tokensOf])
                exact fun isIn => by simpa [isIn] using allowed

/-- What is read as an expression of the least precedence parses as one. -/
theorem expressionFrom_sound (sound : rules.Sound script) (inAllowed : Bool) (least : Nat)
    : (expressionFrom rules inAllowed least).Sound script (.expression inAllowed least) := by
  intro offset
  refine (operand_sound sound inAllowed offset).bind fun left front derivation => ?_
  refine .bind_repetitions fun bound => ?_
  refine (operators_sound sound inAllowed least bound left _).mono fun value back derivations => ?_
  exact .intro (.expression .expression) (.part derivation (.part derivations .nil))
    (by simp [Item.tokensOf])

end Grammar

end EcmaSyntax
