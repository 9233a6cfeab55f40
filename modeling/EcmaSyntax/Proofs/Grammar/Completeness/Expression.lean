import EcmaSyntax.Proofs.Grammar.Completeness.Repetition

/-! What parses as a function or an expression is accepted, given that its parts are. -/

namespace EcmaSyntax.Grammar

open EcmaSyntax.Parser

variable {script : Script} {span : Span} {items : List Item} {offset : Nat} {tokens : List Token}
  {depth : Nat}

-----------------------------------------------------------------------------------------
-- One level of nesting
-----------------------------------------------------------------------------------------

/-- An expression is accepted by the rules of any level that is higher than it has tokens. -/
theorem Phrase.Complete.expression {inAllowed : Bool} {least : Nat} {value : Expr}
    (complete : (Phrase.expression inAllowed least value).Complete script offset tokens)
    (deep : tokens.length < depth)
    : Runs script ((Rules.ofDepth depth).expression inAllowed least) offset tokens value := by
  obtain ⟨depth, rfl⟩ := Nat.exists_eq_add_one_of_ne_zero (Nat.ne_zero_of_lt deep)
  exact complete depth (Nat.le_of_lt_succ deep)

/-- A primary expression is accepted by the rules of any level that is higher than it has tokens. -/
theorem Phrase.Complete.primary {value : Expr}
    (complete : (Phrase.primary value).Complete script offset tokens)
    (deep : tokens.length < depth) (inAllowed : Bool)
    : Runs script ((Rules.ofDepth depth).primary inAllowed) offset tokens value := by
  obtain ⟨depth, rfl⟩ := Nat.exists_eq_add_one_of_ne_zero (Nat.ne_zero_of_lt deep)
  exact complete depth (Nat.le_of_lt_succ deep) inAllowed

/-- A statement is accepted by the rules of any level that is higher than it has tokens. -/
theorem Phrase.Complete.statement {inAllowed : Bool} {value : Stmt}
    (complete : (Phrase.statement inAllowed value).Complete script offset tokens)
    (deep : tokens.length < depth)
    : Runs script ((Rules.ofDepth depth).statement inAllowed) offset tokens value := by
  obtain ⟨depth, rfl⟩ := Nat.exists_eq_add_one_of_ne_zero (Nat.ne_zero_of_lt deep)
  exact complete depth (Nat.le_of_lt_succ deep)

/-- The rules of a level accept expressions with fewer tokens than the level is high. -/
theorem accepts_expression (inAllowed : Bool) (least : Nat) {size : Nat} (deep : size < depth)
    : Accepts script ((Rules.ofDepth depth).expression inAllowed least)
        (.expression inAllowed least) size :=
  fun _ _ _ short complete => complete.expression (by omega)

/-- The rules of a level accept statements with fewer tokens than the level is high. -/
theorem accepts_statement (inAllowed : Bool) {size : Nat} (deep : size < depth)
    : Accepts script ((Rules.ofDepth depth).statement inAllowed) (.statement inAllowed) size :=
  fun _ _ _ short complete => complete.statement (by omega)

-----------------------------------------------------------------------------------------
-- Functions
-----------------------------------------------------------------------------------------

/-- A parameter is accepted as the name that it is. -/
theorem parameter_runs {value : Parameter}
    (rule : ExpressionRule script span (.parameter value) items) (spans : Token.spanOf (Item.tokensOf items) = span)
    (accepted : Accepted script items offset)
    : Runs script parameter offset (Item.tokensOf items) value := by
  cases rule with
  | parameter named =>
      apply Runs.spanned spans (List.cons_ne_nil _ _)
      exact .bind_requireIdentifier accepted.1 named (.pure _)

/-- The body of a function is accepted with the statements in it, up to the closing brace. -/
theorem body_runs {value : Body}
    (rule : ExpressionRule script span (.body value) items) (spans : Token.spanOf (Item.tokensOf items) = span)
    (accepted : Accepted script items offset)
    (deep : (Item.tokensOf items).length ≤ depth)
    : Runs script (functionBody (Rules.ofDepth depth)) offset (Item.tokensOf items) value := by
  cases rule with
  | body opens closes =>
      obtain ⟨read, ⟨derived, statements⟩, readClose, _⟩ := accepted
      simp only [Item.tokensOf, List.length_cons, List.length_append] at deep
      apply Runs.spanned spans (List.cons_ne_nil _ _)
      refine .bind_discard_require read opens ?_
      refine .bind ?_ (.bind_discard_require readClose closes (.pure _))
      refine .bind_repetitions fun bound enough => statements _ _ _ rfl (fun _ => rfl) ?_ _ ?_
      · exact accepts_statement true (by omega)
      · exact Nat.lt_of_le_of_lt derived.length_le enough

/-- A function is accepted with its parameters and its body. -/
theorem function_runs {value : Func}
    (rule : ExpressionRule script span (.function value) items) (spans : Token.spanOf (Item.tokensOf items) = span)
    (accepted : Accepted script items offset)
    (deep : (Item.tokensOf items).length ≤ depth)
    : Runs script (function (Rules.ofDepth depth)) offset (Item.tokensOf items) value := by
  cases rule with
  | function opens =>
      obtain ⟨read, ⟨_, parameters⟩, ⟨_, body⟩, _⟩ := accepted
      simp only [Item.tokensOf, List.length_cons, List.length_append, List.length_nil] at deep
      apply Runs.spanned spans (List.cons_ne_nil _ _)
      unfold functionParameters
      rw [bind_assoc]
      refine .bind_discard_require read opens (.bind (parameters _ _ _ rfl ?_) ?_)
      · exact fun value offset tokens _ complete => complete _ (Nat.le_refl _)
      · exact .bind (body depth (by omega)) (.pure _)

-----------------------------------------------------------------------------------------
-- Literals
-----------------------------------------------------------------------------------------

variable {mode : LexMode} {token : Token} {place : Nat}

/-- A string token has the value that its text denotes, and nothing is consumed for it. -/
theorem runs_stringAt (read : script.Reads mode place token) {value : String}
    (denotes : script.stringOf? token = some value)
    : Runs script (stringAt token.span) offset [] value := by
  obtain ⟨body, unquoted, decoded⟩ := Option.bind_eq_some_iff.mp denotes
  refine .bind_of_nil (.textAt read) ?_
  rw [unquoted]
  dsimp only
  cases text : Text.decodeString body with
  | ok value' =>
      rw [text] at decoded
      cases decoded
      exact .pure value
  | error _ =>
      rw [text] at decoded
      cases decoded

/-- A number token has the value that its text denotes, and nothing is consumed for it. -/
theorem runs_numberAt (read : script.Reads mode place token) {value : Number}
    (denotes : script.numberOf? token = some value)
    : Runs script (numberAt token.span) offset [] value := by
  refine .bind_of_nil (.textAt read) ?_
  unfold Script.numberOf? at denotes
  rw [denotes]
  exact .pure value

/-- The key of a member is accepted as a name, a string or a number. -/
theorem runs_memberKey (read : script.Reads .standard offset token) {key : String}
    (named : script.keyOf? token = some key)
    : Runs script memberKey offset [token] key := by
  refine .bind_consume read ?_
  unfold Script.keyOf? at named
  split_ifs at named with isName isString isNumber isWord
  · cases named
    rw [if_pos isName]
    exact .nameAt read
  · rw [if_neg isName, if_pos isString]
    exact runs_stringAt read named
  · obtain ⟨value, denotes, rfl⟩ := Option.map_eq_some_iff.mp named
    rw [if_neg isName, if_neg isString, if_pos isNumber]
    exact .bind_of_nil (runs_numberAt read denotes) (.pure _)
  · cases named
    rw [if_neg isName, if_neg isString, if_neg isNumber, if_pos isWord]
    exact .bind_of_nil (.textAt read) (.pure _)

/-- The elements of an array are accepted within a bound above the number of their tokens. -/
theorem elements_runs {values : List Element}
    (rule : ExpressionRule script span (.elements values) items)
    (accepted : Accepted script items offset)
    (deep : (Item.tokensOf items).length < depth) {bound : Nat}
    (enough : (Item.tokensOf items).length < bound)
    : Runs script (arrayElements (Rules.ofDepth depth) bound) offset (Item.tokensOf items)
        values := by
  obtain ⟨bound, rfl⟩ := Nat.exists_eq_add_one_of_ne_zero (Nat.ne_zero_of_lt enough)
  cases rule with
  | elementsNone closes =>
      obtain ⟨⟨read, _⟩, _⟩ := accepted
      refine .bind_accept_left read (by rw [closes]; decide) (.bind_peek read ?_)
      rw [if_pos closes]
      exact .pure []
  | elementsHole separates =>
      obtain ⟨read, ⟨_, rest⟩, _⟩ := accepted
      simp only [Item.tokensOf, List.length_cons, List.append_nil] at deep enough ⊢
      refine .bind_accept_taken read separates ?_
      obtain ⟨depth, rfl⟩ := Nat.exists_eq_add_one_of_ne_zero (Nat.ne_zero_of_lt deep)
      exact .bind_pure (rest depth (by omega) bound (by omega)) fun _ => .pure _
  | elementsLast noComma noClose closes =>
      obtain ⟨⟨read, _⟩, ⟨_, value⟩, ⟨readNext, _⟩, _⟩ := accepted
      simp only [Item.tokensOf, List.length_append, List.length_nil] at deep enough ⊢
      refine .bind_accept_left read noComma (.bind_peek read ?_)
      rw [if_neg noClose]
      refine .bind (value.expression (by omega)) (.bind_peek readNext ?_)
      rw [if_pos closes]
      exact .pure _
  | elementsMore noComma noClose separates =>
      obtain ⟨⟨read, _⟩, ⟨_, value⟩, readComma, ⟨_, rest⟩, _⟩ := accepted
      simp only [Item.tokensOf, List.length_cons, List.length_append, List.append_nil]
        at deep enough ⊢
      refine .bind_accept_left read noComma (.bind_peek read ?_)
      rw [if_neg noClose]
      refine .bind (value.expression (by omega)) (.bind_peek readComma ?_)
      rw [if_neg (by rw [separates]; decide)]
      refine .bind_discard_require readComma separates ?_
      obtain ⟨depth, rfl⟩ := Nat.exists_eq_add_one_of_ne_zero (Nat.ne_zero_of_lt deep)
      exact .bind_pure (rest depth (by omega) bound (by omega)) fun _ => .pure _

/-- A token that is a key starts one, so a word in front of it is that of an accessor. -/
theorem startsKey_of_keyOf? {key : String} (named : script.keyOf? token = some key)
    : startsKey token.kind := by
  unfold Script.keyOf? at named
  split_ifs at named with isName isString isNumber isWord
  · simp [startsKey, isName]
  · simp [startsKey, isString]
  · simp [startsKey, isNumber]
  · simp [startsKey, isWord]

/-- A member is accepted: which production it has is told by the word and by what follows it. -/
theorem member_runs {value : Member}
    (rule : ExpressionRule script span (.member value) items)
    (spans : Token.spanOf (Item.tokensOf items) = span)
    (accepted : Accepted script items offset) (deep : (Item.tokensOf items).length ≤ depth)
    : Runs script (objectMember (Rules.ofDepth depth)) offset (Item.tokensOf items) value := by
  cases rule with
  | @memberProperty token key value colon tokens named divides =>
      obtain ⟨read, readColon, ⟨_, value⟩, _⟩ := accepted
      simp only [Item.tokensOf, List.length_cons, List.length_append, List.length_nil] at deep
      -- A colon is no key, so the word before it opens no accessor.
      have noAccessor : Runs script accessorWord? offset [] none := by
        refine .bind_peekMany_two read readColon ?_
        dsimp only
        have noKey : startsKey colon.kind = false := by
          rw [divides]
          decide
        rw [if_neg (by simp [noKey])]
        exact .pure none
      apply Runs.spanned spans (List.cons_ne_nil _ _)
      refine .bind_of_nil noAccessor (.bind (runs_memberKey read named) ?_)
      refine .bind_discard_require readColon divides ?_
      exact .bind (value.expression (by omega)) (.pure _)
  | memberGetter opens spelled named arity =>
      obtain ⟨readWord, read, ⟨_, function⟩, _⟩ := accepted
      simp only [Item.tokensOf, List.length_cons, List.length_append, List.length_nil] at deep
      have isGetter : Runs script accessorWord? offset [] (some true) := by
        refine .bind_peekMany_two readWord read ?_
        dsimp only
        rw [if_pos (by simp [opens, startsKey_of_keyOf? named])]
        refine .bind_of_nil (.textAt readWord) ?_
        rw [if_pos spelled]
        exact .pure _
      apply Runs.spanned spans (List.cons_ne_nil _ _)
      refine .bind_of_nil isGetter (.bind_discard_consume readWord ?_)
      refine .bind (runs_memberKey read named) (.bind (function depth (by omega)) ?_)
      rw [if_pos rfl, if_pos arity]
      exact .pure _
  | memberSetter opens spelled named arity =>
      obtain ⟨readWord, read, ⟨_, function⟩, _⟩ := accepted
      simp only [Item.tokensOf, List.length_cons, List.length_append, List.length_nil] at deep
      have isSetter : Runs script accessorWord? offset [] (some false) := by
        refine .bind_peekMany_two readWord read ?_
        dsimp only
        rw [if_pos (by simp [opens, startsKey_of_keyOf? named])]
        refine .bind_of_nil (.textAt readWord) ?_
        rw [if_neg (by rw [spelled]; decide), if_pos spelled]
        exact .pure _
      apply Runs.spanned spans (List.cons_ne_nil _ _)
      refine .bind_of_nil isSetter (.bind_discard_consume readWord ?_)
      refine .bind (runs_memberKey read named) (.bind (function depth (by omega)) ?_)
      rw [if_neg Bool.false_ne_true, if_pos arity]
      exact .pure _

-----------------------------------------------------------------------------------------
-- Expressions without operators
-----------------------------------------------------------------------------------------

/-- Arguments are accepted up to the parenthesis that closes them. -/
theorem arguments_runs {value : Arguments}
    (rule : ExpressionRule script span (.arguments value) items)
    (spans : Token.spanOf (Item.tokensOf items) = span)
    (accepted : Accepted script items offset) (deep : (Item.tokensOf items).length ≤ depth)
    : Runs script (callArguments (Rules.ofDepth depth)) offset (Item.tokensOf items) value := by
  cases rule with
  | arguments opens =>
      obtain ⟨read, ⟨_, values⟩, _⟩ := accepted
      simp only [Item.tokensOf, List.length_cons, List.length_append, List.length_nil] at deep
      apply Runs.spanned spans (List.cons_ne_nil _ _)
      refine .bind_discard_require read opens (.bind (values _ _ _ rfl ?_) (.pure _))
      exact accepts_expression true _ (by omega)

/-- An access is accepted by the parser for its operator. -/
theorem access_runs {operator : Operator} {object value : Expr}
    (rule : ExpressionRule script span (.access operator object value) items)
    (accepted : Accepted script items offset) (deep : (Item.tokensOf items).length ≤ depth)
    : (operator = .memberAccess →
        Runs script (memberAccess object) offset (Item.tokensOf items) value)
      ∧ (operator = .computedMemberAccess →
        Runs script (indexAccess (Rules.ofDepth depth) object) offset (Item.tokensOf items)
          value) := by
  cases rule with
  | accessMember opens named =>
      obtain ⟨readPoint, read, _⟩ := accepted
      refine ⟨fun _ => ?_, fun isIndex => (by cases isIndex)⟩
      refine .bind_discard_require readPoint opens (.bind_consume read ?_)
      rw [if_pos (by simpa using named)]
      exact .bind_of_nil (.nameAt read) (.pure _)
  | accessIndex opens closes =>
      obtain ⟨read, ⟨_, key⟩, readClose, _⟩ := accepted
      simp only [Item.tokensOf, List.length_cons, List.length_append, List.length_nil] at deep
      refine ⟨fun isMember => (by cases isMember), fun _ => ?_⟩
      refine .bind_discard_require read opens (.bind (key.expression (by omega)) ?_)
      exact .bind_require readClose closes (.pure _)

/-- The accesses behind a constructor are accepted within a bound above the number of their tokens. -/
theorem accesses_runs {constructor value : Expr}
    (rule : ExpressionRule script span (.accesses constructor value) items)
    (accepted : Accepted script items offset) (deep : (Item.tokensOf items).length ≤ depth)
    {bound : Nat} (enough : (Item.tokensOf items).length < bound)
    : Runs script (constructorAccess (Rules.ofDepth depth) bound constructor) offset
        (Item.tokensOf items) value := by
  obtain ⟨bound, rfl⟩ := Nat.exists_eq_add_one_of_ne_zero (Nat.ne_zero_of_lt enough)
  cases rule with
  | accessesNone noPoint noBracket =>
      obtain ⟨⟨read, _⟩, _⟩ := accepted
      refine .bind_peek read ?_
      dsimp only
      rw [if_neg noPoint, if_neg noBracket]
      exact .pure _
  | accessesMore opens isAccess =>
      obtain ⟨⟨read, _⟩, ⟨derived, access⟩, ⟨_, rest⟩, _⟩ := accepted
      have progress := List.length_pos_iff.mpr (derived.ne_nil rfl)
      simp only [Item.tokensOf, List.length_append, List.append_nil] at deep enough ⊢
      obtain ⟨onPoint, onBracket⟩ := access depth (by omega)
      refine .bind_peek read ?_
      dsimp only
      rcases isAccess with rfl | rfl
      · rw [if_pos (Kind.eq_dot_of_infixOperator? opens)]
        exact .bind (onPoint rfl) (rest depth (by omega) bound (by omega))
      · have bracket := Kind.eq_bracketOpen_of_infixOperator? opens
        rw [if_neg (by rw [bracket]; decide), if_pos bracket]
        exact .bind (onBracket rfl) (rest depth (by omega) bound (by omega))

/-- A `new` is accepted, with arguments or without. -/
theorem construct_runs {placed : Span} {constructor : Expr} {arguments : Arguments}
    (rule : ExpressionRule script span (.primary (.construct placed constructor arguments)) items)
    (accepted : Accepted script items offset) (deep : (Item.tokensOf items).length ≤ depth)
    (inAllowed : Bool)
    : Runs script (newExpression (Rules.ofDepth depth) inAllowed) offset (Item.tokensOf items)
        (.construct placed constructor arguments) := by
  cases rule with
  | construct opens called =>
      obtain ⟨read, ⟨_, head⟩, ⟨derived, accesses⟩, ⟨readNext, _⟩, ⟨_, arguments⟩, _⟩ := accepted
      simp only [Item.tokensOf, List.length_cons, List.length_append, List.length_nil] at deep
      refine .bind_require read opens (.bind (head.primary (by omega) inAllowed) ?_)
      refine .bind_repetitions fun bound enough => .bind (accesses depth (by omega) _ ?_) ?_
      · exact Nat.lt_of_le_of_lt derived.length_le enough
      · refine .bind_peek readNext ?_
        rw [if_pos called]
        exact .bind (arguments depth (by omega)) (.pure _)
  | constructBare opens bare =>
      obtain ⟨read, ⟨_, head⟩, ⟨derived, accesses⟩, ⟨readNext, _⟩, _⟩ := accepted
      simp only [Item.tokensOf, List.length_cons, List.length_append, List.length_nil] at deep
      refine .bind_require read opens (.bind (head.primary (by omega) inAllowed) ?_)
      refine .bind_repetitions fun bound enough => .bind (accesses depth (by omega) _ ?_) ?_
      · exact Nat.lt_of_le_of_lt derived.length_le enough
      · refine .bind_peek readNext ?_
        rw [if_neg bare]
        exact .pure _

/-- A function is accepted as an expression, with a name or without. -/
theorem functionExpression_runs {placed : Span} {name : Option String} {function : Func}
    (rule : ExpressionRule script span (.primary (.function placed name function)) items)
    (spans : Token.spanOf (Item.tokensOf items) = span) (accepted : Accepted script items offset)
    (deep : (Item.tokensOf items).length ≤ depth)
    : Runs script (functionExpression (Rules.ofDepth depth)) offset (Item.tokensOf items)
        (.function placed name function) := by
  cases rule with
  | functionAnonymous opens anonymous =>
      obtain ⟨read, ⟨readNext, _⟩, ⟨_, function⟩, _⟩ := accepted
      simp only [Item.tokensOf, List.length_cons, List.length_append, List.length_nil] at deep
      apply Runs.spanned spans (List.cons_ne_nil _ _)
      refine .bind_discard_require read opens (.bind_peek readNext ?_)
      rw [if_pos anonymous]
      exact .bind_of_nil (.pure none) (.bind (function depth (by omega)) (.pure _))
  | functionNamed opens named =>
      obtain ⟨read, readName, ⟨_, function⟩, _⟩ := accepted
      simp only [Item.tokensOf, List.length_cons, List.length_append, List.length_nil] at deep
      apply Runs.spanned spans (List.cons_ne_nil _ _)
      refine .bind_discard_require read opens (.bind_peek readName ?_)
      rw [if_neg (by rw [named]; decide), bind_map_left]
      exact .bind_requireIdentifier readName named (.bind (function depth (by omega)) (.pure _))

/-- A primary expression is accepted by the production that its first token tells. -/
theorem primary_runs {value : Expr} (rule : ExpressionRule script span (.primary value) items)
    (spans : Token.spanOf (Item.tokensOf items) = span) (accepted : Accepted script items offset)
    (deep : (Item.tokensOf items).length ≤ depth) (inAllowed : Bool)
    : Runs script (primary (Rules.ofDepth depth) inAllowed) offset (Item.tokensOf items) value := by
  cases rule with
  | object opens =>
      obtain ⟨read, ⟨derived, members⟩, _⟩ := accepted
      refine .bind_peek (read.toRegex (by rw [opens]; rfl)) ?_
      rw [opens]
      simp only [Item.tokensOf, List.length_cons, List.length_append, List.length_nil] at deep
      apply Runs.spanned spans (List.cons_ne_nil _ _)
      refine .bind_discard_require read opens
        (.bind (.bind_repetitions fun bound enough => ?_) (.pure _))
      refine members _ _ _ rfl ?_ _ (Nat.lt_of_le_of_lt derived.length_le enough)
      exact fun value offset tokens short complete => complete depth (by omega)
  | array opens closes =>
      obtain ⟨read, ⟨derived, elements⟩, readClose, _⟩ := accepted
      refine .bind_peek (read.toRegex (by rw [opens]; rfl)) ?_
      rw [opens]
      simp only [Item.tokensOf, List.length_cons, List.length_append, List.length_nil] at deep
      obtain ⟨depth, rfl⟩ := Nat.exists_eq_add_one_of_ne_zero (Nat.ne_zero_of_lt deep)
      apply Runs.spanned spans (List.cons_ne_nil _ _)
      refine .bind_discard_require read opens (.bind_repetitions fun bound enough => ?_)
      refine .bind (elements depth (by omega) _ (Nat.lt_of_le_of_lt derived.length_le enough)) ?_
      exact .bind_discard_require readClose closes (.pure _)
  | parenthesized opens closes =>
      obtain ⟨read, ⟨_, inner⟩, readClose, _⟩ := accepted
      refine .bind_peek (read.toRegex (by rw [opens]; rfl)) ?_
      rw [opens]
      simp only [Item.tokensOf, List.length_cons, List.length_append, List.length_nil] at deep
      apply Runs.spanned spans (List.cons_ne_nil _ _)
      refine .bind_discard_require read opens (.bind (inner.expression (by omega)) ?_)
      exact .bind_discard_require readClose closes (.pure _)
  | functionAnonymous opens anonymous =>
      refine .bind_peek (accepted.1.toRegex (by rw [opens]; rfl)) ?_
      rw [opens]
      exact functionExpression_runs (.functionAnonymous opens anonymous) spans accepted deep
  | functionNamed opens named =>
      refine .bind_peek (accepted.1.toRegex (by rw [opens]; rfl)) ?_
      rw [opens]
      exact functionExpression_runs (.functionNamed opens named) spans accepted deep
  | construct opens called =>
      refine .bind_peek (accepted.1.toRegex (by rw [opens]; rfl)) ?_
      rw [opens]
      exact construct_runs (.construct opens called : ExpressionRule script span _ _) accepted deep
        inAllowed
  | constructBare opens bare =>
      refine .bind_peek (accepted.1.toRegex (by rw [opens]; rfl)) ?_
      rw [opens]
      exact construct_runs (.constructBare opens bare : ExpressionRule script span _ _) accepted deep
        inAllowed
  | identifier named =>
      refine .bind_peek (accepted.1.toRegex (by rw [named]; rfl)) ?_
      rw [named]
      apply Runs.spanned spans (List.cons_ne_nil _ _)
      exact .bind_require accepted.1 named (.bind_of_nil (.nameAt accepted.1) (.pure _))
  | this opens =>
      refine .bind_peek (accepted.1.toRegex (by rw [opens]; rfl)) ?_
      rw [opens]
      apply Runs.spanned spans (List.cons_ne_nil _ _)
      exact .bind_discard_require accepted.1 opens (.pure _)
  | @boolean token opens =>
      have runs
          : Runs script booleanLiteral offset [token]
              (.boolean span (token.kind = .literalTrue)) := by
        apply Runs.spanned spans (List.cons_ne_nil _ _)
        exact .bind_requireSome accepted.1 (by simpa [or_comm] using opens) (.pure _)
      rcases opens with opens | opens
      · refine .bind_peek (accepted.1.toRegex (by rw [opens]; rfl)) ?_
        rw [opens] at runs ⊢
        exact runs
      · refine .bind_peek (accepted.1.toRegex (by rw [opens]; rfl)) ?_
        rw [opens] at runs ⊢
        exact runs
  | null opens =>
      refine .bind_peek (accepted.1.toRegex (by rw [opens]; rfl)) ?_
      rw [opens]
      apply Runs.spanned spans (List.cons_ne_nil _ _)
      exact .bind_discard_require accepted.1 opens (.pure _)
  | number opens denotes =>
      refine .bind_peek (accepted.1.toRegex (by rw [opens]; rfl)) ?_
      rw [opens]
      apply Runs.spanned spans (List.cons_ne_nil _ _)
      exact .bind_require accepted.1 opens (.bind_of_nil (runs_numberAt accepted.1 denotes) (.pure _))
  | regex opens =>
      refine .bind_peek accepted.1 ?_
      rw [opens]
      apply Runs.spanned spans (List.cons_ne_nil _ _)
      exact .bind_require accepted.1 opens (.bind_of_nil (.textAt accepted.1) (.pure _))
  | string opens denotes =>
      refine .bind_peek (accepted.1.toRegex (by rw [opens]; rfl)) ?_
      rw [opens]
      apply Runs.spanned spans (List.cons_ne_nil _ _)
      exact .bind_require accepted.1 opens (.bind_of_nil (runs_stringAt accepted.1 denotes) (.pure _))

-----------------------------------------------------------------------------------------
-- Operators
-----------------------------------------------------------------------------------------

/-- What can be assigned to is accepted as a target. -/
theorem runs_requireTarget {target : Expr} (isTarget : target.isAssignmentTarget)
    : Runs script (requireTarget target) offset [] ⟨⟩ := by
  unfold requireTarget
  rw [if_pos isTarget]
  exact .pure _

/-- An operand is accepted, with operators in front of it or none. -/
theorem operand_runs {inAllowed : Bool} {value : Expr}
    (rule : ExpressionRule script span (.operand inAllowed value) items)
    (accepted : Accepted script items offset) (deep : (Item.tokensOf items).length ≤ depth)
    : Runs script (operand (Rules.ofDepth depth) inAllowed) offset (Item.tokensOf items) value := by
  cases rule with
  | operandPlain =>
      obtain ⟨⟨derived, primary⟩, _⟩ := accepted
      obtain ⟨first, rest, rfl, read, plain⟩ := derived.opens_primary
      simp only [Item.tokensOf, List.append_nil] at deep ⊢
      refine .bind_peek read ?_
      rw [plain]
      exact primary depth deep inAllowed
  | operandPrefixed opens target =>
      obtain ⟨read, ⟨_, argument⟩, _⟩ := accepted
      have read := read.toRegex (Kind.isSlash_of_prefixOperator? opens)
      simp only [Item.tokensOf, List.length_cons, List.length_append, List.length_nil] at deep
      refine .bind_peek read ?_
      rw [opens]
      refine .bind_discard_consume read (.bind (argument.expression (by omega)) ?_)
      split
      next isUpdate =>
        exact .bind_of_nil (runs_requireTarget (target (by simpa using isUpdate))) (.pure _)
      next => exact .pure _

/-- What continues an operand is accepted behind the token that opens it. -/
theorem continuation_runs {inAllowed : Bool} {operator : Operator} {left value : Expr}
    (rule : ExpressionRule script span (.continuation inAllowed operator left value) items)
    (accepted : Accepted script items offset) (deep : (Item.tokensOf items).length ≤ depth)
    {token : Token} (read : script.Reads .standard offset token)
    (opens : token.kind.infixOperator? = some operator)
    : Runs.After script token (continuation (Rules.ofDepth depth) inAllowed operator left) offset
        (Item.tokensOf items) value := by
  cases rule with
  | continuationCall =>
      obtain ⟨⟨_, arguments⟩, _⟩ := accepted
      simp only [Item.tokensOf, List.length_append, List.length_nil] at deep
      exact .back (.bind (arguments depth (by omega)) (.pure _))
  | continuationAccess isAccess =>
      obtain ⟨⟨_, access⟩, _⟩ := accepted
      simp only [Item.tokensOf, List.append_nil] at deep ⊢
      obtain ⟨onPoint, onBracket⟩ := access depth deep
      rcases isAccess with rfl | rfl
      · exact .back (onPoint rfl)
      · exact .back (onBracket rfl)
  | continuationConditional isQuestion divides =>
      obtain ⟨readQuestion, ⟨_, consequent⟩, readColon, ⟨_, alternate⟩, _⟩ := accepted
      obtain rfl := read.unique readQuestion
      simp only [Item.tokensOf, List.length_cons, List.length_append, List.length_nil] at deep
      refine .keep (.bind (consequent.expression (by omega)) ?_)
      refine .bind_discard_require readColon divides ?_
      exact .bind (alternate.expression (by omega)) (.pure _)
  | continuationBinary _ isBinary target =>
      obtain ⟨readOperator, ⟨_, operand⟩, _⟩ := accepted
      obtain rfl := read.unique readOperator
      simp only [Item.tokensOf, List.length_cons, List.length_append, List.length_nil] at deep
      unfold continuation
      split
      · cases isBinary
      · cases isBinary
      · cases isBinary
      · cases isBinary
      · refine .keep ?_
        split
        next isAssignment =>
          refine .bind_of_nil (runs_requireTarget (target isAssignment)) ?_
          exact .bind (operand.expression (by omega)) (.pure _)
        next => exact .bind (operand.expression (by omega)) (.pure _)

/-- An operator that binds and is allowed does not end the chain. -/
theorem operators_go_on {operator : Operator} {least : Nat} {inAllowed : Bool}
    (binds : least ≤ operator.precedence) (allowed : operator = .isIn → inAllowed = true)
    : (operator.precedence < least || operator = .isIn && !inAllowed) = false := by
  simpa [Nat.not_lt_of_le binds] using allowed

/-- The operators behind an operand are accepted within a bound above the number of their tokens. -/
theorem operators_runs {inAllowed : Bool} {least : Nat} {left value : Expr}
    (rule : ExpressionRule script span (.operators inAllowed least left value) items)
    (accepted : Accepted script items offset) (deep : (Item.tokensOf items).length ≤ depth)
    {bound : Nat} (enough : (Item.tokensOf items).length < bound)
    : Runs script (operators (Rules.ofDepth depth) inAllowed least bound left) offset
        (Item.tokensOf items) value := by
  obtain ⟨bound, rfl⟩ := Nat.exists_eq_add_one_of_ne_zero (Nat.ne_zero_of_lt enough)
  cases rule with
  | @operatorsNone _ _ next _ stops =>
      obtain ⟨⟨read, _⟩, _⟩ := accepted
      refine .bind_checkpoint_consume read ?_
      unfold StopsOperators at stops
      cases updates : updateOperator? next with
      | some operator =>
          rw [updates] at stops
          simp only [if_pos stops]
          exact .back (.pure _)
      | none =>
          rw [updates] at stops
          cases opens : next.kind.infixOperator? with
          | none => exact .back (.pure _)
          | some operator =>
              simp only [if_pos (show (decide (operator.precedence < least)
                || decide (operator = .isIn) && !inAllowed) = true by simpa using stops operator opens)]
              exact .back (.pure _)
  | operatorsUpdate updates binds target =>
      obtain ⟨read, ⟨_, rest⟩, _⟩ := accepted
      simp only [Item.tokensOf, List.length_cons, List.append_nil] at deep enough ⊢
      refine .bind_checkpoint_consume read ?_
      simp only [updates, if_neg (Nat.not_lt_of_le binds)]
      refine .keep (.bind_of_nil (runs_requireTarget target) ?_)
      exact rest depth (by omega) bound (by omega)
  | operatorsMore noUpdate opens binds allowed =>
      obtain ⟨⟨read, _⟩, ⟨derived, continuation⟩, ⟨_, rest⟩, _⟩ := accepted
      have progress := List.length_pos_iff.mpr (derived.ne_nil rfl)
      simp only [Item.tokensOf, List.length_append, List.append_nil] at deep enough ⊢
      refine .bind_checkpoint_consume read ?_
      simp only [noUpdate, opens, operators_go_on binds allowed, Bool.false_eq_true, if_false]
      exact .bind (continuation depth (by omega) _ read opens)
        (rest depth (by omega) bound (by omega))

/-- An expression is accepted as an operand with the operators behind it. -/
theorem expressionFrom_runs {inAllowed : Bool} {least : Nat} {value : Expr}
    (rule : ExpressionRule script span (.expression inAllowed least value) items)
    (accepted : Accepted script items offset) (deep : (Item.tokensOf items).length ≤ depth)
    : Runs script (expressionFrom (Rules.ofDepth depth) inAllowed least) offset
        (Item.tokensOf items) value := by
  cases rule
  obtain ⟨⟨_, operand⟩, ⟨derived, operators⟩, _⟩ := accepted
  simp only [Item.tokensOf, List.length_append, List.append_nil] at deep ⊢
  refine .bind (operand depth (by omega)) (.bind_repetitions fun bound enough => ?_)
  exact operators depth (by omega) _ (Nat.lt_of_le_of_lt derived.length_le enough)

end EcmaSyntax.Grammar
