import EcmaSyntax.Proofs.Printing.Operators
import EcmaSyntax.Proofs.Tree.Placeless

/-! The words of a printable expression parse as the expression, up to the places of its nodes. Since
operators are read from left to right, what is proved of an operand is how the operators behind it go on
from it.
-/

namespace EcmaSyntax

open EcmaSyntax.Grammar

variable {script : Script} {offset : Nat} {tokens : List Token} {value : Expr}

-----------------------------------------------------------------------------------------
-- Operands that operators go on from
-----------------------------------------------------------------------------------------

namespace Grammar

/-- The tokens parse as the expression with any operators behind it that are no tighter. -/
def GoesOn (script : Script) (offset : Nat) (tokens : List Token) (value : Expr) : Prop :=
  ∀ least back final,
    least ≤ value.level →
    Parses script (.phrase (.operators true least value final)) (Token.endOf offset tokens) back →
    Parses script (.phrase (.expression true least final)) offset (tokens ++ back)

/-- The tokens parse as the operand of `new`, with any properties behind it. -/
def Constructs (script : Script) (offset : Nat) (tokens : List Token) (value : Expr) : Prop :=
  ∀ back final,
    Parses script (.phrase (.accesses value final)) (Token.endOf offset tokens) back →
    ∃ head front middle,
      tokens ++ back = front ++ middle
      ∧ Parses script (.phrase (.primary head)) offset front
      ∧ Parses script (.phrase (.accesses head final)) (Token.endOf offset front) middle

/-- The operators behind an operand go on from it. -/
theorem GoesOn.of_operand
    (operand : Parses script (.phrase (.operand true value)) offset tokens)
    : GoesOn script offset tokens value := by
  intro least back _ _ operators
  exact .intro (.expression .expression) (.part operand (.part operators .nil))
    (by simp [Item.tokensOf])

/-- The calls and properties behind a primary expression go on from it. -/
theorem GoesOn.of_primary (primary : Parses script (.phrase (.primary value)) offset tokens)
    : GoesOn script offset tokens value := by
  refine .of_operand ?_
  exact .intro (.expression .operandPlain) (.part primary .nil) (by simp [Item.tokensOf])

/-- The properties behind a primary expression after `new` go on from it. -/
theorem Constructs.of_primary (primary : Parses script (.phrase (.primary value)) offset tokens)
    : Constructs script offset tokens value :=
  fun back _ accesses => ⟨value, tokens, back, rfl, primary, accesses⟩

/-- Operators that stop at once leave the operand as it is. -/
theorem GoesOn.expression {least : Nat} {next : Token} (goesOn : GoesOn script offset tokens value)
    (tight : least ≤ value.level)
    (read : script.Reads .standard (Token.endOf offset tokens) next)
    (stops : StopsOperators true least next)
    : Parses script (.phrase (.expression true least value)) offset tokens := by
  have none
      : Parses script (.phrase (.operators true least value value)) (Token.endOf offset tokens) [] :=
    .intro (.expression (.operatorsNone stops)) (.ahead ⟨read, trivial⟩ .nil) rfl
  simpa using goesOn least [] value tight none

/-- An operator that is no looser than the expression it makes goes on from its left operand. -/
theorem GoesOn.operator {left : Expr} {operator : Operator} {next : Token} {between : List Token}
    (goesOn : GoesOn script offset tokens left)
    (read : script.Reads .standard (Token.endOf offset tokens) next)
    (opens : next.kind.infixOperator? = some operator)
    (binds : value.level ≤ operator.precedence) (tight : value.level ≤ left.level)
    (continuation
      : Parses script (.phrase (.continuation true operator left value))
          (Token.endOf offset tokens) between)
    : GoesOn script offset (tokens ++ between) value := by
  intro least back final loose operators
  rw [Token.endOf_append] at operators
  rw [List.append_assoc]
  refine goesOn least _ final (Nat.le_trans loose tight) ?_
  refine .intro
    (.expression
      (.operatorsMore (updateOperator?_of_infixOperator? opens) opens (Nat.le_trans loose binds)
        fun _ => rfl))
    (.ahead ⟨read, trivial⟩ (.part continuation (.part operators .nil))) ?_
  simp [Item.tokensOf]

/-- An update goes on from its operand. -/
theorem GoesOn.update {target : Expr} {operator : Operator} {token : Token}
    (goesOn : GoesOn script offset tokens target)
    (read : script.Reads .standard (Token.endOf offset tokens) token)
    (updates : updateOperator? token = some operator) (assignable : target.isAssignmentTarget)
    : GoesOn script offset (tokens ++ [token])
        (.update (target.span.cover token.span) operator target) := by
  intro least back final loose operators
  have binds := precedence_of_updateOperator? updates
  have tight := Expr.level_of_isOperand (Expr.isOperand_of_isAssignmentTarget assignable)
  simp only [Expr.level] at loose
  rw [Token.endOf_append] at operators
  rw [List.append_assoc]
  refine goesOn least _ final (by omega) ?_
  exact .intro (.expression (.operatorsUpdate updates (by omega) assignable))
    (.token read (.part operators .nil)) (by simp [Item.tokensOf])

/-- A property goes on from the operand of `new`. -/
theorem Constructs.access {object : Expr} {operator : Operator} {next : Token}
    {between : List Token} (constructs : Constructs script offset tokens object)
    (read : script.Reads .standard (Token.endOf offset tokens) next)
    (opens : next.kind.infixOperator? = some operator)
    (isAccess : operator = .memberAccess ∨ operator = .computedMemberAccess)
    (access
      : Parses script (.phrase (.access operator object value)) (Token.endOf offset tokens) between)
    : Constructs script offset (tokens ++ between) value := by
  intro back final accesses
  rw [Token.endOf_append] at accesses
  rw [List.append_assoc]
  refine constructs _ final ?_
  exact .intro (.expression (.accessesMore opens isAccess))
    (.ahead ⟨read, trivial⟩ (.part access (.part accesses .nil))) (by simp [Item.tokensOf])

end Grammar

-----------------------------------------------------------------------------------------
-- What is to be proved of an expression
-----------------------------------------------------------------------------------------

/-- Wherever the words of the expression are spelled, in front of a token that leaves the expression as
it is, an expression alike goes on from them.
-/
def Expr.Reparses (script : Script) (value : Expr) : Prop :=
  ∀ offset tokens next,
    script.Spells offset tokens (Printed.ofExpr value) →
    script.Reads .standard (Token.endOf offset tokens) next →
    StopsOperators true value.tail next →
    ∃ result : Expr,
      result.Alike value
      ∧ GoesOn script offset tokens result
      ∧ (value.isConstructor → Constructs script offset tokens result)

namespace Expr

/-- The words of an expression that is an operand parse without a look at what follows. -/
theorem Reparses.goesOn (reparses : value.Reparses script) (applies : value.isOperand)
    (spells : script.Spells offset tokens (Printed.ofExpr value)) {next : Token}
    (read : script.Reads .standard (Token.endOf offset tokens) next)
    : ∃ result : Expr,
        result.Alike value
        ∧ GoesOn script offset tokens result
        ∧ (value.isConstructor → Constructs script offset tokens result) := by
  refine reparses offset tokens next spells read ?_
  rw [tail_of_isOperand applies]
  exact stopsOperators_top next

/-- The words of an expression parse as an expression of at most its level. -/
theorem Reparses.expression (reparses : value.Reparses script) {least : Nat}
    (tight : least ≤ value.level) (noConditional : least ≠ 3)
    (spells : script.Spells offset tokens (Printed.ofExpr value)) {next : Token}
    (read : script.Reads .standard (Token.endOf offset tokens) next)
    (stops : StopsOperators true least next)
    : ∃ result : Expr,
        result.Alike value
        ∧ Parses script (.phrase (.expression true least result)) offset tokens := by
  obtain ⟨result, alike, goesOn, _⟩ :=
    reparses offset tokens next spells read (stops.mono (le_tail tight noConditional))
  exact ⟨result, alike, goesOn.expression (alike.level_eq ▸ tight) read stops⟩

/-- An expression that parses as a primary expression is reparsed before any operators. -/
theorem Reparses.of_primary
    (primary
      : ∀ offset tokens,
          script.Spells offset tokens (Printed.ofExpr value) →
          ∃ result : Expr,
            result.Alike value ∧ Parses script (.phrase (.primary result)) offset tokens)
    : value.Reparses script := by
  intro offset tokens next spells _ _
  obtain ⟨result, alike, parses⟩ := primary offset tokens spells
  exact ⟨result, alike, .of_primary parses, fun _ => .of_primary parses⟩

end Expr

-----------------------------------------------------------------------------------------
-- Arguments and elements
-----------------------------------------------------------------------------------------

/-- The words of a printable expression begin with a token that can begin an operand. -/
theorem Script.Spells.opens {words : List Word} (printable : value.Printable)
    (spells : script.Spells offset tokens (Printed.ofExpr value ++ words))
    : ∃ first, script.Reads .standard offset first ∧ first.kind.opensPrinted := by
  obtain ⟨word, rest, same, opens⟩ := Printed.opens printable
  rw [same] at spells
  obtain ⟨first, _, _, read, kind_eq, _⟩ := Script.spells_cons spells
  exact ⟨first, read, kind_eq ▸ opens⟩

/-- Behind the words of an argument stands a comma or the closing parenthesis. -/
theorem Script.Spells.endsArgument {values : List Expr}
    (spells : script.Spells offset tokens (Printed.ofListTail values))
    : ∃ next,
        script.Reads .standard offset next
        ∧ StopsOperators true Operator.assignmentPrecedence next := by
  cases values with
  | nil =>
      obtain ⟨next, _, _, read, kind_eq, _⟩ := Script.spells_cons spells
      exact ⟨next, read, stopsOperators_of_endsOperand (by rw [kind_eq]; rfl)⟩
  | cons value rest =>
      obtain ⟨next, _, _, read, kind_eq, _⟩ := Script.spells_cons spells
      have separates : next.kind.infixOperator? = some .comma := by
        rw [kind_eq]
        rfl
      exact ⟨next, read, stopsOperators_of_binary separates (by decide)⟩

/-- The words of arguments begin with the opening parenthesis. -/
theorem Script.Spells.opensArguments {arguments : Arguments}
    (spells : script.Spells offset tokens (Printed.ofArguments arguments))
    : ∃ next, script.Reads .standard offset next ∧ next.kind = .parenthesisOpen := by
  obtain ⟨span, values⟩ := arguments
  obtain ⟨next, _, _, read, kind_eq, _⟩ := Script.spells_cons spells
  exact ⟨next, read, kind_eq⟩

/-- The values of a list are reparsed in front of the mark that follows each, by induction on the list. -/
theorem listTail_reparses {values : List Expr}
    (reparses : ∀ value ∈ values, value.Reparses script)
    (tight : ∀ value ∈ values, 2 ≤ value.level)
    (spells : script.Spells offset tokens (Printed.ofListTail values))
    : ∃ results : List Expr,
        Expr.AllAlike results values
        ∧ Parses script
            (.listTail .parenthesisClose
              (results.map (.expression true Operator.assignmentPrecedence)))
            offset tokens := by
  induction values generalizing offset tokens with
  | nil =>
      obtain ⟨close, rest, rfl, read, kind_eq, _, _, spells⟩ := Script.spells_cons spells
      obtain rfl := Script.spells_nil spells
      have noComma : close.kind ≠ .comma := by
        rw [kind_eq]
        decide
      exact ⟨[], rfl, .intro (.repetition (.listTailNone kind_eq rfl noComma)) (.token read .nil) rfl⟩
  | cons value rest ih =>
      obtain ⟨reparsesFirst, reparsesRest⟩ := List.forall_mem_cons.mp reparses
      obtain ⟨tightFirst, tightRest⟩ := List.forall_mem_cons.mp tight
      obtain ⟨comma, tokens, rfl, read, kind_eq, _, _, spells⟩ := Script.spells_cons spells
      obtain ⟨front, back, rfl, spelled, spells⟩ := Script.spells_append spells
      obtain ⟨next, readNext, stops⟩ := spells.endsArgument
      obtain ⟨result, alike, parses⟩ :=
        reparsesFirst.expression tightFirst (by decide) spelled readNext stops
      obtain ⟨results, alikeRest, parsesRest⟩ := ih reparsesRest tightRest spells
      refine ⟨result :: results, .cons alike alikeRest, ?_⟩
      exact .intro (.repetition (.listTailMore kind_eq))
        (.token read (.part parses (.part parsesRest .nil))) (by simp [Item.tokensOf])

/-- Arguments are reparsed, with their parentheses. -/
theorem arguments_reparses {arguments : Arguments}
    (printable : ∀ value ∈ arguments.values, value.Printable)
    (reparses : ∀ value ∈ arguments.values, value.Reparses script)
    (tight : ∀ value ∈ arguments.values, 2 ≤ value.level)
    (spells : script.Spells offset tokens (Printed.ofArguments arguments))
    : ∃ result : Arguments,
        result.Alike arguments
        ∧ Parses script (.phrase (.arguments result)) offset tokens := by
  obtain ⟨span, values⟩ := arguments
  obtain ⟨parenthesis, tokens, rfl, read, kind_eq, _, _, spells⟩ := Script.spells_cons spells
  obtain ⟨results, alike, parses⟩
      : ∃ results : List Expr,
          Expr.AllAlike results values
          ∧ Parses script
              (.list .parenthesisClose
                (results.map (.expression true Operator.assignmentPrecedence)))
              parenthesis.span.stop tokens := by
    cases values with
    | nil =>
        obtain ⟨close, rest, rfl, readClose, close_eq, _, _, spells⟩ := Script.spells_cons spells
        obtain rfl := Script.spells_nil spells
        exact ⟨[], rfl, .intro (.repetition (.listNone close_eq rfl)) (.token readClose .nil) rfl⟩
    | cons value rest =>
        obtain ⟨printableFirst, _⟩ := List.forall_mem_cons.mp printable
        obtain ⟨reparsesFirst, reparsesRest⟩ := List.forall_mem_cons.mp reparses
        obtain ⟨tightFirst, tightRest⟩ := List.forall_mem_cons.mp tight
        obtain ⟨first, readFirst, opens⟩ := spells.opens printableFirst
        obtain ⟨front, back, rfl, spelled, spells⟩ := Script.spells_append spells
        obtain ⟨next, readNext, stops⟩ := spells.endsArgument
        obtain ⟨result, alike, parses⟩ :=
          reparsesFirst.expression tightFirst (by decide) spelled readNext stops
        obtain ⟨results, alikeRest, parsesRest⟩ := listTail_reparses reparsesRest tightRest spells
        have goesOn : first.kind ≠ .parenthesisClose := by
          intro close
          rw [close] at opens
          cases opens
        refine ⟨result :: results, .cons alike alikeRest, ?_⟩
        exact .intro (.repetition (.listMore goesOn))
          (.ahead ⟨readFirst, trivial⟩ (.part parses (.part parsesRest .nil)))
          (by simp [Item.tokensOf])
  exact ⟨{ span := _, values := results }, .of_values alike,
    .intro (.expression (.arguments kind_eq)) (.token read (.part parses .nil))
      (by simp [Item.tokensOf])⟩

/-- The elements of an array are reparsed, holes included, by induction on the list. -/
theorem elements_reparses {elements : List Element}
    (printable : ∀ value, .value value ∈ elements → value.Printable)
    (reparses : ∀ value, .value value ∈ elements → value.Reparses script)
    (tight : ∀ value, .value value ∈ elements → 2 ≤ value.level)
    (spells : script.Spells offset tokens (Printed.ofElements elements)) {next : Token}
    (readNext : script.Reads .standard (Token.endOf offset tokens) next)
    (closes : next.kind = .bracketClose)
    : ∃ results : List Element,
        Element.AllAlike results elements
        ∧ Parses script (.phrase (.elements results)) offset tokens := by
  induction elements generalizing offset tokens with
  | nil =>
      obtain rfl := Script.spells_nil spells
      exact ⟨[], rfl, .intro (.expression (.elementsNone closes)) (.ahead ⟨readNext, trivial⟩ .nil) rfl⟩
  | cons element rest ih =>
      have ih {offset : Nat} {tokens : List Token} :=
        @ih offset tokens (fun value inside => printable value (List.mem_cons_of_mem _ inside))
          (fun value inside => reparses value (List.mem_cons_of_mem _ inside))
          (fun value inside => tight value (List.mem_cons_of_mem _ inside))
      cases element with
      | hole =>
          obtain ⟨comma, tokens, rfl, read, kind_eq, _, _, spells⟩ := Script.spells_cons spells
          obtain ⟨results, alike, parses⟩ := ih spells readNext
          refine ⟨.hole :: results, alike.hole, ?_⟩
          exact .intro (.expression (.elementsHole kind_eq)) (.token read (.part parses .nil))
            (by simp [Item.tokensOf])
      | value value =>
          have inside := List.mem_cons_self (a := Element.value value) (l := rest)
          obtain ⟨first, readFirst, opens⟩ := spells.opens (printable value inside)
          obtain ⟨front, tokens, rfl, spelled, spells⟩ := Script.spells_append spells
          obtain ⟨comma, back, rfl, read, kind_eq, _, _, spells⟩ := Script.spells_cons spells
          have separates : comma.kind.infixOperator? = some .comma := by
            rw [kind_eq]
            rfl
          have stops : StopsOperators true Operator.assignmentPrecedence comma :=
            stopsOperators_of_binary separates (by decide)
          obtain ⟨result, alike, parses⟩ :=
            (reparses value inside).expression (tight value inside) (by decide) spelled read stops
          rw [Token.endOf_append, Token.endOf_cons] at readNext
          obtain ⟨results, alikeRest, parsesRest⟩ := ih spells readNext
          have noComma : first.kind ≠ .comma := by
            intro same
            rw [same] at opens
            cases opens
          have noClose : first.kind ≠ .bracketClose := by
            intro same
            rw [same] at opens
            cases opens
          refine ⟨.value result :: results, .value alike alikeRest, ?_⟩
          exact .intro (.expression (.elementsMore noComma noClose kind_eq))
            (.ahead ⟨readFirst, trivial⟩
              (.part parses (.token read (.part parsesRest .nil))))
            (by simp [Item.tokensOf])

-----------------------------------------------------------------------------------------
-- The forms of expressions
-----------------------------------------------------------------------------------------

/-- A name is an identifier or a reserved word. -/
theorem Word.kind_ofName (name : String)
    : (Word.ofName name).kind = .identifier ∨ (Word.ofName name).kind.isWord := by
  unfold Word.ofName
  cases found : wordKind? name.toList with
  | none => exact .inl rfl
  | some kind =>
      obtain ⟨entry, listed, rfl⟩ := Option.map_eq_some_iff.mp found
      have all : reservedWords.all (fun entry => entry.1.isWord) = true := by decide
      exact .inr (List.all_eq_true.mp all entry (List.mem_of_find?_eq_some listed))

/-- A name that is written without escapes is the name of its token. -/
theorem Script.nameOf_ofName {token : Token} {name : String}
    (written : Text.IsName name.toList)
    (text_eq : script.textOf token.span = (Word.ofName name).text)
    : script.nameOf token = name := by
  rw [nameOf, text_eq, Word.ofName]
  exact written.decodeName

namespace Expr

variable {span : Span}

/-- A name that is no reserved word is reparsed. -/
theorem reparses_identifier {name : String} (written : Text.IsName name.toList)
    (free : wordKind? name.toList = none)
    : (identifier span name).Reparses script := by
  refine .of_primary fun offset tokens spells => ?_
  obtain ⟨token, _, rfl, read, kind_eq, _, text_eq, spells⟩ := Script.spells_cons spells
  obtain rfl := Script.spells_nil spells
  have named : token.kind = .identifier := by
    rw [kind_eq, Word.ofName, free]
    rfl
  refine ⟨_, ?_, .intro (.expression (.identifier named)) (.token read .nil) rfl⟩
  rw [Script.nameOf_ofName written text_eq]
  exact alike_identifier

theorem reparses_this : (this span).Reparses script := by
  refine .of_primary fun offset tokens spells => ?_
  obtain ⟨token, _, rfl, read, kind_eq, _, _, spells⟩ := Script.spells_cons spells
  obtain rfl := Script.spells_nil spells
  exact ⟨_, alike_this, .intro (.expression (.this kind_eq)) (.token read .nil) rfl⟩

theorem reparses_boolean {truth : Bool} : (boolean span truth).Reparses script := by
  refine .of_primary fun offset tokens spells => ?_
  obtain ⟨token, _, rfl, read, kind_eq, _, _, spells⟩ := Script.spells_cons spells
  obtain rfl := Script.spells_nil spells
  have opens : token.kind = .literalTrue ∨ token.kind = .literalFalse := by
    rw [kind_eq]
    cases truth
    · exact .inr rfl
    · exact .inl rfl
  have truth_eq : decide (token.kind = .literalTrue) = truth := by
    rw [kind_eq]
    cases truth <;> rfl
  refine ⟨_, ?_, .intro (.expression (.boolean opens)) (.token read .nil) rfl⟩
  rw [truth_eq]
  exact alike_boolean

theorem reparses_null : (null span).Reparses script := by
  refine .of_primary fun offset tokens spells => ?_
  obtain ⟨token, _, rfl, read, kind_eq, _, _, spells⟩ := Script.spells_cons spells
  obtain rfl := Script.spells_nil spells
  exact ⟨_, alike_null, .intro (.expression (.null kind_eq)) (.token read .nil) rfl⟩

/-- Parentheses are reparsed, and any expression between them. -/
theorem reparses_parenthesized {body : Expr} (reparses : body.Reparses script)
    (present : 1 ≤ body.level)
    : (parenthesized span body).Reparses script := by
  refine .of_primary fun offset tokens spells => ?_
  obtain ⟨parenthesis, tokens, rfl, read, kind_eq, _, _, spells⟩ := Script.spells_cons spells
  obtain ⟨front, back, rfl, spelled, spells⟩ := Script.spells_append spells
  obtain ⟨close, _, rfl, readClose, close_eq, _, _, spells⟩ := Script.spells_cons spells
  obtain rfl := Script.spells_nil spells
  have stops : StopsOperators true 1 close :=
    stopsOperators_of_endsOperand (by rw [close_eq]; rfl)
  obtain ⟨result, alike, parses⟩ :=
    reparses.expression present (by decide) spelled readClose stops
  exact ⟨_, alike.parenthesized, .intro (.expression (.parenthesized kind_eq close_eq))
    (.token read (.part parses (.token readClose .nil))) (by simp [Item.tokensOf])⟩

/-- An array is reparsed if the values among its elements are. -/
theorem reparses_array {elements : List Element}
    (printable : ∀ value, .value value ∈ elements → value.Printable)
    (reparses : ∀ value, .value value ∈ elements → value.Reparses script)
    (tight : ∀ value, .value value ∈ elements → 2 ≤ value.level)
    : (array span elements).Reparses script := by
  refine .of_primary fun offset tokens spells => ?_
  obtain ⟨bracket, tokens, rfl, read, kind_eq, _, _, spells⟩ := Script.spells_cons spells
  obtain ⟨front, back, rfl, spelled, spells⟩ := Script.spells_append spells
  obtain ⟨close, _, rfl, readClose, close_eq, _, _, spells⟩ := Script.spells_cons spells
  obtain rfl := Script.spells_nil spells
  obtain ⟨results, alike, parses⟩ :=
    elements_reparses printable reparses tight spelled readClose close_eq
  exact ⟨_, .array alike, .intro (.expression (.array kind_eq close_eq))
    (.token read (.part parses (.token readClose .nil))) (by simp [Item.tokensOf])⟩

/-- A property goes on from its object, within the operand of `new` and elsewhere. -/
theorem goesOn_of_access {object value result between : Expr} {operator : Operator} {next : Token}
    {front back : List Token} (alike : result.Alike value) (level_eq : value.level = 16)
    (goesOn : GoesOn script offset front between)
    (constructs : object.isConstructor → Constructs script offset front between)
    (tight : between.level = 16) (isConstructor_eq : value.isConstructor = object.isConstructor)
    (read : script.Reads .standard (Token.endOf offset front) next)
    (opens : next.kind.infixOperator? = some operator)
    (isAccess : operator = .memberAccess ∨ operator = .computedMemberAccess)
    (access
      : Parses script (.phrase (.access operator between result)) (Token.endOf offset front) back)
    : ∃ result : Expr,
        result.Alike value
        ∧ GoesOn script offset (front ++ back) result
        ∧ (value.isConstructor → Constructs script offset (front ++ back) result) := by
  have binds : result.level ≤ operator.precedence := by
    rw [alike.level_eq, level_eq]
    rcases isAccess with rfl | rfl <;> decide
  refine ⟨result, alike, ?_, fun applies => ?_⟩
  · refine goesOn.operator read opens binds (by rw [alike.level_eq, level_eq, tight]) ?_
    exact .intro (.expression (.continuationAccess isAccess)) (.part access .nil)
      (by simp [Item.tokensOf])
  · exact (constructs (isConstructor_eq ▸ applies)).access read opens isAccess access

/-- A property is reparsed behind its object, be its name reserved or not. -/
theorem reparses_member {object : Expr} {name : String} (reparses : object.Reparses script)
    (applies : object.isOperand) (written : Text.IsName name.toList)
    : (member span object name).Reparses script := by
  intro offset tokens next spells _ _
  obtain ⟨front, back, rfl, spelled, spells⟩ := Script.spells_append spells
  obtain ⟨point, back, rfl, read, kind_eq, _, _, spells⟩ := Script.spells_cons spells
  obtain ⟨token, _, rfl, readName, name_eq, _, text_eq, spells⟩ := Script.spells_cons spells
  obtain rfl := Script.spells_nil spells
  obtain ⟨result, alike, goesOn, constructs⟩ := reparses.goesOn applies spelled read
  have named : token.kind = .identifier ∨ token.kind.isWord := by
    rw [name_eq]
    exact Word.kind_ofName name
  have opens : point.kind.infixOperator? = some .memberAccess := by
    rw [kind_eq]
    rfl
  refine goesOn_of_access ?_ rfl goesOn constructs
    (alike.level_eq.trans (level_of_isOperand applies)) rfl read opens (.inl rfl)
    (.intro (.expression (.accessMember kind_eq named)) (.token read (.token readName .nil)) rfl)
  rw [Script.nameOf_ofName written text_eq]
  exact alike.member

/-- A computed property is reparsed behind its object, and its key between the brackets. -/
theorem reparses_index {object key : Expr} (reparses : object.Reparses script)
    (applies : object.isOperand) (reparsesKey : key.Reparses script) (present : 1 ≤ key.level)
    : (index span object key).Reparses script := by
  intro offset tokens next spells _ _
  obtain ⟨front, back, rfl, spelled, spells⟩ := Script.spells_append spells
  obtain ⟨bracket, back, rfl, read, kind_eq, _, _, spells⟩ := Script.spells_cons spells
  obtain ⟨middle, back, rfl, spelledKey, spells⟩ := Script.spells_append spells
  obtain ⟨close, _, rfl, readClose, close_eq, _, _, spells⟩ := Script.spells_cons spells
  obtain rfl := Script.spells_nil spells
  obtain ⟨result, alike, goesOn, constructs⟩ := reparses.goesOn applies spelled read
  have stops : StopsOperators true 1 close :=
    stopsOperators_of_endsOperand (by rw [close_eq]; rfl)
  obtain ⟨resultKey, alikeKey, parses⟩ :=
    reparsesKey.expression present (by decide) spelledKey readClose stops
  have opens : bracket.kind.infixOperator? = some .computedMemberAccess := by
    rw [kind_eq]
    rfl
  exact goesOn_of_access (alike.index alikeKey) rfl goesOn constructs
    (alike.level_eq.trans (level_of_isOperand applies)) rfl read opens (.inr rfl)
    (.intro (.expression (.accessIndex kind_eq close_eq))
      (.token read (.part parses (.token readClose .nil))) (by simp [Item.tokensOf]))

/-- A call is reparsed behind its callee. -/
theorem reparses_call {callee : Expr} {arguments : Arguments} (reparses : callee.Reparses script)
    (applies : callee.isOperand) (printable : ∀ value ∈ arguments.values, value.Printable)
    (reparsesValues : ∀ value ∈ arguments.values, value.Reparses script)
    (tight : ∀ value ∈ arguments.values, 2 ≤ value.level)
    : (call span callee arguments).Reparses script := by
  intro offset tokens next spells _ _
  obtain ⟨front, back, rfl, spelled, spells⟩ := Script.spells_append spells
  obtain ⟨parenthesis, read, opens⟩ := spells.opensArguments
  obtain ⟨result, alike, goesOn, _⟩ := reparses.goesOn applies spelled read
  obtain ⟨resultArguments, alikeArguments, parses⟩ :=
    arguments_reparses printable reparsesValues tight spells
  have calls : parenthesis.kind.infixOperator? = some .call := by
    rw [opens]
    rfl
  refine ⟨_, alike.call alikeArguments, goesOn.operator read calls ?_ ?_
    (.intro (.expression .continuationCall) (.part parses .nil) (by simp [Item.tokensOf])),
    fun constructs => by cases constructs⟩
  · exact Nat.le_succ 16
  · rw [alike.level_eq, level_of_isOperand applies]
    exact Nat.le_refl 16

/-- A `new` is reparsed with its constructor, in which no call stands, and its arguments. -/
theorem reparses_construct {constructor : Expr} {arguments : Arguments}
    (reparses : constructor.Reparses script) (applies : constructor.isConstructor)
    (printable : ∀ value ∈ arguments.values, value.Printable)
    (reparsesValues : ∀ value ∈ arguments.values, value.Reparses script)
    (tight : ∀ value ∈ arguments.values, 2 ≤ value.level)
    : (construct span constructor arguments).Reparses script := by
  refine .of_primary fun offset tokens spells => ?_
  obtain ⟨keyword, tokens, rfl, read, kind_eq, _, _, spells⟩ := Script.spells_cons spells
  obtain ⟨front, back, rfl, spelled, spells⟩ := Script.spells_append spells
  obtain ⟨parenthesis, readNext, opens⟩ := spells.opensArguments
  obtain ⟨result, alike, _, constructs⟩ :=
    reparses.goesOn (isOperand_of_isConstructor applies) spelled readNext
  obtain ⟨resultArguments, alikeArguments, parses⟩ :=
    arguments_reparses printable reparsesValues tight spells
  -- The parentheses end the properties of the operand.
  have none
      : Parses script (.phrase (.accesses result result)) (Token.endOf keyword.span.stop front) [] :=
    .intro (.expression (.accessesNone (by rw [opens]; decide) (by rw [opens]; decide)))
      (.ahead ⟨readNext, trivial⟩ .nil) rfl
  obtain ⟨head, first, middle, same, primary, accesses⟩ := constructs applies [] result none
  rw [List.append_nil] at same
  subst same
  rw [Token.endOf_append] at readNext parses
  exact ⟨_, alike.construct alikeArguments, .intro (.expression (.construct kind_eq opens))
    (.token read
      (.part primary (.part accesses (.ahead ⟨readNext, trivial⟩ (.part parses .nil)))))
    (by simp [Item.tokensOf])⟩

/-- An operator in front of an operand is reparsed if the operand binds as tightly. -/
theorem reparses_unary {operator : Operator} {argument : Expr}
    (reparses : argument.Reparses script) (front : operator.isPrefix) (tight : 14 ≤ argument.level)
    (target
      : operator = .prefixDecrement ∨ operator = .prefixIncrement → argument.isAssignmentTarget)
    : (unary span operator argument).Reparses script := by
  intro offset tokens next spells readNext stops
  obtain ⟨token, tokens, rfl, read, kind_eq, _, _, spells⟩ := Script.spells_cons spells
  obtain ⟨result, alike, parses⟩ := reparses.expression tight (by decide) spells readNext stops
  have opens : token.kind.prefixOperator? = some operator := by
    rw [kind_eq]
    exact Operator.prefixOperator?_prefixKind front
  rw [← Operator.rightPrecedence_of_isPrefix front] at parses
  have assignable
      : operator = .prefixDecrement ∨ operator = .prefixIncrement → result.isAssignmentTarget := by
    intro isUpdate
    rw [alike.isAssignmentTarget_eq]
    exact target isUpdate
  exact ⟨_, alike.unary, .of_operand (.intro (.expression (.operandPrefixed opens assignable))
    (.token read (.part parses .nil)) (by simp [Item.tokensOf])), fun constructs => by cases constructs⟩

/-- The token that is printed for an update is read as that update on the same line. -/
theorem updateOperator?_updateKind {token : Token} {operator : Operator}
    (behind : operator.isUpdate) (kind_eq : token.kind = operator.updateKind)
    (sameLine : token.afterNewline = false)
    : updateOperator? token = some operator := by
  unfold updateOperator?
  rw [sameLine, kind_eq]
  cases operator <;> first | rfl | cases behind

/-- An update is reparsed behind its operand, on the same line. -/
theorem reparses_update {operator : Operator} {argument : Expr}
    (reparses : argument.Reparses script) (behind : operator.isUpdate)
    (target : argument.isAssignmentTarget)
    : (update span operator argument).Reparses script := by
  intro offset tokens next spells _ _
  obtain ⟨front, back, rfl, spelled, spells⟩ := Script.spells_append spells
  obtain ⟨token, _, rfl, read, kind_eq, sameLine, _, spells⟩ := Script.spells_cons spells
  obtain rfl := Script.spells_nil spells
  obtain ⟨result, alike, goesOn, _⟩ :=
    reparses.goesOn (isOperand_of_isAssignmentTarget target) spelled read
  exact ⟨_, alike.update, goesOn.update read (updateOperator?_updateKind behind kind_eq sameLine)
    (alike.isAssignmentTarget_eq ▸ target), fun constructs => by cases constructs⟩

/-- A conditional expression is reparsed if its parts have the levels that it asks for. -/
theorem reparses_conditional {test consequent alternate : Expr}
    (reparsesTest : test.Reparses script) (reparsesConsequent : consequent.Reparses script)
    (reparsesAlternate : alternate.Reparses script)
    (grouped : (conditional span test consequent alternate).WellGrouped)
    : (conditional span test consequent alternate).Reparses script := by
  obtain ⟨tightTest, tightConsequent, tightAlternate⟩ := grouped
  intro offset tokens next spells readNext stops
  obtain ⟨front, back, rfl, spelledTest, spells⟩ := Script.spells_append spells
  obtain ⟨question, back, rfl, readQuestion, question_eq, _, _, spells⟩ := Script.spells_cons spells
  obtain ⟨middle, back, rfl, spelledConsequent, spells⟩ := Script.spells_append spells
  obtain ⟨colon, back, rfl, readColon, colon_eq, _, _, spells⟩ := Script.spells_cons spells
  simp only [Token.endOf_append, Token.endOf_cons] at readNext
  have opens : question.kind.infixOperator? = some .conditional := by
    rw [question_eq]
    rfl
  have loose : StopsOperators true test.tail question :=
    stopsOperators_of_binary opens (le_tail tightTest (by decide))
  have divides : StopsOperators true Operator.assignmentPrecedence colon :=
    stopsOperators_of_endsOperand (by rw [colon_eq]; rfl)
  obtain ⟨resultTest, alikeTest, goesOn, _⟩ :=
    reparsesTest _ _ _ spelledTest readQuestion loose
  obtain ⟨resultConsequent, alikeConsequent, parsesConsequent⟩ :=
    reparsesConsequent.expression tightConsequent (by decide) spelledConsequent readColon divides
  obtain ⟨resultAlternate, alikeAlternate, parsesAlternate⟩ :=
    reparsesAlternate.expression tightAlternate (by decide) spells readNext stops
  refine ⟨_, alikeTest.conditional alikeConsequent alikeAlternate,
    goesOn.operator readQuestion opens ?_ ?_
    (.intro (.expression (.continuationConditional question_eq colon_eq))
      (.token readQuestion
        (.part parsesConsequent (.token readColon (.part parsesAlternate .nil))))
      (by simp [Item.tokensOf])), fun constructs => by cases constructs⟩
  · exact Nat.le_refl 3
  · rw [alikeTest.level_eq]
    exact Nat.le_of_succ_le tightTest

/-- The left operand of a binary operator is at least as tight, and the operator ends it. -/
theorem WellGrouped.binary_left {operator : Operator} {left right : Expr}
    (grouped : (binary span operator left right).WellGrouped) (between : operator.isInfix)
    : operator.precedence ≤ left.level ∧ operator.precedence < left.tail := by
  obtain ⟨isLeft | isAssignment, ofLeft, ofAssignment⟩ := grouped
  · exact ⟨(ofLeft isLeft).1, precedence_lt_tail isLeft between (ofLeft isLeft).1⟩
  · have applies := isOperand_of_isAssignmentTarget (ofAssignment isAssignment).1
    have loose := Operator.precedence_lt_of_isInfix between
    rw [level_of_isOperand applies, tail_of_isOperand applies]
    omega

/-- The right operand of a binary operator is as tight as the operator asks for. -/
theorem WellGrouped.binary_right {operator : Operator} {left right : Expr}
    (grouped : (binary span operator left right).WellGrouped)
    : operator.rightPrecedence ≤ right.level := by
  obtain ⟨isLeft | isAssignment, ofLeft, ofAssignment⟩ := grouped
  · rw [Operator.rightPrecedence_of_left isLeft]
    exact (ofLeft isLeft).2
  · have loosest : operator.rightPrecedence = 2 := by
      cases operator <;> first | rfl | cases isAssignment
    rw [loosest]
    exact (ofAssignment isAssignment).2

/-- An operator between operands is reparsed if these have the levels that it asks for. -/
theorem reparses_binary {operator : Operator} {left right : Expr}
    (reparsesLeft : left.Reparses script) (reparsesRight : right.Reparses script)
    (between : operator.isInfix) (grouped : (binary span operator left right).WellGrouped)
    : (binary span operator left right).Reparses script := by
  obtain ⟨tight, loose⟩ := grouped.binary_left between
  intro offset tokens next spells readNext stops
  obtain ⟨front, back, rfl, spelledLeft, spells⟩ := Script.spells_append spells
  obtain ⟨token, back, rfl, read, kind_eq, _, _, spells⟩ := Script.spells_cons spells
  simp only [Token.endOf_append, Token.endOf_cons] at readNext
  have opens : token.kind.infixOperator? = some operator := by
    rw [kind_eq]
    exact Operator.infixOperator?_infixKind between
  have noConditional : operator.rightPrecedence ≠ 3 := by
    cases operator <;> first | decide | cases between
  obtain ⟨resultLeft, alikeLeft, goesOn, _⟩ :=
    reparsesLeft _ _ _ spelledLeft read (stopsOperators_of_binary opens loose)
  obtain ⟨resultRight, alikeRight, parsesRight⟩ :=
    reparsesRight.expression grouped.binary_right noConditional spells readNext stops
  have target : operator.isAssignment → resultLeft.isAssignmentTarget := by
    intro isAssignment
    rw [alikeLeft.isAssignmentTarget_eq]
    exact (grouped.2.2 isAssignment).1
  exact ⟨_, alikeLeft.binary alikeRight,
    goesOn.operator read opens (Nat.le_refl _) (alikeLeft.level_eq ▸ tight)
      (.intro
        (.expression (.continuationBinary opens (Operator.isBinary_of_isInfix between) target))
        (.token read (.part parsesRight .nil)) (by simp [Item.tokensOf])),
    fun constructs => by cases constructs⟩

/-- A printable expression is parsed from its words. -/
theorem Printable.reparses (printable : value.Printable) : value.Reparses script := by
  induction printable with
  | identifier written free => exact reparses_identifier written free
  | this => exact reparses_this
  | boolean => exact reparses_boolean
  | null => exact reparses_null
  | parenthesized _ ih => exact reparses_parenthesized ih (one_le_level _)
  | array printable tight ih => exact reparses_array printable ih tight
  | member _ applies written ih => exact reparses_member ih applies written
  | index _ applies _ ih ihKey => exact reparses_index ih applies ihKey (one_le_level _)
  | call _ applies printable tight ih ihValues =>
      exact reparses_call ih applies printable ihValues tight
  | construct _ applies printable tight ih ihValues =>
      exact reparses_construct ih applies printable ihValues tight
  | unary _ front grouped target ih => exact reparses_unary ih front grouped target
  | update _ behind grouped ih => exact reparses_update ih behind grouped
  | binary _ _ between grouped ihLeft ihRight =>
      exact reparses_binary ihLeft ihRight between grouped
  | conditional _ _ _ grouped ihTest ihConsequent ihAlternate =>
      exact reparses_conditional ihTest ihConsequent ihAlternate grouped

end Expr

end EcmaSyntax
