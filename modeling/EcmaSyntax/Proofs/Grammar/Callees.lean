import EcmaSyntax.Proofs.Grammar.Nesting
import EcmaSyntax.Proofs.Grammar.Precedence

/-! What calls and properties apply to. The last operand of an operator ends where only looser operators go
on, so what applies behind it has been applied to that operand. An update has no operand behind it: it is
the one expression with an operator on top that calls and properties apply to.
-/

namespace EcmaSyntax

open EcmaSyntax.Grammar

namespace Expr

/-- The forms without an operator on top. -/
def isLeftHandSide : Expr → Bool
  | identifier .. | this _ | boolean .. | null _ | number .. | regex .. | string .. | array ..
  | object .. | function .. | parenthesized .. | construct .. | call .. | member .. | index .. =>
      true
  | binary .. | conditional .. | unary .. | update .. => false

def isUpdate : Expr → Bool
  | update .. => true
  | _ => false

/-- The forms that `new` applies to: properties of such a form, and the forms that are neither a call nor
have an operator on top.
-/
def isConstructed : Expr → Bool
  | member _ base _ | index _ base _ => base.isConstructed
  | call .. => false
  | value => value.isLeftHandSide

/-- What `new` applies to has no operator on top. -/
theorem isLeftHandSide_of_isConstructed {value : Expr} (constructed : value.isConstructed)
    : value.isLeftHandSide := by
  cases value <;> first | rfl | cases constructed

/-- What an expression applies a call, a property or `new` to has a form that they apply to. -/
def Applies : Expr → Prop
  | call _ base _ | member _ base _ | index _ base _ => base.isLeftHandSide ∨ base.isUpdate
  | construct _ base _ => base.isConstructed
  | _ => True

end Expr

namespace Grammar

variable {script : Script} {offset : Nat} {tokens : List Token} {inAllowed : Bool}
variable {next : Token} {operator : Operator} {value : Expr}

/-- The precedence of calls and properties. -/
def applicationPrecedence : Nat := 17

/-- Calls and properties go on behind an operand that ends before looser operators. -/
theorem StopsAt.precedence_lt {least : Nat} (stops : StopsAt script inAllowed least offset)
    (loose : least ≤ applicationPrecedence) (read : script.Reads .standard offset next)
    (opens : next.kind.infixOperator? = some operator)
    : operator.precedence < applicationPrecedence := by
  have stops := stops next read
  unfold StopsOperators at stops
  rw [updateOperator?_of_infixOperator? opens] at stops
  rcases stops operator opens with looser | ⟨rfl, _⟩
  · exact Nat.lt_of_lt_of_le looser loose
  · decide

/-- The last operand of an operator keeps the calls and properties behind it. -/
theorem Parses.precedence_lt {least : Nat}
    (derivation : Parses script (.phrase (.expression inAllowed least value)) offset tokens)
    (loose : least ≤ prefixPrecedence)
    (read : script.Reads .standard (Token.endOf offset tokens) next)
    (opens : next.kind.infixOperator? = some operator)
    : operator.precedence < applicationPrecedence := by
  obtain ⟨_, stops⟩ := derivation.leveled loose
  exact stops.precedence_lt (loose.trans (by decide)) read opens

/-- A primary expression is one that `new` applies to, by cases on its production. -/
theorem Parses.isConstructed_primary
    (derivation : Parses script (.phrase (.primary value)) offset tokens)
    : value.isConstructed := by
  obtain ⟨items, rfl, rule, components⟩ := derivation.expression_components rfl
  cases rule <;> rfl

/-- The properties behind the operand of `new` leave a form that `new` applies to. -/
theorem Parses.isConstructed_accesses {object : Expr}
    (derivation : Parses script (.phrase (.accesses object value)) offset tokens)
    (constructed : object.isConstructed)
    : value.isConstructed := by
  refine derivation.induction
    (motive := fun nonterminal _ _ =>
      ∀ object value,
        nonterminal = .phrase (.accesses object value) →
        object.isConstructed →
        value.isConstructed) ?_ object value rfl constructed
  rintro _ items start (rule | rule | rule) components object value ⟨⟩ constructed
  case statement => cases rule
  case repetition => cases rule
  cases rule with
  | accessesNone => exact constructed
  | accessesMore =>
      obtain ⟨_, ⟨access, _⟩, ⟨_, rest⟩, _⟩ := components
      refine rest _ _ rfl ?_
      obtain ⟨items, rfl, rule, _⟩ := access.expression_components rfl
      cases rule with
      | accessMember | accessIndex => exact constructed

/-- A chain that a call or a property follows has a form that they apply to. -/
theorem Chains.applied (chains : Chains script inAllowed offset tokens value)
    (read : script.Reads .standard (Token.endOf offset tokens) next)
    (opens : next.kind.infixOperator? = some operator)
    (applies : operator.precedence = applicationPrecedence)
    : value.isLeftHandSide ∨ value.isUpdate := by
  have absurd_of {inner : Expr} {inAllowed : Bool} {least start : Nat} {last : List Token}
      (derivation : Parses script (.phrase (.expression inAllowed least inner)) start last)
      (loose : least ≤ prefixPrecedence)
      (ends : Token.endOf start last = Token.endOf offset tokens)
      : value.isLeftHandSide ∨ value.isUpdate :=
    absurd applies (derivation.precedence_lt loose (ends ▸ read) opens).ne
  cases chains with
  | update => exact .inr rfl
  | operand operand =>
      obtain ⟨items, rfl, rule, components⟩ := operand.expression_components rfl
      cases rule with
      | operandPlain =>
          exact .inl (Expr.isLeftHandSide_of_isConstructed components.1.isConstructed_primary)
      | operandPrefixed prefixes =>
          refine absurd_of components.2.1 (rightPrecedence_of_prefixOperator? prefixes).le ?_
          simp [Item.tokensOf]
  | more _ _ _ _ continuation =>
      obtain ⟨items, rfl, rule, components⟩ := continuation.expression_components rfl
      cases rule with
      | continuationCall => exact .inl rfl
      | continuationAccess =>
          obtain ⟨items, rfl, rule, _⟩ := components.1.expression_components rfl
          cases rule <;> exact .inl rfl
      | continuationConditional =>
          refine absurd_of components.2.2.2.1 (by decide) ?_
          simp [Item.tokensOf]
      | continuationBinary between isBinary =>
          refine absurd_of components.2.1 (rightPrecedence_le_of_isBinary between isBinary) ?_
          simp [Item.tokensOf]

/-- A chain applies calls and properties to what they apply to, by induction on the chain. -/
theorem Chains.applies (chains : Chains script inAllowed offset tokens value) : value.Applies := by
  cases chains with
  | update => trivial
  | operand operand =>
      obtain ⟨items, rfl, rule, components⟩ := operand.expression_components rfl
      cases rule with
      | operandPrefixed => trivial
      | operandPlain =>
          obtain ⟨items, rfl, rule, inner⟩ := components.1.expression_components rfl
          cases rule with
          | construct | constructBare =>
              obtain ⟨_, head, accesses, _⟩ := inner
              exact accesses.isConstructed_accesses head.isConstructed_primary
          | _ => trivial
  | more chains read opens _ continuation =>
      obtain ⟨items, rfl, rule, components⟩ := continuation.expression_components rfl
      cases rule with
      | continuationCall => exact chains.applied read opens rfl
      | continuationConditional | continuationBinary => trivial
      | continuationAccess =>
          obtain ⟨items, rfl, rule, _⟩ := components.1.expression_components rfl
          cases rule with
          | accessMember | accessIndex => exact chains.applied read opens rfl

end Grammar

namespace Program

variable {source : List Char} {dialect : Dialect} {program : Program}

/-- Everywhere in a program that was parsed, calls and properties apply to expressions without an operator
on top or to updates, and `new` applies to neither a call nor an update.
-/
theorem applies_of_parse (parsed : parse source dialect = .ok program)
    : (Node.program program).Each Expr.Applies := by
  intro value within
  cases located_of_parse parsed within with
  | parsed derived =>
      cases derived with
      | expression chains => exact chains.applies

/-- Negations and sums are not called, the names in them are. -/
theorem applies_of_parse_sum
    : ∃ program,
        parse "-a(b) + new c.d".toList .ecma = .ok program
        ∧ program.nodes.length = 8
        ∧ (Node.program program).Each Expr.Applies := by
  have counted
      : (parse "-a(b) + new c.d".toList .ecma).toOption.map
            (fun program => program.nodes.length)
          = some 8 := by
    decide +kernel
  cases parsed : parse "-a(b) + new c.d".toList .ecma with
  | error failure =>
      rw [parsed] at counted
      cases counted
  | ok program =>
      rw [parsed] at counted
      exact ⟨program, rfl, Option.some.inj counted, applies_of_parse parsed⟩

/-- The callee of a program that is one call. -/
def callee? (program : Program) : Option Expr :=
  match program.body with
  | [.expression _ (.call _ callee _)] => some callee
  | _ => none

/-- An update is called by the parentheses behind it, even on a line of their own. -/
theorem update_called
    : ∃ program callee,
        parse "x++\n(y)".toList .js = .ok program
        ∧ program.callee? = some callee
        ∧ callee.isUpdate
        ∧ callee.isLeftHandSide = false := by
  have called
      : (parse "x++\n(y)".toList .js).toOption.bind
            (fun program =>
              program.callee?.map fun callee => (callee.isUpdate, callee.isLeftHandSide))
          = some (true, false) := by
    decide +kernel
  cases parsed : parse "x++\n(y)".toList .js with
  | error failure =>
      rw [parsed] at called
      cases called
  | ok program =>
      rw [parsed] at called
      obtain ⟨callee, found, same⟩ := Option.map_eq_some_iff.mp called
      obtain ⟨isUpdate, noLeft⟩ := Prod.mk.inj same
      exact ⟨program, callee, rfl, found, isUpdate, noLeft⟩

end Program

end EcmaSyntax
