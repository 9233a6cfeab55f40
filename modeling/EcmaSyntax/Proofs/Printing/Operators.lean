import EcmaSyntax.Proofs.Grammar.Derivation
import EcmaSyntax.Proofs.Printing.Printable

/-! Where the operators after a printed expression stop. A token that binds less tightly than the last
operand of the expression leaves the expression as it is.
-/

namespace EcmaSyntax

-----------------------------------------------------------------------------------------
-- Tokens that end an operand
-----------------------------------------------------------------------------------------

namespace Grammar

variable {inAllowed : Bool} {least more : Nat} {token : Token} {operator : Operator}

/-- Updates behind an operand bind tighter than the operators between operands. -/
theorem precedence_of_updateOperator? (updates : updateOperator? token = some operator)
    : operator.precedence = 15 := by
  unfold updateOperator? at updates
  split_ifs at updates <;> cases updates <;> rfl

/-- What stops the operators of a precedence stops those that bind tighter. -/
theorem StopsOperators.mono (stops : StopsOperators inAllowed least token) (tighter : least ≤ more)
    : StopsOperators inAllowed more token := by
  unfold StopsOperators at stops ⊢
  split at stops
  next => exact Nat.lt_of_lt_of_le stops tighter
  next =>
    intro operator opens
    rcases stops operator opens with loose | isIn
    · exact .inl (Nat.lt_of_lt_of_le loose tighter)
    · exact .inr isIn

/-- An operator that binds less tightly stops the operators in front of it. -/
theorem stopsOperators_of_binary (opens : token.kind.infixOperator? = some operator)
    (loose : operator.precedence < least)
    : StopsOperators inAllowed least token := by
  unfold StopsOperators
  rw [updateOperator?_of_infixOperator? opens]
  intro other opens'
  rw [opens] at opens'
  cases opens'
  exact .inl loose

/-- A kind of token that is no operator after an operand. -/
def endsOperand (kind : Kind) : Bool :=
  kind.infixOperator? = none && kind != .plusPlus && kind != .hyphenHyphen

/-- What is no operator stops operators of every precedence. -/
theorem stopsOperators_of_endsOperand (ends : endsOperand token.kind)
    : StopsOperators inAllowed least token := by
  simp only [endsOperand, Bool.and_eq_true, decide_eq_true_eq, bne_iff_ne] at ends
  obtain ⟨⟨noInfix, noPlus⟩, noHyphen⟩ := ends
  have noUpdate : updateOperator? token = none := by
    unfold updateOperator?
    rw [if_neg noPlus, if_neg noHyphen, ite_self]
  unfold StopsOperators
  rw [noUpdate]
  intro operator opens
  rw [noInfix] at opens
  cases opens

/-- No operator binds more tightly than properties and calls. -/
theorem stopsOperators_top (token : Token) : StopsOperators inAllowed 18 token := by
  have top (operator : Operator) : operator.precedence < 18 := by cases operator <;> decide
  unfold StopsOperators
  split
  next operator _ => exact top operator
  next => exact fun operator _ => .inl (top operator)

end Grammar

-----------------------------------------------------------------------------------------
-- The last operand of an expression
-----------------------------------------------------------------------------------------

namespace Operator

variable {operator other : Operator}

/-- No operator asks for a looser operand than itself on its right. -/
theorem precedence_le_rightPrecedence (operator : Operator)
    : operator.precedence ≤ operator.rightPrecedence := by
  unfold rightPrecedence
  split <;> omega

/-- An operator that groups to the left ends the right operand of an operator on its left. -/
theorem precedence_lt_rightPrecedence (left : operator.associativity = .left)
    (tight : operator.precedence ≤ other.precedence)
    : operator.precedence < other.rightPrecedence := by
  rcases Nat.lt_or_eq_of_le tight with less | same
  · exact Nat.lt_of_lt_of_le less other.precedence_le_rightPrecedence
  · have left' := (associativity_congr same.symm).trans left
    rw [rightPrecedence_of_left left']
    omega

end Operator

namespace Expr

variable {value : Expr} {least : Nat}

/-- The least precedence of operators that the last operand of the expression takes. -/
def tail : Expr → Nat
  | binary _ operator _ _ => operator.rightPrecedence
  | conditional .. => Operator.assignmentPrecedence
  | unary .. => 14
  | _ => 18

/-- What calls and properties apply to has the level of those. -/
theorem level_of_isOperand (applies : value.isOperand) : value.level = 16 := by
  cases value <;> first | rfl | cases applies

/-- What calls and properties apply to leaves no operand open at its end. -/
theorem tail_of_isOperand (applies : value.isOperand) : value.tail = 18 := by
  cases value <;> first | rfl | cases applies

theorem isOperand_of_isConstructor (applies : value.isConstructor) : value.isOperand := by
  cases value <;> first | rfl | cases applies

/-- What can be assigned to has the form that calls and properties apply to. -/
theorem isOperand_of_isAssignmentTarget (target : value.isAssignmentTarget) : value.isOperand := by
  cases value <;> first | rfl | cases target

/-- Nothing but a conditional has a last operand that is looser than the whole. -/
theorem le_tail (tight : least ≤ value.level) (noConditional : least ≠ 3) : least ≤ value.tail := by
  cases value with
  | binary _ operator => exact Nat.le_trans tight operator.precedence_le_rightPrecedence
  | conditional =>
      simp only [level] at tight
      simp only [tail, Operator.assignmentPrecedence]
      omega
  | _ =>
      simp only [level] at tight
      simp only [tail]
      omega

/-- The left operand of a left-associative operator does not take the operator up. -/
theorem precedence_lt_tail {operator : Operator} (left : operator.associativity = .left)
    (between : operator.isInfix) (tight : operator.precedence ≤ value.level)
    : operator.precedence < value.tail := by
  have loose := Operator.precedence_lt_of_isInfix between
  cases value with
  | binary => exact Operator.precedence_lt_rightPrecedence left tight
  | conditional =>
      have loosest : operator.precedence < Operator.assignmentPrecedence := by
        simp only [level] at tight
        cases operator <;> first | decide | exact absurd tight (by decide) | cases left
      exact loosest
  | _ =>
      simp only [tail]
      omega

end Expr

end EcmaSyntax
