import EcmaSyntax.Tree.Basic

/-! How expressions group. Every form of expression has a level, the precedence of the operator on top,
and an operator asks for operands of some level.
-/

namespace EcmaSyntax

namespace Operator

variable {first second : Operator}

/-- The least level of an operand on the left of the operator. -/
def leftPrecedence (operator : Operator) : Nat :=
  match operator.associativity with
  | .left => operator.precedence
  | .right => operator.precedence + 1

/-- On its left an operator asks for one more than its own precedence at most. -/
theorem leftPrecedence_le (operator : Operator)
    : operator.leftPrecedence ≤ operator.precedence + 1 := by
  unfold leftPrecedence
  split <;> omega

/-- On its right an operator asks for one more than its own precedence at most. -/
theorem rightPrecedence_le (operator : Operator)
    : operator.rightPrecedence ≤ operator.precedence + 1 := by
  unfold rightPrecedence
  split <;> omega

/-- No operator asks for less than an assignment on its right. -/
theorem assignmentPrecedence_le_rightPrecedence (operator : Operator)
    : assignmentPrecedence ≤ operator.rightPrecedence := by
  cases operator <;> decide

/-- A left-associative operator asks for a tighter operand on its right. -/
theorem rightPrecedence_of_left (left : first.associativity = .left)
    : first.rightPrecedence = first.precedence + 1 := by
  simp [rightPrecedence, left]

/-- A left-associative operator takes an operand of its own precedence on its left. -/
theorem leftPrecedence_of_left (left : first.associativity = .left)
    : first.leftPrecedence = first.precedence := by
  simp [leftPrecedence, left]

/-- Operators of one precedence group alike. -/
theorem associativity_congr (same : first.precedence = second.precedence)
    : first.associativity = second.associativity := by
  simp [associativity, same]

/-- An operator that may not stand in the right operand of another takes all of the other as its left
operand.
-/
theorem leftPrecedence_le_precedence (loose : second.precedence < first.rightPrecedence)
    : second.leftPrecedence ≤ first.precedence := by
  unfold rightPrecedence at loose
  have bound := second.leftPrecedence_le
  split at loose
  next left =>
    rcases Nat.lt_or_eq_of_le (Nat.le_of_lt_succ loose) with looser | same
    · omega
    · have left := (associativity_congr same).trans left
      exact Nat.le_of_eq ((leftPrecedence_of_left left).trans same)
  next => omega

/-- No operator binds less tightly than the comma. -/
theorem one_le_precedence (operator : Operator) : 1 ≤ operator.precedence := by
  cases operator <;> decide

end Operator

/-- The precedence of the operator on top of an expression. Calls, properties and everything without an
operator share the level above all operators with an operand on either side.
-/
def Expr.level : Expr → Nat
  | binary _ operator _ _ => operator.precedence
  | conditional .. => 3
  | unary .. => 14
  | update .. => 15
  | _ => 16

/-- The operands of the expression have the levels that its operator asks for, and what it assigns to can
be assigned to.
-/
def Expr.WellGrouped : Expr → Prop
  | binary _ operator left right =>
      (operator.associativity = .left ∨ operator.isAssignment)
      ∧ (operator.associativity = .left →
        operator.precedence ≤ left.level ∧ operator.precedence + 1 ≤ right.level)
      ∧ (operator.isAssignment → left.isAssignmentTarget ∧ 2 ≤ right.level)
  | conditional _ test consequent alternate =>
      4 ≤ test.level ∧ 2 ≤ consequent.level ∧ 2 ≤ alternate.level
  | unary _ _ argument => 14 ≤ argument.level
  | update _ _ argument => argument.isAssignmentTarget
  | _ => True

instance (value : Expr) : Decidable value.WellGrouped := by
  unfold Expr.WellGrouped
  split <;> infer_instance

/-- Nothing binds as tightly as an expression without operators. -/
theorem Expr.one_le_level (value : Expr) : 1 ≤ value.level := by
  unfold level
  split
  next operator _ _ => exact operator.one_le_precedence
  all_goals decide

end EcmaSyntax
