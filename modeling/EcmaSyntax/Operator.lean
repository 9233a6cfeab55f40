import EcmaSyntax.Token.Kind

/-!
The operators with their precedence and associativity, the tags that stand for them in the canonical
form, and the kinds of tokens that open them.
-/

namespace EcmaSyntax

inductive Operator where
  | addition
  | assignment
  | assignmentAddition
  | assignmentBitwiseAnd
  | assignmentBitwiseLeftShift
  | assignmentBitwiseOr
  | assignmentBitwiseRightShift
  | assignmentBitwiseUnsignedRightShift
  | assignmentBitwiseXor
  | assignmentDivision
  | assignmentMultiplication
  | assignmentRemainder
  | assignmentSubtraction
  | bitwiseAnd
  | bitwiseLeftShift
  | bitwiseNot
  | bitwiseOr
  | bitwiseRightShift
  | bitwiseUnsignedRightShift
  | bitwiseXor
  | call
  | comma
  | computedMemberAccess
  | conditional
  | delete
  | division
  | equality
  | greaterThan
  | greaterThanOrEqual
  | isIn
  | inequality
  | instanceof
  | lessThan
  | lessThanOrEqual
  | logicalAnd
  | logicalNot
  | logicalOr
  | memberAccess
  | multiplication
  | new
  | postfixDecrement
  | postfixIncrement
  | prefixDecrement
  | prefixIncrement
  | remainder
  | strictEquality
  | strictInequality
  | subtraction
  | typeof
  | unaryNegation
  | unaryPlus
  | void
  deriving DecidableEq, Repr, Inhabited

/-- How operators of one precedence group. -/
inductive Associativity where
  | left
  | right
  deriving DecidableEq, Repr, Inhabited

/-- The written name of an associativity. -/
def Associativity.name : Associativity → String
  | left => "Left"
  | right => "Right"

namespace Operator

/-- The written name of an operator. -/
def name : Operator → String
  | addition => "Addition"
  | assignment => "Assignment"
  | assignmentAddition => "AssignmentAddition"
  | assignmentBitwiseAnd => "AssignmentBitwiseAnd"
  | assignmentBitwiseLeftShift => "AssignmentBitwiseLeftShift"
  | assignmentBitwiseOr => "AssignmentBitwiseOr"
  | assignmentBitwiseRightShift => "AssignmentBitwiseRightShift"
  | assignmentBitwiseUnsignedRightShift => "AssignmentBitwiseUnsignedRightShift"
  | assignmentBitwiseXor => "AssignmentBitwiseXor"
  | assignmentDivision => "AssignmentDivision"
  | assignmentMultiplication => "AssignmentMultiplication"
  | assignmentRemainder => "AssignmentRemainder"
  | assignmentSubtraction => "AssignmentSubtraction"
  | bitwiseAnd => "BitwiseAnd"
  | bitwiseLeftShift => "BitwiseLeftShift"
  | bitwiseNot => "BitwiseNot"
  | bitwiseOr => "BitwiseOr"
  | bitwiseRightShift => "BitwiseRightShift"
  | bitwiseUnsignedRightShift => "BitwiseUnsignedRightShift"
  | bitwiseXor => "BitwiseXor"
  | call => "Call"
  | comma => "Comma"
  | computedMemberAccess => "ComputedMemberAccess"
  | conditional => "Conditional"
  | delete => "Delete"
  | division => "Division"
  | equality => "Equality"
  | greaterThan => "GreaterThan"
  | greaterThanOrEqual => "GreaterThanOrEqual"
  | isIn => "In"
  | inequality => "Inequality"
  | instanceof => "Instanceof"
  | lessThan => "LessThan"
  | lessThanOrEqual => "LessThanOrEqual"
  | logicalAnd => "LogicalAnd"
  | logicalNot => "LogicalNot"
  | logicalOr => "LogicalOr"
  | memberAccess => "MemberAccess"
  | multiplication => "Multiplication"
  | new => "New"
  | postfixDecrement => "PostfixDecrement"
  | postfixIncrement => "PostfixIncrement"
  | prefixDecrement => "PrefixDecrement"
  | prefixIncrement => "PrefixIncrement"
  | remainder => "Remainder"
  | strictEquality => "StrictEquality"
  | strictInequality => "StrictInequality"
  | subtraction => "Subtraction"
  | typeof => "Typeof"
  | unaryNegation => "UnaryNegation"
  | unaryPlus => "UnaryPlus"
  | void => "Void"

/-- Every operator. -/
def all : List Operator :=
  [
    .addition, .assignment, .assignmentAddition, .assignmentBitwiseAnd,
    .assignmentBitwiseLeftShift, .assignmentBitwiseOr, .assignmentBitwiseRightShift,
    .assignmentBitwiseUnsignedRightShift, .assignmentBitwiseXor, .assignmentDivision,
    .assignmentMultiplication, .assignmentRemainder, .assignmentSubtraction, .bitwiseAnd,
    .bitwiseLeftShift, .bitwiseNot, .bitwiseOr, .bitwiseRightShift, .bitwiseUnsignedRightShift,
    .bitwiseXor, .call, .comma, .computedMemberAccess, .conditional, .delete, .division,
    .equality, .greaterThan, .greaterThanOrEqual, .isIn, .inequality, .instanceof, .lessThan,
    .lessThanOrEqual, .logicalAnd, .logicalNot, .logicalOr, .memberAccess, .multiplication,
    .new, .postfixDecrement, .postfixIncrement, .prefixDecrement, .prefixIncrement, .remainder,
    .strictEquality, .strictInequality, .subtraction, .typeof, .unaryNegation, .unaryPlus, .void
  ]

/-- The operator with the name. -/
def ofName? (name : String) : Option Operator :=
  all.find? fun operator => operator.name == name

/-- Assignments, plain and compound. -/
def isAssignment : Operator → Bool
  | assignment | assignmentAddition | assignmentBitwiseAnd | assignmentBitwiseLeftShift
  | assignmentBitwiseOr | assignmentBitwiseRightShift | assignmentBitwiseUnsignedRightShift
  | assignmentBitwiseXor | assignmentDivision | assignmentMultiplication | assignmentRemainder
  | assignmentSubtraction => true
  | _ => false

/-- The precedence of assignments. Expressions of this precedence and above have no comma on top. -/
def assignmentPrecedence : Nat := 2

/-- How tightly an operator binds: higher is tighter. -/
def precedence : Operator → Nat
  | call | computedMemberAccess | memberAccess => 17
  | new => 16
  | postfixDecrement | postfixIncrement => 15
  | bitwiseNot | delete | logicalNot | prefixDecrement | prefixIncrement | typeof
  | unaryNegation | unaryPlus | void => 14
  | division | multiplication | remainder => 13
  | addition | subtraction => 12
  | bitwiseLeftShift | bitwiseRightShift | bitwiseUnsignedRightShift => 11
  | greaterThan | greaterThanOrEqual | isIn | instanceof | lessThan | lessThanOrEqual => 10
  | equality | inequality | strictEquality | strictInequality => 9
  | bitwiseAnd => 8
  | bitwiseXor => 7
  | bitwiseOr => 6
  | logicalAnd => 5
  | logicalOr => 4
  | conditional => 3
  | assignment | assignmentAddition | assignmentBitwiseAnd | assignmentBitwiseLeftShift
  | assignmentBitwiseOr | assignmentBitwiseRightShift | assignmentBitwiseUnsignedRightShift
  | assignmentBitwiseXor | assignmentDivision | assignmentMultiplication | assignmentRemainder
  | assignmentSubtraction => assignmentPrecedence
  | comma => 1

/-- How an operator groups with others of its precedence. Prefix operators, conditionals and
assignments group to the right. -/
def associativity (operator : Operator) : Associativity :=
  match operator.precedence with
  | 2 | 3 | 14 | 16 => .right
  | _ => .left

/-- The operators with their precedences and associativities, the tightest ones first. -/
def table : List (Operator × Nat × Associativity) :=
  [
    (.call, 17, .left),
    (.computedMemberAccess, 17, .left),
    (.memberAccess, 17, .left),
    (.new, 16, .right),
    (.postfixDecrement, 15, .left),
    (.postfixIncrement, 15, .left),
    (.bitwiseNot, 14, .right),
    (.delete, 14, .right),
    (.logicalNot, 14, .right),
    (.prefixDecrement, 14, .right),
    (.prefixIncrement, 14, .right),
    (.typeof, 14, .right),
    (.unaryNegation, 14, .right),
    (.unaryPlus, 14, .right),
    (.void, 14, .right),
    (.division, 13, .left),
    (.multiplication, 13, .left),
    (.remainder, 13, .left),
    (.addition, 12, .left),
    (.subtraction, 12, .left),
    (.bitwiseLeftShift, 11, .left),
    (.bitwiseRightShift, 11, .left),
    (.bitwiseUnsignedRightShift, 11, .left),
    (.greaterThan, 10, .left),
    (.greaterThanOrEqual, 10, .left),
    (.isIn, 10, .left),
    (.instanceof, 10, .left),
    (.lessThan, 10, .left),
    (.lessThanOrEqual, 10, .left),
    (.equality, 9, .left),
    (.inequality, 9, .left),
    (.strictEquality, 9, .left),
    (.strictInequality, 9, .left),
    (.bitwiseAnd, 8, .left),
    (.bitwiseXor, 7, .left),
    (.bitwiseOr, 6, .left),
    (.logicalAnd, 5, .left),
    (.logicalOr, 4, .left),
    (.conditional, 3, .right),
    (.assignment, assignmentPrecedence, .right),
    (.assignmentAddition, assignmentPrecedence, .right),
    (.assignmentBitwiseAnd, assignmentPrecedence, .right),
    (.assignmentBitwiseLeftShift, assignmentPrecedence, .right),
    (.assignmentBitwiseOr, assignmentPrecedence, .right),
    (.assignmentBitwiseRightShift, assignmentPrecedence, .right),
    (.assignmentBitwiseUnsignedRightShift, assignmentPrecedence, .right),
    (.assignmentBitwiseXor, assignmentPrecedence, .right),
    (.assignmentDivision, assignmentPrecedence, .right),
    (.assignmentMultiplication, assignmentPrecedence, .right),
    (.assignmentRemainder, assignmentPrecedence, .right),
    (.assignmentSubtraction, assignmentPrecedence, .right),
    (.comma, 1, .left)
  ]

/-- No operator has two rows. -/
theorem nodup_table : (table.map Prod.fst).Nodup := by
  decide

/-- Every operator is found in the table. -/
theorem lookup_table (operator : Operator)
    : table.lookup operator = some (operator.precedence, operator.associativity) := by
  cases operator <;> rfl

/-- The least precedence of an operand on the right of the operator. -/
def rightPrecedence (operator : Operator) : Nat :=
  match operator.associativity with
  | .left => operator.precedence + 1
  | .right => operator.precedence

/-- The tag of an expression with the operator in the canonical form. -/
def tag : Operator → String
  | addition => "add"
  | assignment => "op_equal"
  | assignmentAddition => "op_plus_equal"
  | assignmentBitwiseAnd => "op_and_equal"
  | assignmentBitwiseLeftShift => "op_l_shift_equal"
  | assignmentBitwiseOr => "op_or_equal"
  | assignmentBitwiseRightShift => "op_r_shift_equal"
  | assignmentBitwiseUnsignedRightShift => "op_u_r_shift_equal"
  | assignmentBitwiseXor => "op_x_or_equal"
  | assignmentDivision => "op_divide_equal"
  | assignmentMultiplication => "op_multiply_equal"
  | assignmentRemainder => "op_mod_equal"
  | assignmentSubtraction => "op_minus_equal"
  | bitwiseAnd => "bit_and"
  | bitwiseLeftShift => "l_shift"
  | bitwiseNot => "bitwise_not"
  | bitwiseOr => "bit_or"
  | bitwiseRightShift => "r_shift"
  | bitwiseUnsignedRightShift => "unsigned_r_shift"
  | bitwiseXor => "bit_xor"
  | call => "function_call"
  | comma => "comma"
  | computedMemberAccess => "bracket_access"
  | conditional => "conditional"
  | delete => "delete"
  | division => "divide"
  | equality => "equal"
  | greaterThan => "greater"
  | greaterThanOrEqual => "greater_or_equal"
  | isIn => "in"
  | inequality => "not_equal"
  | instanceof => "instance_of"
  | lessThan => "less"
  | lessThanOrEqual => "less_or_equal"
  | logicalAnd => "and"
  | logicalNot => "not"
  | logicalOr => "or"
  | memberAccess => "dot_access"
  | multiplication => "multiply"
  | new => "new_expr"
  | postfixDecrement => "postfix"
  | postfixIncrement => "postfix"
  | prefixDecrement => "prefix"
  | prefixIncrement => "prefix"
  | remainder => "modulus"
  | strictEquality => "strict_equal"
  | strictInequality => "not_strict_equal"
  | subtraction => "subtract"
  | typeof => "typeof"
  | unaryNegation => "u_minus"
  | unaryPlus => "u_plus"
  | void => "void"

/-- The spelling of an increment or decrement in the canonical form. -/
def updateText : Operator → String
  | prefixIncrement | postfixIncrement => "++"
  | _ => "--"

end Operator

namespace Kind

/-- The operator that a token opens after an operand. Updates after an operand are not among them. -/
def infixOperator? : Kind → Option Operator
  | plus => some .addition
  | equals => some .assignment
  | plusEquals => some .assignmentAddition
  | ampersandEquals => some .assignmentBitwiseAnd
  | chevronLeftChevronLeftEquals => some .assignmentBitwiseLeftShift
  | barEquals => some .assignmentBitwiseOr
  | chevronRightChevronRightEquals => some .assignmentBitwiseRightShift
  | chevronRightChevronRightChevronRightEquals => some .assignmentBitwiseUnsignedRightShift
  | caretEquals => some .assignmentBitwiseXor
  | slashEquals => some .assignmentDivision
  | asteriskEquals => some .assignmentMultiplication
  | percentEquals => some .assignmentRemainder
  | hyphenEquals => some .assignmentSubtraction
  | ampersand => some .bitwiseAnd
  | chevronLeftChevronLeft => some .bitwiseLeftShift
  | bar => some .bitwiseOr
  | chevronRightChevronRight => some .bitwiseRightShift
  | chevronRightChevronRightChevronRight => some .bitwiseUnsignedRightShift
  | caret => some .bitwiseXor
  | parenthesisOpen => some .call
  | comma => some .comma
  | bracketOpen => some .computedMemberAccess
  | question => some .conditional
  | slash => some .division
  | equalsEquals => some .equality
  | chevronRight => some .greaterThan
  | chevronRightEquals => some .greaterThanOrEqual
  | keywordIn => some .isIn
  | exclamationEquals => some .inequality
  | keywordInstanceof => some .instanceof
  | chevronLeft => some .lessThan
  | chevronLeftEquals => some .lessThanOrEqual
  | ampersandAmpersand => some .logicalAnd
  | barBar => some .logicalOr
  | dot => some .memberAccess
  | asterisk => some .multiplication
  | percent => some .remainder
  | equalsEqualsEquals => some .strictEquality
  | exclamationEqualsEquals => some .strictInequality
  | hyphen => some .subtraction
  | _ => none

/-- The operator that a token opens in front of an operand. -/
def prefixOperator? : Kind → Option Operator
  | tilde => some .bitwiseNot
  | keywordDelete => some .delete
  | exclamation => some .logicalNot
  | hyphenHyphen => some .prefixDecrement
  | plusPlus => some .prefixIncrement
  | hyphen => some .unaryNegation
  | plus => some .unaryPlus
  | keywordTypeof => some .typeof
  | keywordVoid => some .void
  | _ => none

end Kind

end EcmaSyntax
