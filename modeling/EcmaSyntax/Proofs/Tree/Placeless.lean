import EcmaSyntax.Form.OfTree
import EcmaSyntax.Proofs.Tree.Grouping
import Mathlib.Logic.Basic

/-! Trees without their places. Two trees that are the same without them differ in the spans of their
nodes only, and have the same form.
-/

namespace EcmaSyntax

/-- The span that stands for all spans. -/
def Span.nowhere : Span := Span.point 0

namespace Placeless

mutual

/-- The expression without the places of its nodes. -/
def ofExpr : Expr → Expr
  | .binary _ operator left right => .binary .nowhere operator (ofExpr left) (ofExpr right)
  | .call _ callee arguments => .call .nowhere (ofExpr callee) (ofArguments arguments)
  | .index _ object key => .index .nowhere (ofExpr object) (ofExpr key)
  | .conditional _ test consequent alternate =>
      .conditional .nowhere (ofExpr test) (ofExpr consequent) (ofExpr alternate)
  | .function _ name function => .function .nowhere name (ofFunc function)
  | .identifier _ name => .identifier .nowhere name
  | .member _ object name => .member .nowhere (ofExpr object) name
  | .construct _ constructor arguments =>
      .construct .nowhere (ofExpr constructor) (ofArguments arguments)
  | .parenthesized _ inner => .parenthesized .nowhere (ofExpr inner)
  | .this _ => .this .nowhere
  | .unary _ operator argument => .unary .nowhere operator (ofExpr argument)
  | .update _ operator argument => .update .nowhere operator (ofExpr argument)
  | .array _ elements => .array .nowhere (ofElements elements)
  | .boolean _ value => .boolean .nowhere value
  | .null _ => .null .nowhere
  | .number _ value => .number .nowhere value
  | .object _ members => .object .nowhere (ofMembers members)
  | .regex _ text => .regex .nowhere text
  | .string _ value => .string .nowhere value

def ofExprs : List Expr → List Expr
  | [] => []
  | value :: rest => ofExpr value :: ofExprs rest

def ofOptionalExpr : Option Expr → Option Expr
  | none => none
  | some value => some (ofExpr value)

def ofArguments : Arguments → Arguments
  | { span := _, values } => { span := .nowhere, values := ofExprs values }

def ofElement : Element → Element
  | .value value => .value (ofExpr value)
  | .hole => .hole

def ofElements : List Element → List Element
  | [] => []
  | element :: rest => ofElement element :: ofElements rest

def ofMember : Member → Member
  | .property _ key value => .property .nowhere key (ofExpr value)
  | .getter _ key function => .getter .nowhere key (ofFunc function)
  | .setter _ key function => .setter .nowhere key (ofFunc function)

def ofMembers : List Member → List Member
  | [] => []
  | member :: rest => ofMember member :: ofMembers rest

def ofParameters : List Parameter → List Parameter
  | [] => []
  | { span := _, name } :: rest => { span := .nowhere, name } :: ofParameters rest

def ofFunc : Func → Func
  | { span := _, parameters, body } =>
      {
        span := .nowhere
        parameters := ofParameters parameters
        body := ofBody body
      }

def ofBody : Body → Body
  | { span := _, statements } => { span := .nowhere, statements := ofStmts statements }

def ofStmt : Stmt → Stmt
  | .block block => .block (ofBlock block)
  | .breakTo _ label => .breakTo .nowhere label
  | .continueTo _ label => .continueTo .nowhere label
  | .doWhile _ body condition => .doWhile .nowhere (ofStmt body) (ofExpr condition)
  | .empty _ => .empty .nowhere
  | .expression _ value => .expression .nowhere (ofExpr value)
  | .forIn _ target object body =>
      .forIn .nowhere (ofForInTarget target) (ofExpr object) (ofStmt body)
  | .forLoop _ start condition update body =>
      .forLoop .nowhere (ofForStart start) (ofOptionalExpr condition) (ofOptionalExpr update)
        (ofStmt body)
  | .ifElse _ test consequent alternate =>
      .ifElse .nowhere (ofExpr test) (ofStmt consequent) (ofOptionalStmt alternate)
  | .labelled _ label statement => .labelled .nowhere label (ofStmt statement)
  | .returnValue _ value => .returnValue .nowhere (ofOptionalExpr value)
  | .switch _ test branches => .switch .nowhere (ofExpr test) (ofBranches branches)
  | .throwValue _ value => .throwValue .nowhere (ofOptionalExpr value)
  | .tryBlock _ block handler finalizer =>
      .tryBlock .nowhere (ofBlock block) (ofOptionalHandler handler) (ofOptionalBlock finalizer)
  | .whileLoop _ condition body => .whileLoop .nowhere (ofExpr condition) (ofStmt body)
  | .withObject _ object body => .withObject .nowhere (ofExpr object) (ofStmt body)
  | .function _ name function => .function .nowhere name (ofFunc function)
  | .declaration declaration => .declaration (ofDeclaration declaration)

def ofStmts : List Stmt → List Stmt
  | [] => []
  | statement :: rest => ofStmt statement :: ofStmts rest

def ofOptionalStmt : Option Stmt → Option Stmt
  | none => none
  | some statement => some (ofStmt statement)

def ofBlock : Block → Block
  | { span := _, statements } => { span := .nowhere, statements := ofStmts statements }

def ofOptionalBlock : Option Block → Option Block
  | none => none
  | some block => some (ofBlock block)

def ofHandler : Handler → Handler
  | { span := _, parameter, body } => { span := .nowhere, parameter, body := ofBlock body }

def ofOptionalHandler : Option Handler → Option Handler
  | none => none
  | some handler => some (ofHandler handler)

def ofBranch : Branch → Branch
  | { span := _, test, body } =>
      { span := .nowhere, test := ofOptionalExpr test, body := ofStmts body }

def ofBranches : List Branch → List Branch
  | [] => []
  | branch :: rest => ofBranch branch :: ofBranches rest

def ofForInTarget : ForInTarget → ForInTarget
  | .declaration declaration => .declaration (ofDeclaration declaration)
  | .expression target => .expression (ofExpr target)

def ofForStart : ForStart → ForStart
  | .nothing => .nothing
  | .expression value => .expression (ofExpr value)
  | .declaration declaration => .declaration (ofDeclaration declaration)

def ofDeclaration : Declaration → Declaration
  | { span := _, mode, declarators } =>
      { span := .nowhere, mode, declarators := ofDeclarators declarators }

def ofDeclarator : Declarator → Declarator
  | { name, initializer } => { name, initializer := ofOptionalInitializer initializer }

def ofDeclarators : List Declarator → List Declarator
  | [] => []
  | declarator :: rest => ofDeclarator declarator :: ofDeclarators rest

def ofInitializer : Initializer → Initializer
  | { span := _, value } => { span := .nowhere, value := ofExpr value }

def ofOptionalInitializer : Option Initializer → Option Initializer
  | none => none
  | some initializer => some (ofInitializer initializer)

end

end Placeless

namespace Expr

/-- The level of an expression does not depend on places, by cases on its form. -/
@[simp]
theorem level_placeless (value : Expr) : (Placeless.ofExpr value).level = value.level := by
  cases value <;> simp [Placeless.ofExpr, level]

/-- Whether an expression can be assigned to does not depend on places. -/
@[simp]
theorem isAssignmentTarget_placeless (value : Expr)
    : (Placeless.ofExpr value).isAssignmentTarget = value.isAssignmentTarget := by
  fun_induction isAssignmentTarget value with
  | case4 span inner ih => rw [Placeless.ofExpr, isAssignmentTarget, ih]
  | case5 value noIdentifier noMember noIndex noParentheses =>
      cases value <;> simp_all [Placeless.ofExpr, isAssignmentTarget]
  | _ => simp [Placeless.ofExpr, isAssignmentTarget]

/-- Two expressions that differ in the places of their nodes only. -/
def Alike (first second : Expr) : Prop :=
  Placeless.ofExpr first = Placeless.ofExpr second

/-- The expressions are alike, one by one. -/
def AllAlike (first second : List Expr) : Prop :=
  Placeless.ofExprs first = Placeless.ofExprs second

end Expr

/-- Two argument lists that differ in places only. -/
def Arguments.Alike (first second : Arguments) : Prop :=
  Placeless.ofArguments first = Placeless.ofArguments second

/-- Two lists of elements that differ in places only. -/
def Element.AllAlike (first second : List Element) : Prop :=
  Placeless.ofElements first = Placeless.ofElements second

namespace Expr

variable {first second third first' second' third' : Expr} {span span' : Span}

/-- Expressions alike are of one level. -/
theorem Alike.level_eq (alike : first.Alike second) : first.level = second.level := by
  rw [← level_placeless first, alike, level_placeless]

/-- Of expressions alike, both can be assigned to or none. -/
theorem Alike.isAssignmentTarget_eq (alike : first.Alike second)
    : first.isAssignmentTarget = second.isAssignmentTarget := by
  rw [← isAssignmentTarget_placeless first, alike, isAssignmentTarget_placeless]

-----------------------------------------------------------------------------------------
-- Expressions of alike parts
-----------------------------------------------------------------------------------------

theorem alike_identifier {name : String} : (identifier span name).Alike (identifier span' name) := rfl

theorem alike_this : (this span).Alike (this span') := rfl

theorem alike_boolean {value : Bool} : (boolean span value).Alike (boolean span' value) := rfl

theorem alike_null : (null span).Alike (null span') := rfl

/-- Parentheses around expressions alike are alike, and so are the other forms made of such. -/
theorem Alike.parenthesized (alike : first.Alike first')
    : (parenthesized span first).Alike (parenthesized span' first') :=
  congrArg (Expr.parenthesized .nowhere) alike

/-- Arrays of elements alike are alike. -/
theorem Alike.array {elements elements' : List Element}
    (alike : Element.AllAlike elements elements')
    : (array span elements).Alike (array span' elements') :=
  congrArg (Expr.array .nowhere) alike

theorem Alike.member {name : String} (alike : first.Alike first')
    : (member span first name).Alike (member span' first' name) :=
  congrArg (Expr.member .nowhere · name) alike

theorem Alike.index (alike : first.Alike first') (key : second.Alike second')
    : (index span first second).Alike (index span' first' second') :=
  congrArg₂ (Expr.index .nowhere) alike key

theorem Alike.call {values values' : Arguments} (alike : first.Alike first')
    (arguments : values.Alike values')
    : (call span first values).Alike (call span' first' values') :=
  congrArg₂ (Expr.call .nowhere) alike arguments

theorem Alike.construct {values values' : Arguments} (alike : first.Alike first')
    (arguments : values.Alike values')
    : (construct span first values).Alike (construct span' first' values') :=
  congrArg₂ (Expr.construct .nowhere) alike arguments

theorem Alike.unary {operator : Operator} (alike : first.Alike first')
    : (unary span operator first).Alike (unary span' operator first') :=
  congrArg (Expr.unary .nowhere operator) alike

theorem Alike.update {operator : Operator} (alike : first.Alike first')
    : (update span operator first).Alike (update span' operator first') :=
  congrArg (Expr.update .nowhere operator) alike

/-- One operator between operands alike makes expressions alike. -/
theorem Alike.binary {operator : Operator} (left : first.Alike first')
    (right : second.Alike second')
    : (binary span operator first second).Alike (binary span' operator first' second') :=
  congrArg₂ (Expr.binary .nowhere operator) left right

theorem Alike.conditional (test : first.Alike first') (consequent : second.Alike second')
    (alternate : third.Alike third')
    : (conditional span first second third).Alike (conditional span' first' second' third') :=
  (congrArg₂ (Expr.conditional .nowhere · · _) test consequent).trans
    (congrArg (Expr.conditional .nowhere _ _) alternate)

/-- Lists of expressions are alike if their first ones and the others are. -/
theorem AllAlike.cons {rest rest' : List Expr} (alike : first.Alike first')
    (others : AllAlike rest rest')
    : AllAlike (first :: rest) (first' :: rest') :=
  congrArg₂ List.cons alike others

end Expr

/-- Arguments are alike if their values are, wherever the parentheses are. -/
theorem Arguments.Alike.of_values {span span' : Span} {values values' : List Expr}
    (alike : Expr.AllAlike values values')
    : Arguments.Alike { span, values } { span := span', values := values' } :=
  congrArg (Arguments.mk .nowhere) alike

/-- Holes in front of elements alike make no difference. -/
theorem Element.AllAlike.hole {rest rest' : List Element} (others : AllAlike rest rest')
    : AllAlike (.hole :: rest) (.hole :: rest') :=
  congrArg (List.cons Element.hole) others

/-- Lists of elements are alike if their first values and the others are. -/
theorem Element.AllAlike.value {value value' : Expr} {rest rest' : List Element}
    (alike : value.Alike value') (others : AllAlike rest rest')
    : AllAlike (.value value :: rest) (.value value' :: rest') :=
  congrArg₂ (fun value => List.cons (Element.value value)) alike others

end EcmaSyntax
