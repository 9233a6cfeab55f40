import EcmaSyntax.Tree.Basic

/-!
Outlines: the nodes of a tree, each with its depth, the name of its type and its span. A node comes
before its children, and the children come in the order of the fields that hold them. Expressions and
statements are listed twice, as such and one level deeper as what they are.
-/

namespace EcmaSyntax

/-- A node of an outline; `depth` counts the nodes around it. -/
structure OutlineNode where
  depth : Nat
  type : String
  span : Span
  deriving DecidableEq, Repr

namespace Outline

/-- An expression, as such and as what it is; what is within it begins two levels deeper. -/
def exprNodes (depth : Nat) (type : String) (span : Span) : List OutlineNode :=
  [⟨depth, "Expr", span⟩, ⟨depth + 1, type, span⟩]

/-- A statement, as such and as what it is; what is within it begins two levels deeper. -/
def stmtNodes (depth : Nat) (type : String) (span : Span) : List OutlineNode :=
  [⟨depth, "Stmt", span⟩, ⟨depth + 1, type, span⟩]

def parameters (depth : Nat) (parameters : List Parameter) : List OutlineNode :=
  parameters.map fun parameter => ⟨depth, "ParamDecl", parameter.span⟩

mutual

def expr (depth : Nat) : Expr → List OutlineNode
  | .binary span _ left right =>
      exprNodes depth "BinaryExpr" span ++ expr (depth + 2) left ++ expr (depth + 2) right
  | .call span callee arguments =>
      exprNodes depth "CallExpr" span ++ expr (depth + 2) callee ++ args (depth + 2) arguments
  | .index span object key =>
      exprNodes depth "ComputedMemberExpr" span ++ expr (depth + 2) object ++ expr (depth + 2) key
  | .conditional span test consequent alternate =>
      exprNodes depth "CondExpr" span ++ expr (depth + 2) test ++ expr (depth + 2) consequent
        ++ expr (depth + 2) alternate
  | .function span _ function => exprNodes depth "FuncExpr" span ++ func (depth + 2) function
  | .identifier span _ => exprNodes depth "IdExpr" span
  | .member span object _ => exprNodes depth "MemberExpr" span ++ expr (depth + 2) object
  | .construct span constructor arguments =>
      exprNodes depth "NewExpr" span ++ expr (depth + 2) constructor ++ args (depth + 2) arguments
  | .parenthesized span inner => exprNodes depth "ParenExpr" span ++ expr (depth + 2) inner
  | .this span => exprNodes depth "ThisExpr" span
  | .unary span _ argument => exprNodes depth "UnaryExpr" span ++ expr (depth + 2) argument
  | .update span _ argument => exprNodes depth "UnaryPostfixExpr" span ++ expr (depth + 2) argument
  | .array span items => exprNodes depth "LitArrExpr" span ++ elements (depth + 2) items
  | .boolean span _ => exprNodes depth "LitBoolExpr" span
  | .null span => exprNodes depth "LitNullExpr" span
  | .number span _ => exprNodes depth "LitNumExpr" span
  | .object span items => exprNodes depth "LitObjExpr" span ++ members (depth + 2) items
  | .regex span _ => exprNodes depth "LitRegexExpr" span
  | .string span _ => exprNodes depth "LitStrExpr" span

def exprs (depth : Nat) : List Expr → List OutlineNode
  | [] => []
  | value :: rest => expr depth value ++ exprs depth rest

def optionalExpr (depth : Nat) : Option Expr → List OutlineNode
  | none => []
  | some value => expr depth value

def args (depth : Nat) : Arguments → List OutlineNode
  | { span, values } => ⟨depth, "CallArgs", span⟩ :: exprs (depth + 1) values

def elements (depth : Nat) : List Element → List OutlineNode
  | [] => []
  | .value value :: rest => expr depth value ++ elements depth rest
  | .hole :: rest => elements depth rest

def members (depth : Nat) : List Member → List OutlineNode
  | [] => []
  | .property span _ value :: rest =>
      ⟨depth, "ObjMember", span⟩ :: expr (depth + 1) value ++ members depth rest
  | .getter span _ function :: rest =>
      ⟨depth, "ObjMember", span⟩ :: func (depth + 1) function ++ members depth rest
  | .setter span _ function :: rest =>
      ⟨depth, "ObjMember", span⟩ :: func (depth + 1) function ++ members depth rest

def func (depth : Nat) : Func → List OutlineNode
  | { span, parameters := names, body := inner } =>
      ⟨depth, "Func", span⟩ :: parameters (depth + 1) names ++ body (depth + 1) inner

def body (depth : Nat) : Body → List OutlineNode
  | { span, statements } => ⟨depth, "FuncBody", span⟩ :: stmts (depth + 1) statements

def stmt (depth : Nat) : Stmt → List OutlineNode
  | .block inner => ⟨depth, "Stmt", inner.span⟩ :: block (depth + 1) inner
  | .breakTo span _ => stmtNodes depth "BreakStmt" span
  | .continueTo span _ => stmtNodes depth "ContinueStmt" span
  | .doWhile span inner condition =>
      stmtNodes depth "DoWhileStmt" span ++ expr (depth + 2) condition ++ stmt (depth + 2) inner
  | .empty span => stmtNodes depth "EmptyStmt" span
  | .expression span value => stmtNodes depth "ExprStmt" span ++ expr (depth + 2) value
  | .forIn span target object inner =>
      stmtNodes depth "ForInStmt" span ++ forInTarget (depth + 2) target
        ++ expr (depth + 2) object ++ stmt (depth + 2) inner
  | .forLoop span start condition update inner =>
      stmtNodes depth "ForTripleStmt" span ++ forStart (depth + 2) start
        ++ optionalExpr (depth + 2) condition ++ optionalExpr (depth + 2) update
        ++ stmt (depth + 2) inner
  | .ifElse span test consequent alternate =>
      stmtNodes depth "IfStmt" span ++ expr (depth + 2) test ++ stmt (depth + 2) consequent
        ++ optionalStmt (depth + 2) alternate
  | .labelled span _ inner => stmtNodes depth "LabelStmt" span ++ stmt (depth + 2) inner
  | .returnValue span value =>
      stmtNodes depth "ReturnStmt" span ++ optionalExpr (depth + 2) value
  | .switch span test items =>
      stmtNodes depth "SwitchStmt" span ++ expr (depth + 2) test ++ branches (depth + 2) items
  | .throwValue span value => stmtNodes depth "ThrowStmt" span ++ optionalExpr (depth + 2) value
  | .tryBlock span inner catcher finalizer =>
      stmtNodes depth "TryStmt" span ++ block (depth + 2) inner ++ handler (depth + 2) catcher
        ++ optionalBlock (depth + 2) finalizer
  | .whileLoop span condition inner =>
      stmtNodes depth "WhileStmt" span ++ expr (depth + 2) condition ++ stmt (depth + 2) inner
  | .withObject span object inner =>
      stmtNodes depth "WithStmt" span ++ expr (depth + 2) object ++ stmt (depth + 2) inner
  | .function span _ function => stmtNodes depth "FuncDecl" span ++ func (depth + 2) function
  | .declaration inner => ⟨depth, "Stmt", inner.span⟩ :: declaration (depth + 1) inner

def stmts (depth : Nat) : List Stmt → List OutlineNode
  | [] => []
  | statement :: rest => stmt depth statement ++ stmts depth rest

def optionalStmt (depth : Nat) : Option Stmt → List OutlineNode
  | none => []
  | some statement => stmt depth statement

def block (depth : Nat) : Block → List OutlineNode
  | { span, statements } => ⟨depth, "BlockStmt", span⟩ :: stmts (depth + 1) statements

def optionalBlock (depth : Nat) : Option Block → List OutlineNode
  | none => []
  | some inner => block depth inner

def handler (depth : Nat) : Option Handler → List OutlineNode
  | none => []
  | some { span, parameter := _, body := inner } =>
      ⟨depth, "CatchBlock", span⟩ :: block (depth + 1) inner

def branches (depth : Nat) : List Branch → List OutlineNode
  | [] => []
  | { span, test, body := statements } :: rest =>
      ⟨depth, "SwitchBranch", span⟩ :: optionalExpr (depth + 1) test
        ++ stmts (depth + 1) statements ++ branches depth rest

def forInTarget (depth : Nat) : ForInTarget → List OutlineNode
  | .declaration inner => declaration depth inner
  | .expression target => expr depth target

def forStart (depth : Nat) : ForStart → List OutlineNode
  | .nothing => []
  | .expression value => expr depth value
  | .declaration inner => declaration depth inner

def declaration (depth : Nat) : Declaration → List OutlineNode
  | { span, mode := _, declarators := items } =>
      ⟨depth, "VarDecl", span⟩ :: declarators (depth + 1) items

def declarators (depth : Nat) : List Declarator → List OutlineNode
  | [] => []
  | { name := _, initializer := none } :: rest => declarators depth rest
  | { name := _, initializer := some { span, value } } :: rest =>
      ⟨depth, "VarInitializer", span⟩ :: expr (depth + 1) value ++ declarators depth rest

end

end Outline

/-- The outline of a program. -/
def Program.outline (program : Program) : List OutlineNode :=
  ⟨0, "Program", program.span⟩ :: Outline.stmts 1 program.body

end EcmaSyntax
