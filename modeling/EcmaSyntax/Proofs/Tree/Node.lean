import EcmaSyntax.Tree.Outline

/-! The nodes of a tree, whatever they are, and the nodes right below each. A statement that is a block or
a declaration has that block or declaration below it; every other statement and every expression is one
node.
-/

namespace EcmaSyntax

/-- A node of a tree. Declarators, holes of arrays and the clauses of `for` headers carry no span and are
no nodes.
-/
inductive Node where
  | program (program : Program)
  | statement (statement : Stmt)
  | expression (value : Expr)
  | arguments (arguments : Arguments)
  | member (member : Member)
  | function (function : Func)
  | parameter (parameter : Parameter)
  | body (body : Body)
  | block (block : Block)
  | handler (handler : Handler)
  | branch (branch : Branch)
  | declaration (declaration : Declaration)
  | initializer (initializer : Initializer)

-----------------------------------------------------------------------------------------
-- The nodes right below a node
-----------------------------------------------------------------------------------------

def Element.children : Element → List Node
  | value inner => [.expression inner]
  | hole => []

def Declarator.children (declarator : Declarator) : List Node :=
  declarator.initializer.toList.map .initializer

def ForInTarget.children : ForInTarget → List Node
  | declaration inner => [.declaration inner]
  | expression target => [.expression target]

def ForStart.children : ForStart → List Node
  | nothing => []
  | expression value => [.expression value]
  | declaration inner => [.declaration inner]

def Expr.children : Expr → List Node
  | binary _ _ left right => [.expression left, .expression right]
  | call _ callee arguments => [.expression callee, .arguments arguments]
  | index _ target key => [.expression target, .expression key]
  | conditional _ test consequent alternate =>
      [.expression test, .expression consequent, .expression alternate]
  | function _ _ inner => [.function inner]
  | member _ target _ => [.expression target]
  | construct _ constructor arguments => [.expression constructor, .arguments arguments]
  | parenthesized _ inner => [.expression inner]
  | unary _ _ argument => [.expression argument]
  | update _ _ argument => [.expression argument]
  | array _ elements => elements.flatMap Element.children
  | object _ members => members.map .member
  | identifier .. | this _ | boolean .. | null _ | number .. | regex .. | string .. => []

def Stmt.children : Stmt → List Node
  | block inner => [.block inner]
  | breakTo .. | continueTo .. | empty _ => []
  | doWhile _ body condition => [.expression condition, .statement body]
  | expression _ value => [.expression value]
  | forIn _ target object body =>
      target.children ++ [.expression object, .statement body]
  | forLoop _ start condition update body =>
      start.children ++ condition.toList.map .expression ++ update.toList.map .expression
        ++ [.statement body]
  | ifElse _ test consequent alternate =>
      .expression test :: .statement consequent :: alternate.toList.map .statement
  | labelled _ _ inner => [.statement inner]
  | returnValue _ value => value.toList.map .expression
  | switch _ test branches => .expression test :: branches.map .branch
  | throwValue _ value => value.toList.map .expression
  | tryBlock _ inner handler finalizer =>
      .block inner :: (handler.toList.map .handler ++ finalizer.toList.map .block)
  | whileLoop _ condition body => [.expression condition, .statement body]
  | withObject _ object body => [.expression object, .statement body]
  | function _ _ inner => [.function inner]
  | declaration inner => [.declaration inner]

def Member.children : Member → List Node
  | property _ _ value => [.expression value]
  | getter _ _ function | setter _ _ function => [.function function]

namespace Node

def span : Node → Span
  | program inner => inner.span
  | statement inner => inner.span
  | expression inner => inner.span
  | arguments inner => inner.span
  | member inner => inner.span
  | function inner => inner.span
  | parameter inner => inner.span
  | body inner => inner.span
  | block inner => inner.span
  | handler inner => inner.span
  | branch inner => inner.span
  | declaration inner => inner.span
  | initializer inner => inner.span

/-- The nodes right below a node, in the order of the fields that hold them. -/
def children : Node → List Node
  | program inner => inner.body.map .statement
  | statement inner => inner.children
  | expression inner => inner.children
  | arguments inner => inner.values.map .expression
  | member inner => inner.children
  | function inner => inner.parameters.map .parameter ++ [.body inner.body]
  | parameter _ => []
  | body inner => inner.statements.map .statement
  | block inner => inner.statements.map .statement
  | handler inner => [.block inner.body]
  | branch inner => inner.test.toList.map .expression ++ inner.body.map .statement
  | declaration inner => inner.declarators.flatMap Declarator.children
  | initializer inner => [.expression inner.value]

/-- The nodes of the tree below a node, at any depth, and the node itself. -/
inductive Within (root : Node) : Node → Prop
  | self : Within root root
  | child {parent child : Node} (within : Within root parent) (below : child ∈ parent.children)
    : Within root child

/-- What is in a tree is in every tree that this one is in. -/
theorem Within.trans {root middle node : Node} (outer : middle.Within node)
    (inner : root.Within middle)
    : root.Within node := by
  induction outer with
  | self => exact inner
  | child _ below ih => exact ih.child below

/-- What lies below a node, apart from the node itself, lies below one of its children: a path to it goes
through a child first, by induction on the path.
-/
theorem within_iff {root node : Node}
    : root.Within node ↔ root = node ∨ ∃ child ∈ root.children, child.Within node := by
  constructor
  · intro within
    induction within with
    | self => exact .inl rfl
    | child _ below ih =>
        rcases ih with rfl | ⟨child, listed, within⟩
        · exact .inr ⟨_, below, .self⟩
        · exact .inr ⟨child, listed, within.child below⟩
  · rintro (rfl | ⟨child, listed, within⟩)
    · exact .self
    · exact within.trans (.child .self listed)

/-- The condition holds of every node of the tree below the node. -/
def Everywhere (condition : Node → Prop) (node : Node) : Prop :=
  ∀ inner, node.Within inner → condition inner

/-- What holds everywhere in a tree holds everywhere below its root. -/
theorem Everywhere.child {condition : Node → Prop} {node child : Node}
    (everywhere : node.Everywhere condition) (below : child ∈ node.children)
    : child.Everywhere condition :=
  fun inner within => everywhere inner (within.trans (.child .self below))

/-- What holds of a node and everywhere below its children holds everywhere below it. -/
theorem Everywhere.intro {condition : Node → Prop} {node : Node} (self : condition node)
    (children : ∀ child ∈ node.children, child.Everywhere condition)
    : node.Everywhere condition := by
  intro inner within
  rcases within_iff.mp within with rfl | ⟨child, listed, within⟩
  · exact self
  · exact children child listed inner within

/-- A condition that holds everywhere may be weakened. -/
theorem Everywhere.mono {condition other : Node → Prop} {node : Node}
    (everywhere : node.Everywhere condition) (weaker : ∀ inner, condition inner → other inner)
    : node.Everywhere other :=
  fun inner within => weaker inner (everywhere inner within)

theorem Everywhere.self {condition : Node → Prop} {node : Node}
    (everywhere : node.Everywhere condition)
    : condition node :=
  everywhere node .self

/-- The condition holds of every expression of the tree below the node. -/
def Each (condition : Expr → Prop) (node : Node) : Prop :=
  ∀ value, node.Within (.expression value) → condition value

/-- What holds of each expression in a tree holds of each below its root. -/
theorem Each.child {condition : Expr → Prop} {node child : Node} (each : node.Each condition)
    (below : child ∈ node.children)
    : child.Each condition :=
  fun value within => each value (within.trans (.child .self below))

theorem Each.self {condition : Expr → Prop} {value : Expr}
    (each : (expression value).Each condition)
    : condition value :=
  each value .self

-----------------------------------------------------------------------------------------
-- Nodes and outlines
-----------------------------------------------------------------------------------------

/-- The outline of the tree below a node that lies at the depth. -/
def outline (depth : Nat) : Node → List OutlineNode
  | program inner => ⟨depth, "Program", inner.span⟩ :: Outline.stmts (depth + 1) inner.body
  | statement inner => Outline.stmt depth inner
  | expression inner => Outline.expr depth inner
  | arguments inner => Outline.args depth inner
  | member inner => Outline.members depth [inner]
  | function inner => Outline.func depth inner
  | parameter inner => Outline.parameters depth [inner]
  | body inner => Outline.body depth inner
  | block inner => Outline.block depth inner
  | handler inner => Outline.handler depth (some inner)
  | branch inner => Outline.branches depth [inner]
  | declaration inner => Outline.declaration depth inner
  | initializer inner =>
      Outline.declarators depth [{ name := "", initializer := some inner }]

/-- The outline of a statement as a node is its outline; a block or a declaration is listed once. -/
@[simp]
theorem outline_statement (depth : Nat) (inner : Stmt)
    : outline depth (statement inner) = Outline.stmt depth inner :=
  rfl

@[simp]
theorem outline_expression (depth : Nat) (value : Expr)
    : outline depth (expression value) = Outline.expr depth value :=
  rfl

@[simp]
theorem outline_block (depth : Nat) (inner : Block)
    : outline depth (block inner) = Outline.block depth inner :=
  rfl

@[simp]
theorem outline_declaration (depth : Nat) (inner : Declaration)
    : outline depth (declaration inner) = Outline.declaration depth inner :=
  rfl

@[simp]
theorem outline_function (depth : Nat) (inner : Func)
    : outline depth (function inner) = Outline.func depth inner :=
  rfl

end Node

namespace Outline

variable {depth : Nat}

/-- The outline of statements lists one after the other. -/
theorem stmts_eq_flatMap (statements : List Stmt)
    : stmts depth statements = (statements.map Node.statement).flatMap (Node.outline depth) := by
  induction statements with
  | nil => simp [stmts]
  | cons statement rest ih => simp [stmts, Node.outline, ih]

theorem exprs_eq_flatMap (values : List Expr)
    : exprs depth values = (values.map Node.expression).flatMap (Node.outline depth) := by
  induction values with
  | nil => simp [exprs]
  | cons value rest ih => simp [exprs, Node.outline, ih]

/-- The outline of elements lists their values; holes are no nodes. -/
theorem elements_eq_flatMap (items : List Element)
    : elements depth items = (items.flatMap Element.children).flatMap (Node.outline depth) := by
  induction items with
  | nil => simp [elements]
  | cons item rest ih => cases item <;> simp [elements, Element.children, Node.outline, ih]

theorem members_eq_flatMap (items : List Member)
    : members depth items = (items.map Node.member).flatMap (Node.outline depth) := by
  induction items with
  | nil => simp [members]
  | cons item rest ih => cases item <;> simp [members, Node.outline, ih]

theorem parameters_eq_flatMap (items : List Parameter)
    : parameters depth items = (items.map Node.parameter).flatMap (Node.outline depth) := by
  induction items with
  | nil => simp [parameters]
  | cons item rest ih => simp_all [parameters, Node.outline]

theorem branches_eq_flatMap (items : List Branch)
    : branches depth items = (items.map Node.branch).flatMap (Node.outline depth) := by
  induction items with
  | nil => simp [branches]
  | cons item rest ih =>
      obtain ⟨span, test, body⟩ := item
      simp [branches, Node.outline, ih]

/-- The outline of declarators lists their initializers. -/
theorem declarators_eq_flatMap (items : List Declarator)
    : declarators depth items
      = (items.flatMap Declarator.children).flatMap (Node.outline depth) := by
  induction items with
  | nil => simp [declarators]
  | cons item rest ih =>
      obtain ⟨name, _ | ⟨span, value⟩⟩ := item <;>
        simp [declarators, Declarator.children, Node.outline, ih]

/-- The outline of an expression that may be left out lists it if there is one. -/
theorem optionalExpr_eq_flatMap (value : Option Expr)
    : optionalExpr depth value
      = (value.toList.map Node.expression).flatMap (Node.outline depth) := by
  cases value <;> simp [optionalExpr, Node.outline]

theorem optionalStmt_eq_flatMap (statement : Option Stmt)
    : optionalStmt depth statement
      = (statement.toList.map Node.statement).flatMap (Node.outline depth) := by
  cases statement <;> simp [optionalStmt, Node.outline]

theorem optionalBlock_eq_flatMap (inner : Option Block)
    : optionalBlock depth inner
      = (inner.toList.map Node.block).flatMap (Node.outline depth) := by
  cases inner <;> simp [optionalBlock, Node.outline]

theorem handler_eq_flatMap (inner : Option Handler)
    : handler depth inner = (inner.toList.map Node.handler).flatMap (Node.outline depth) := by
  obtain _ | ⟨span, parameter, body⟩ := inner <;> simp [handler, Node.outline]

/-- The outline of a target lists what is below it; the target is no node. -/
theorem forInTarget_eq_flatMap (target : ForInTarget)
    : forInTarget depth target = target.children.flatMap (Node.outline depth) := by
  cases target <;> simp [forInTarget, ForInTarget.children, Node.outline]

/-- The outline of a first clause lists what is below it; the clause is no node. -/
theorem forStart_eq_flatMap (start : ForStart)
    : forStart depth start = start.children.flatMap (Node.outline depth) := by
  cases start <;> simp [forStart, ForStart.children, Node.outline]

end Outline

/-- An outline lists a node, twice if it is an expression or a statement with a content of its own, and
then what lies below each of its children.
-/
theorem Node.outline_eq (node : Node) (depth : Nat)
    : ∃ heads,
        heads ≠ []
        ∧ (∀ head ∈ heads, head.span = node.span)
        ∧ node.outline depth
          = heads ++ node.children.flatMap (Node.outline (depth + heads.length)) := by
  cases node with
  | expression value =>
      refine ⟨(Outline.expr depth value).take 2, ?_⟩
      cases value <;>
        simp [Node.outline, Outline.expr, Outline.exprNodes, children, Expr.children, span,
          Expr.span, Outline.elements_eq_flatMap, Outline.members_eq_flatMap]
  | statement statement =>
      cases same : statement with
      | block | declaration =>
          refine ⟨(Outline.stmt depth statement).take 1, ?_⟩
          simp [same, Outline.stmt, children, Stmt.children, span, Stmt.span]
      | _ =>
          refine ⟨(Outline.stmt depth statement).take 2, ?_⟩
          simp [same, Outline.stmt, Outline.stmtNodes, children, Stmt.children, span, Stmt.span,
            Outline.forInTarget_eq_flatMap, Outline.forStart_eq_flatMap,
            Outline.optionalExpr_eq_flatMap, Outline.optionalStmt_eq_flatMap,
            Outline.branches_eq_flatMap, Outline.handler_eq_flatMap,
            Outline.optionalBlock_eq_flatMap]
  | program program =>
      exact ⟨[⟨depth, "Program", program.span⟩], by simp [span, Node.outline, children,
        Outline.stmts_eq_flatMap]⟩
  | arguments arguments =>
      obtain ⟨place, values⟩ := arguments
      exact ⟨[⟨depth, "CallArgs", place⟩], by simp [span, Node.outline, children, Outline.args,
        Outline.exprs_eq_flatMap]⟩
  | member member =>
      refine ⟨[⟨depth, "ObjMember", member.span⟩], ?_⟩
      cases member <;>
        simp [span, Node.outline, children, Member.children, Member.span, Outline.members]
  | function function =>
      obtain ⟨place, parameters, body⟩ := function
      exact ⟨[⟨depth, "Func", place⟩], by simp [span, Node.outline, children, Outline.func,
        Outline.parameters_eq_flatMap]⟩
  | parameter parameter =>
      exact ⟨[⟨depth, "ParamDecl", parameter.span⟩], by simp [span, Node.outline, children,
        Outline.parameters]⟩
  | body body =>
      obtain ⟨place, statements⟩ := body
      exact ⟨[⟨depth, "FuncBody", place⟩], by simp [span, Node.outline, children, Outline.body,
        Outline.stmts_eq_flatMap]⟩
  | block block =>
      obtain ⟨place, statements⟩ := block
      exact ⟨[⟨depth, "BlockStmt", place⟩], by simp [span, Node.outline, children, Outline.block,
        Outline.stmts_eq_flatMap]⟩
  | handler handler =>
      obtain ⟨place, parameter, body⟩ := handler
      exact ⟨[⟨depth, "CatchBlock", place⟩], by simp [span, Node.outline, children, Outline.handler]⟩
  | branch branch =>
      obtain ⟨place, test, body⟩ := branch
      exact ⟨[⟨depth, "SwitchBranch", place⟩], by simp [span, Node.outline, children,
        Outline.branches, Outline.optionalExpr_eq_flatMap, Outline.stmts_eq_flatMap]⟩
  | declaration declaration =>
      obtain ⟨place, mode, declarators⟩ := declaration
      exact ⟨[⟨depth, "VarDecl", place⟩], by simp [span, Node.outline, children,
        Outline.declaration, Outline.declarators_eq_flatMap]⟩
  | initializer initializer =>
      obtain ⟨place, value⟩ := initializer
      exact ⟨[⟨depth, "VarInitializer", place⟩], by simp [span, Node.outline, children,
        Outline.declarators]⟩

end EcmaSyntax
