import EcmaSyntax.Proofs.Tree.Induction

/-! The expressions in a tree, at any depth. Functions contain statements, so the lists for expressions
and for statements are made together.
-/

namespace EcmaSyntax.Nodes

mutual

/-- The expression with all expressions in it. -/
def ofExpr : Expr → List Expr
  | .binary span operator left right =>
      .binary span operator left right :: (ofExpr left ++ ofExpr right)
  | .call span callee arguments =>
      .call span callee arguments :: (ofExpr callee ++ ofArguments arguments)
  | .index span object key => .index span object key :: (ofExpr object ++ ofExpr key)
  | .conditional span test consequent alternate =>
      .conditional span test consequent alternate
        :: (ofExpr test ++ ofExpr consequent ++ ofExpr alternate)
  | .function span name function => .function span name function :: ofFunc function
  | .identifier span name => [.identifier span name]
  | .member span object name => .member span object name :: ofExpr object
  | .construct span constructor arguments =>
      .construct span constructor arguments :: (ofExpr constructor ++ ofArguments arguments)
  | .parenthesized span inner => .parenthesized span inner :: ofExpr inner
  | .this span => [.this span]
  | .unary span operator argument => .unary span operator argument :: ofExpr argument
  | .update span operator argument => .update span operator argument :: ofExpr argument
  | .array span elements => .array span elements :: ofElements elements
  | .boolean span value => [.boolean span value]
  | .null span => [.null span]
  | .number span value => [.number span value]
  | .object span members => .object span members :: ofMembers members
  | .regex span text => [.regex span text]
  | .string span value => [.string span value]

def ofExprs : List Expr → List Expr
  | [] => []
  | value :: rest => ofExpr value ++ ofExprs rest

def ofOptionalExpr : Option Expr → List Expr
  | none => []
  | some value => ofExpr value

def ofArguments : Arguments → List Expr
  | { span := _, values } => ofExprs values

def ofElements : List Element → List Expr
  | [] => []
  | .value value :: rest => ofExpr value ++ ofElements rest
  | .hole :: rest => ofElements rest

def ofMember : Member → List Expr
  | .property _ _ value => ofExpr value
  | .getter _ _ function | .setter _ _ function => ofFunc function

def ofMembers : List Member → List Expr
  | [] => []
  | member :: rest => ofMember member ++ ofMembers rest

def ofFunc : Func → List Expr
  | { span := _, parameters := _, body } => ofBody body

def ofBody : Body → List Expr
  | { span := _, statements } => ofStmts statements

def ofStmt : Stmt → List Expr
  | .block block => ofBlock block
  | .breakTo .. | .continueTo .. | .empty _ => []
  | .doWhile _ body condition => ofStmt body ++ ofExpr condition
  | .expression _ value => ofExpr value
  | .forIn _ target object body => ofForInTarget target ++ ofExpr object ++ ofStmt body
  | .forLoop _ start condition update body =>
      ofForStart start ++ ofOptionalExpr condition ++ ofOptionalExpr update ++ ofStmt body
  | .ifElse _ test consequent alternate =>
      ofExpr test ++ ofStmt consequent ++ ofOptionalStmt alternate
  | .labelled _ _ statement => ofStmt statement
  | .returnValue _ value | .throwValue _ value => ofOptionalExpr value
  | .switch _ test branches => ofExpr test ++ ofBranches branches
  | .tryBlock _ block handler finalizer =>
      ofBlock block ++ ofOptionalHandler handler ++ ofOptionalBlock finalizer
  | .whileLoop _ condition body => ofExpr condition ++ ofStmt body
  | .withObject _ object body => ofExpr object ++ ofStmt body
  | .function _ _ function => ofFunc function
  | .declaration declaration => ofDeclaration declaration

def ofStmts : List Stmt → List Expr
  | [] => []
  | statement :: rest => ofStmt statement ++ ofStmts rest

def ofOptionalStmt : Option Stmt → List Expr
  | none => []
  | some statement => ofStmt statement

def ofBlock : Block → List Expr
  | { span := _, statements } => ofStmts statements

def ofOptionalBlock : Option Block → List Expr
  | none => []
  | some block => ofBlock block

def ofHandler : Handler → List Expr
  | { span := _, parameter := _, body } => ofBlock body

def ofOptionalHandler : Option Handler → List Expr
  | none => []
  | some handler => ofHandler handler

def ofBranch : Branch → List Expr
  | { span := _, test, body } => ofOptionalExpr test ++ ofStmts body

def ofBranches : List Branch → List Expr
  | [] => []
  | branch :: rest => ofBranch branch ++ ofBranches rest

def ofForInTarget : ForInTarget → List Expr
  | .declaration declaration => ofDeclaration declaration
  | .expression target => ofExpr target

def ofForStart : ForStart → List Expr
  | .nothing => []
  | .expression value => ofExpr value
  | .declaration declaration => ofDeclaration declaration

def ofDeclaration : Declaration → List Expr
  | { span := _, mode := _, declarators } => ofDeclarators declarators

def ofDeclarator : Declarator → List Expr
  | { name := _, initializer } => ofOptionalInitializer initializer

def ofDeclarators : List Declarator → List Expr
  | [] => []
  | declarator :: rest => ofDeclarator declarator ++ ofDeclarators rest

def ofInitializer : Initializer → List Expr
  | { span := _, value } => ofExpr value

def ofOptionalInitializer : Option Initializer → List Expr
  | none => []
  | some initializer => ofInitializer initializer

end

theorem ofExprs_eq_flatMap (values : List Expr) : ofExprs values = values.flatMap ofExpr := by
  induction values with
  | nil => simp [ofExprs]
  | cons value rest ih => simp [ofExprs, ih]

theorem ofMembers_eq_flatMap (members : List Member)
    : ofMembers members = members.flatMap ofMember := by
  induction members with
  | nil => simp [ofMembers]
  | cons member rest ih => simp [ofMembers, ih]

/-- The expressions in statements are those of one after the other. -/
theorem ofStmts_eq_flatMap (statements : List Stmt)
    : ofStmts statements = statements.flatMap ofStmt := by
  induction statements with
  | nil => simp [ofStmts]
  | cons statement rest ih => simp [ofStmts, ih]

theorem ofOptionalBlock_eq_flatMap (block : Option Block)
    : ofOptionalBlock block = block.toList.flatMap ofBlock := by
  cases block <;> simp [ofOptionalBlock]

theorem ofOptionalHandler_eq_flatMap (handler : Option Handler)
    : ofOptionalHandler handler = handler.toList.flatMap ofHandler := by
  cases handler <;> simp [ofOptionalHandler]

theorem ofBranches_eq_flatMap (branches : List Branch)
    : ofBranches branches = branches.flatMap ofBranch := by
  induction branches with
  | nil => simp [ofBranches]
  | cons branch rest ih => simp [ofBranches, ih]

theorem ofDeclarators_eq_flatMap (declarators : List Declarator)
    : ofDeclarators declarators = declarators.flatMap ofDeclarator := by
  induction declarators with
  | nil => simp [ofDeclarators]
  | cons declarator rest ih => simp [ofDeclarators, ih]

end EcmaSyntax.Nodes

namespace EcmaSyntax

/-- All expressions in the program. -/
def Program.nodes (program : Program) : List Expr :=
  Nodes.ofStmts program.body

-----------------------------------------------------------------------------------------
-- The expressions below a node
-----------------------------------------------------------------------------------------

/-- All expressions of the tree below the node. -/
def Node.expressions : Node → List Expr
  | program inner => inner.nodes
  | statement inner => Nodes.ofStmt inner
  | expression value => Nodes.ofExpr value
  | arguments inner => Nodes.ofArguments inner
  | member inner => Nodes.ofMember inner
  | function inner => Nodes.ofFunc inner
  | parameter _ => []
  | body inner => Nodes.ofBody inner
  | block inner => Nodes.ofBlock inner
  | handler inner => Nodes.ofHandler inner
  | branch inner => Nodes.ofBranch inner
  | declaration inner => Nodes.ofDeclaration inner
  | initializer inner => Nodes.ofInitializer inner

namespace Nodes

/-- The expressions in a list of expressions are those in its nodes. -/
theorem ofExprs_eq_expressions (values : List Expr)
    : ofExprs values = (values.map Node.expression).flatMap Node.expressions := by
  rw [ofExprs_eq_flatMap, List.flatMap_map]
  rfl

/-- The expressions in statements are those in their nodes. -/
theorem ofStmts_eq_expressions (statements : List Stmt)
    : ofStmts statements = (statements.map Node.statement).flatMap Node.expressions := by
  rw [ofStmts_eq_flatMap, List.flatMap_map]
  rfl

theorem ofOptionalExpr_eq_expressions (value : Option Expr)
    : ofOptionalExpr value = (value.toList.map Node.expression).flatMap Node.expressions := by
  cases value <;> simp [ofOptionalExpr, Node.expressions]

theorem ofOptionalStmt_eq_expressions (statement : Option Stmt)
    : ofOptionalStmt statement
      = (statement.toList.map Node.statement).flatMap Node.expressions := by
  cases statement <;> simp [ofOptionalStmt, Node.expressions]

/-- The expressions in elements are those in their values, since holes have none. -/
theorem ofElements_eq_expressions (elements : List Element)
    : ofElements elements = (elements.flatMap Element.children).flatMap Node.expressions := by
  induction elements with
  | nil => simp [ofElements]
  | cons element rest ih => cases element <;> simp [ofElements, Element.children, Node.expressions, ih]

/-- The expressions in declarators are those in their initializers. -/
theorem ofDeclarators_eq_expressions (declarators : List Declarator)
    : ofDeclarators declarators
      = (declarators.flatMap Declarator.children).flatMap Node.expressions := by
  induction declarators with
  | nil => simp [ofDeclarators]
  | cons declarator rest ih =>
      obtain ⟨name, _ | initializer⟩ := declarator <;>
        simp [ofDeclarators, ofDeclarator, ofOptionalInitializer, Declarator.children,
          Node.expressions, ih]

/-- The expressions in the target of a loop are those in the nodes below it. -/
theorem ofForInTarget_eq_expressions (target : ForInTarget)
    : ofForInTarget target = target.children.flatMap Node.expressions := by
  cases target <;> simp [ofForInTarget, ForInTarget.children, Node.expressions]

/-- The expressions in the first clause of a loop are those in the nodes below it. -/
theorem ofForStart_eq_expressions (start : ForStart)
    : ofForStart start = start.children.flatMap Node.expressions := by
  cases start <;> simp [ofForStart, ForStart.children, Node.expressions]

end Nodes

variable {value : Expr}

/-- An expression lists itself and what its children list, by cases on its form. -/
theorem Expr.mem_ofExpr_iff (whole : Expr)
    : value ∈ Nodes.ofExpr whole
      ↔ whole = value ∨ value ∈ whole.children.flatMap Node.expressions := by
  cases whole <;>
    simp [Nodes.ofExpr, Nodes.ofMembers_eq_flatMap, Nodes.ofElements_eq_expressions, children,
      Node.expressions, eq_comm, List.flatMap_map]

/-- A statement lists what its children list. A `do` statement has its condition as its first child. -/
theorem Stmt.mem_ofStmt_iff (statement : Stmt)
    : value ∈ Nodes.ofStmt statement ↔ value ∈ statement.children.flatMap Node.expressions := by
  cases statement <;>
    simp [Nodes.ofStmt, Nodes.ofBranches_eq_flatMap, Nodes.ofForInTarget_eq_expressions,
      Nodes.ofForStart_eq_expressions, Nodes.ofOptionalExpr_eq_expressions,
      Nodes.ofOptionalStmt_eq_expressions, Nodes.ofOptionalBlock_eq_flatMap,
      Nodes.ofOptionalHandler_eq_flatMap, children, Node.expressions, List.flatMap_map, or_comm]

/-- A node that is no expression has the expressions of the nodes right below it. -/
theorem Node.mem_expressions_of_eq_flatMap {node : Node} (other : node ≠ .expression value)
    (listed : node.expressions = node.children.flatMap expressions)
    : value ∈ node.expressions
      ↔ node = .expression value ∨ value ∈ node.children.flatMap expressions := by
  rw [listed]
  exact (or_iff_right other).symm

/-- A node lists itself, if it is an expression, and what its children list. -/
theorem Node.mem_expressions_iff (node : Node)
    : value ∈ node.expressions
      ↔ node = .expression value ∨ value ∈ node.children.flatMap expressions := by
  cases node with
  | expression whole =>
      rw [expression.injEq]
      exact Expr.mem_ofExpr_iff whole
  | statement inner => exact (Stmt.mem_ofStmt_iff inner).trans (or_iff_right (by simp)).symm
  | program inner =>
      exact mem_expressions_of_eq_flatMap (by simp) (Nodes.ofStmts_eq_expressions inner.body)
  | arguments inner =>
      obtain ⟨_, values⟩ := inner
      exact mem_expressions_of_eq_flatMap (by simp) (Nodes.ofExprs_eq_expressions values)
  | member inner =>
      cases inner <;> exact mem_expressions_of_eq_flatMap (by simp) (List.append_nil _).symm
  | function inner =>
      obtain ⟨_, parameters, body⟩ := inner
      refine mem_expressions_of_eq_flatMap (by simp) ?_
      simp [expressions, children, Nodes.ofFunc, List.flatMap_map]
  | parameter => exact mem_expressions_of_eq_flatMap (by simp) rfl
  | body inner | block inner =>
      obtain ⟨_, statements⟩ := inner
      exact mem_expressions_of_eq_flatMap (by simp) (Nodes.ofStmts_eq_expressions statements)
  | handler inner =>
      obtain ⟨_, parameter, body⟩ := inner
      exact mem_expressions_of_eq_flatMap (by simp) (List.append_nil _).symm
  | branch inner =>
      obtain ⟨_, test, body⟩ := inner
      refine mem_expressions_of_eq_flatMap (by simp) ?_
      rw [children, List.flatMap_append, ← Nodes.ofOptionalExpr_eq_expressions,
        ← Nodes.ofStmts_eq_expressions]
      rfl
  | declaration inner =>
      obtain ⟨_, _, declarators⟩ := inner
      exact mem_expressions_of_eq_flatMap (by simp) (Nodes.ofDeclarators_eq_expressions declarators)
  | initializer inner =>
      obtain ⟨_, initial⟩ := inner
      exact mem_expressions_of_eq_flatMap (by simp) (List.append_nil _).symm

/-- The listed expressions are those below the node, by induction over the tree. -/
theorem Node.mem_expressions_iff_within (node : Node)
    : value ∈ node.expressions ↔ node.Within (.expression value) := by
  induction node using Node.children_induct with
  | step node ih =>
      rw [mem_expressions_iff, within_iff, List.mem_flatMap]
      refine or_congr_right (exists_congr fun child => and_congr_right fun listed => ?_)
      exact ih child listed

/-- The expressions of a program are those at any depth of its tree. -/
theorem Program.mem_nodes_iff (program : Program)
    : value ∈ program.nodes ↔ (Node.program program).Within (.expression value) :=
  Node.mem_expressions_iff_within (.program program)

end EcmaSyntax
