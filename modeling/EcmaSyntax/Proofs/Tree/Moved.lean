import EcmaSyntax.Proofs.Tree.Induction

/-! Trees whose spans are moved, each by the same function, and which are the same otherwise. -/

namespace EcmaSyntax

/-- The span so many bytes further on. -/
def Span.shift (distance : Nat) (span : Span) : Span :=
  {
    start := span.start + distance
    stop := span.stop + distance
  }

namespace Moved

variable (move : Span → Span)

mutual

/-- The expression with every span moved. -/
def ofExpr : Expr → Expr
  | .binary span operator left right => .binary (move span) operator (ofExpr left) (ofExpr right)
  | .call span callee arguments => .call (move span) (ofExpr callee) (ofArguments arguments)
  | .index span object key => .index (move span) (ofExpr object) (ofExpr key)
  | .conditional span test consequent alternate =>
      .conditional (move span) (ofExpr test) (ofExpr consequent) (ofExpr alternate)
  | .function span name function => .function (move span) name (ofFunc function)
  | .identifier span name => .identifier (move span) name
  | .member span object name => .member (move span) (ofExpr object) name
  | .construct span constructor arguments =>
      .construct (move span) (ofExpr constructor) (ofArguments arguments)
  | .parenthesized span inner => .parenthesized (move span) (ofExpr inner)
  | .this span => .this (move span)
  | .unary span operator argument => .unary (move span) operator (ofExpr argument)
  | .update span operator argument => .update (move span) operator (ofExpr argument)
  | .array span elements => .array (move span) (ofElements elements)
  | .boolean span value => .boolean (move span) value
  | .null span => .null (move span)
  | .number span value => .number (move span) value
  | .object span members => .object (move span) (ofMembers members)
  | .regex span text => .regex (move span) text
  | .string span value => .string (move span) value

def ofExprs : List Expr → List Expr
  | [] => []
  | value :: rest => ofExpr value :: ofExprs rest

def ofOptionalExpr : Option Expr → Option Expr
  | none => none
  | some value => some (ofExpr value)

def ofArguments : Arguments → Arguments
  | { span, values } => { span := move span, values := ofExprs values }

def ofElement : Element → Element
  | .value value => .value (ofExpr value)
  | .hole => .hole

def ofElements : List Element → List Element
  | [] => []
  | element :: rest => ofElement element :: ofElements rest

def ofMember : Member → Member
  | .property span key value => .property (move span) key (ofExpr value)
  | .getter span key function => .getter (move span) key (ofFunc function)
  | .setter span key function => .setter (move span) key (ofFunc function)

def ofMembers : List Member → List Member
  | [] => []
  | member :: rest => ofMember member :: ofMembers rest

def ofParameters : List Parameter → List Parameter
  | [] => []
  | { span, name } :: rest => { span := move span, name } :: ofParameters rest

def ofFunc : Func → Func
  | { span, parameters, body } =>
      {
        span := move span
        parameters := ofParameters parameters
        body := ofBody body
      }

def ofBody : Body → Body
  | { span, statements } => { span := move span, statements := ofStmts statements }

def ofStmt : Stmt → Stmt
  | .block block => .block (ofBlock block)
  | .breakTo span label => .breakTo (move span) label
  | .continueTo span label => .continueTo (move span) label
  | .doWhile span body condition => .doWhile (move span) (ofStmt body) (ofExpr condition)
  | .empty span => .empty (move span)
  | .expression span value => .expression (move span) (ofExpr value)
  | .forIn span target object body =>
      .forIn (move span) (ofForInTarget target) (ofExpr object) (ofStmt body)
  | .forLoop span start condition update body =>
      .forLoop (move span) (ofForStart start) (ofOptionalExpr condition) (ofOptionalExpr update)
        (ofStmt body)
  | .ifElse span test consequent alternate =>
      .ifElse (move span) (ofExpr test) (ofStmt consequent) (ofOptionalStmt alternate)
  | .labelled span label statement => .labelled (move span) label (ofStmt statement)
  | .returnValue span value => .returnValue (move span) (ofOptionalExpr value)
  | .switch span test branches => .switch (move span) (ofExpr test) (ofBranches branches)
  | .throwValue span value => .throwValue (move span) (ofOptionalExpr value)
  | .tryBlock span block handler finalizer =>
      .tryBlock (move span) (ofBlock block) (ofOptionalHandler handler) (ofOptionalBlock finalizer)
  | .whileLoop span condition body => .whileLoop (move span) (ofExpr condition) (ofStmt body)
  | .withObject span object body => .withObject (move span) (ofExpr object) (ofStmt body)
  | .function span name function => .function (move span) name (ofFunc function)
  | .declaration declaration => .declaration (ofDeclaration declaration)

def ofStmts : List Stmt → List Stmt
  | [] => []
  | statement :: rest => ofStmt statement :: ofStmts rest

def ofOptionalStmt : Option Stmt → Option Stmt
  | none => none
  | some statement => some (ofStmt statement)

def ofBlock : Block → Block
  | { span, statements } => { span := move span, statements := ofStmts statements }

def ofOptionalBlock : Option Block → Option Block
  | none => none
  | some block => some (ofBlock block)

def ofHandler : Handler → Handler
  | { span, parameter, body } => { span := move span, parameter, body := ofBlock body }

def ofOptionalHandler : Option Handler → Option Handler
  | none => none
  | some handler => some (ofHandler handler)

def ofBranch : Branch → Branch
  | { span, test, body } =>
      { span := move span, test := ofOptionalExpr test, body := ofStmts body }

def ofBranches : List Branch → List Branch
  | [] => []
  | branch :: rest => ofBranch branch :: ofBranches rest

def ofForInTarget : ForInTarget → ForInTarget
  | .declaration declaration => .declaration (ofDeclaration declaration)
  | .expression target => .expression (ofExpr target)

def ofForStart : ForStart → ForStart
  | .nothing => .nothing
  | .expression value => .expression (ofExpr value)
  | .declaration declaration => .declaration (ofDeclaration declaration)

def ofDeclaration : Declaration → Declaration
  | { span, mode, declarators } =>
      { span := move span, mode, declarators := ofDeclarators declarators }

def ofDeclarator : Declarator → Declarator
  | { name, initializer } => { name, initializer := ofOptionalInitializer initializer }

def ofDeclarators : List Declarator → List Declarator
  | [] => []
  | declarator :: rest => ofDeclarator declarator :: ofDeclarators rest

def ofInitializer : Initializer → Initializer
  | { span, value } => { span := move span, value := ofExpr value }

def ofOptionalInitializer : Option Initializer → Option Initializer
  | none => none
  | some initializer => some (ofInitializer initializer)

end

-----------------------------------------------------------------------------------------
-- Lists and options
-----------------------------------------------------------------------------------------

def ofParameter (parameter : Parameter) : Parameter :=
  { parameter with span := move parameter.span }

/-- Expressions are moved one by one. -/
theorem ofExprs_eq_map (values : List Expr) : ofExprs move values = values.map (ofExpr move) := by
  induction values with
  | nil => simp [ofExprs]
  | cons value rest ih => simp [ofExprs, ih]

theorem ofElements_eq_map (elements : List Element)
    : ofElements move elements = elements.map (ofElement move) := by
  induction elements with
  | nil => simp [ofElements]
  | cons element rest ih => simp [ofElements, ih]

theorem ofMembers_eq_map (members : List Member)
    : ofMembers move members = members.map (ofMember move) := by
  induction members with
  | nil => simp [ofMembers]
  | cons member rest ih => simp [ofMembers, ih]

theorem ofParameters_eq_map (parameters : List Parameter)
    : ofParameters move parameters = parameters.map (ofParameter move) := by
  induction parameters with
  | nil => simp [ofParameters]
  | cons parameter rest ih => simp [ofParameters, ofParameter, ih]

theorem ofStmts_eq_map (statements : List Stmt)
    : ofStmts move statements = statements.map (ofStmt move) := by
  induction statements with
  | nil => simp [ofStmts]
  | cons statement rest ih => simp [ofStmts, ih]

theorem ofBranches_eq_map (branches : List Branch)
    : ofBranches move branches = branches.map (ofBranch move) := by
  induction branches with
  | nil => simp [ofBranches]
  | cons branch rest ih => simp [ofBranches, ih]

theorem ofDeclarators_eq_map (declarators : List Declarator)
    : ofDeclarators move declarators = declarators.map (ofDeclarator move) := by
  induction declarators with
  | nil => simp [ofDeclarators]
  | cons declarator rest ih => simp [ofDeclarators, ih]

/-- An expression is moved if there is one. -/
theorem ofOptionalExpr_eq_map (value : Option Expr)
    : ofOptionalExpr move value = value.map (ofExpr move) := by
  cases value <;> simp [ofOptionalExpr]

theorem ofOptionalStmt_eq_map (statement : Option Stmt)
    : ofOptionalStmt move statement = statement.map (ofStmt move) := by
  cases statement <;> simp [ofOptionalStmt]

theorem ofOptionalBlock_eq_map (block : Option Block)
    : ofOptionalBlock move block = block.map (ofBlock move) := by
  cases block <;> simp [ofOptionalBlock]

theorem ofOptionalHandler_eq_map (handler : Option Handler)
    : ofOptionalHandler move handler = handler.map (ofHandler move) := by
  cases handler <;> simp [ofOptionalHandler]

theorem ofOptionalInitializer_eq_map (initializer : Option Initializer)
    : ofOptionalInitializer move initializer = initializer.map (ofInitializer move) := by
  cases initializer <;> simp [ofOptionalInitializer]

-----------------------------------------------------------------------------------------
-- What stays
-----------------------------------------------------------------------------------------

/-- The span of a moved expression is the moved span. -/
@[simp]
theorem span_ofExpr (value : Expr) : (ofExpr move value).span = move value.span := by
  cases value <;> simp [ofExpr, Expr.span]

@[simp]
theorem span_ofArguments (arguments : Arguments)
    : (ofArguments move arguments).span = move arguments.span := by
  cases arguments
  simp [ofArguments]

/-- Moving a function leaves it the number of its parameters. -/
theorem length_parameters (function : Func)
    : (ofFunc move function).parameters.length = function.parameters.length := by
  cases function
  simp [ofFunc, ofParameters_eq_map]

/-- Moving a declaration leaves it the number of its declarators. -/
theorem length_declarators (declaration : Declaration)
    : (ofDeclaration move declaration).declarators.length = declaration.declarators.length := by
  cases declaration
  simp [ofDeclaration, ofDeclarators_eq_map]

/-- What can be assigned to can be wherever it stands. -/
@[simp]
theorem isAssignmentTarget_ofExpr (value : Expr)
    : (ofExpr move value).isAssignmentTarget = value.isAssignmentTarget := by
  cases value with
  | parenthesized span inner =>
      simp [ofExpr, Expr.isAssignmentTarget, isAssignmentTarget_ofExpr inner]
  | _ => simp [ofExpr, Expr.isAssignmentTarget]

-----------------------------------------------------------------------------------------
-- Moving back
-----------------------------------------------------------------------------------------

def ofNode : Node → Node
  | .program { span, body } => .program { span := move span, body := ofStmts move body }
  | .statement statement => .statement (ofStmt move statement)
  | .expression value => .expression (ofExpr move value)
  | .arguments arguments => .arguments (ofArguments move arguments)
  | .member member => .member (ofMember move member)
  | .function function => .function (ofFunc move function)
  | .parameter parameter => .parameter (ofParameter move parameter)
  | .body body => .body (ofBody move body)
  | .block block => .block (ofBlock move block)
  | .handler handler => .handler (ofHandler move handler)
  | .branch branch => .branch (ofBranch move branch)
  | .declaration declaration => .declaration (ofDeclaration move declaration)
  | .initializer initializer => .initializer (ofInitializer move initializer)

variable {move} {back : Span → Span}

theorem map_back {α : Type} {f g : α → α} {list : List α}
    (undone : ∀ inner ∈ list, g (f inner) = inner)
    : (list.map f).map g = list := by
  rw [List.map_map]
  exact (List.map_congr_left undone).trans (List.map_id list)

theorem option_map_back {α : Type} {f g : α → α} {value : Option α}
    (undone : ∀ inner, value = some inner → g (f inner) = inner)
    : (value.map f).map g = value := by
  cases value with
  | none => rfl
  | some inner => exact congrArg some (undone inner rfl)

/-- An expression is moved back if its span and all below it are. -/
theorem ofExpr_back {value : Expr} (self : back (move value.span) = value.span)
    (below : ∀ child ∈ value.children, ofNode back (ofNode move child) = child)
    : ofExpr back (ofExpr move value) = value := by
  cases value with
  | array span elements =>
      have undone : ∀ element ∈ elements, ofElement back (ofElement move element) = element := by
        rintro (value | _) member
        · have same := below (.expression value)
            (List.mem_flatMap.mpr ⟨_, member, List.mem_singleton_self _⟩)
          simpa [ofNode, ofElement] using same
        · simp [ofElement]
      simp only [ofExpr, ofElements_eq_map, map_back undone]
      exact congrArg (Expr.array · elements) self
  | object span members =>
      simp only [Expr.children, List.forall_mem_map, ofNode, Node.member.injEq] at below
      simp only [ofExpr, ofMembers_eq_map, map_back below]
      exact congrArg (Expr.object · members) self
  | _ =>
      simp only [Expr.children, Expr.span, List.forall_mem_cons, ofNode, Node.expression.injEq,
        Node.arguments.injEq, Node.function.injEq] at below self
      simp [ofExpr, below, self]

/-- The target of a loop is moved back if all below it is. -/
theorem ofForInTarget_back {target : ForInTarget}
    (below : ∀ child ∈ target.children, ofNode back (ofNode move child) = child)
    : ofForInTarget back (ofForInTarget move target) = target := by
  cases target <;> simpa [ForInTarget.children, ofNode, ofForInTarget] using below

/-- The first clause of a loop is moved back if all below it is. -/
theorem ofForStart_back {start : ForStart}
    (below : ∀ child ∈ start.children, ofNode back (ofNode move child) = child)
    : ofForStart back (ofForStart move start) = start := by
  cases start with
  | nothing => simp [ofForStart]
  | expression | declaration => simpa [ForStart.children, ofNode, ofForStart] using below

/-- A statement is moved back if its span and all below it are. -/
theorem ofStmt_back {statement : Stmt} (self : back (move statement.span) = statement.span)
    (below : ∀ child ∈ statement.children, ofNode back (ofNode move child) = child)
    : ofStmt back (ofStmt move statement) = statement := by
  cases statement with
  | forIn span target object body =>
      obtain ⟨targets, rest⟩ := List.forall_mem_append.mp below
      simp [ofNode, Stmt.span] at rest self
      simp [ofStmt, ofForInTarget_back targets, rest, self]
  | forLoop span start condition update body =>
      simp only [Stmt.children, List.forall_mem_append] at below
      obtain ⟨⟨⟨starts, conditions⟩, updates⟩, bodies⟩ := below
      simp [ofNode, Stmt.span] at conditions updates bodies self
      simp [ofStmt, ofOptionalExpr_eq_map, ofForStart_back starts, option_map_back conditions,
        option_map_back updates, bodies, self]
  | switch span test branches =>
      simp [Stmt.children, ofNode, Stmt.span] at below self
      simp [ofStmt, ofBranches_eq_map, map_back below.2, below.1, self]
  | tryBlock span block handler finalizer =>
      simp [Stmt.children, ofNode, Stmt.span, or_imp, forall_and] at below self
      obtain ⟨blocks, handlers, finalizers⟩ := below
      simp [ofStmt, ofOptionalHandler_eq_map, ofOptionalBlock_eq_map, option_map_back handlers,
        option_map_back finalizers, blocks, self]
  | ifElse span test consequent alternate =>
      simp [Stmt.children, ofNode, Stmt.span] at below self
      obtain ⟨tests, consequents, alternates⟩ := below
      simp [ofStmt, ofOptionalStmt_eq_map, option_map_back alternates, tests, consequents, self]
  | returnValue span value | throwValue span value =>
      simp [Stmt.children, ofNode, Stmt.span] at below self
      simp [ofStmt, ofOptionalExpr_eq_map, option_map_back below, self]
  | _ =>
      simp [Stmt.children, ofNode, Stmt.span] at below self
      simp [ofStmt, below, self]

/-- A declarator is moved back if its initializer is. -/
theorem ofDeclarator_back {declarator : Declarator}
    (below : ∀ child ∈ declarator.children, ofNode back (ofNode move child) = child)
    : ofDeclarator back (ofDeclarator move declarator) = declarator := by
  obtain ⟨name, initializer⟩ := declarator
  simp [Declarator.children, ofNode] at below
  simp [ofDeclarator, ofOptionalInitializer_eq_map, option_map_back below]

/-- A node is moved back if its span and all below it are, by cases on the kind of node. -/
theorem ofNode_back_step {node : Node} (self : back (move node.span) = node.span)
    (below : ∀ child ∈ node.children, ofNode back (ofNode move child) = child)
    : ofNode back (ofNode move node) = node := by
  cases node with
  | expression value => exact congrArg Node.expression (ofExpr_back self below)
  | statement statement => exact congrArg Node.statement (ofStmt_back self below)
  | program program =>
      simp only [Node.children, List.forall_mem_map, ofNode, Node.statement.injEq] at below
      simp only [ofNode, ofStmts_eq_map, map_back below]
      exact congrArg (Node.program ⟨·, program.body⟩) self
  | arguments arguments =>
      obtain ⟨span, values⟩ := arguments
      simp only [Node.children, List.forall_mem_map, ofNode, Node.expression.injEq] at below
      simp only [ofNode, ofArguments, ofExprs_eq_map, map_back below]
      exact congrArg (Node.arguments ⟨·, values⟩) self
  | member member =>
      cases member <;>
        simp_all [Node.children, Member.children, ofNode, Node.span, Member.span, ofMember]
  | function function =>
      obtain ⟨span, parameters, body⟩ := function
      obtain ⟨parameterwise, bodies⟩ := List.forall_mem_append.mp below
      simp only [List.forall_mem_map, List.forall_mem_singleton, ofNode, Node.parameter.injEq,
        Node.body.injEq] at parameterwise bodies
      simp only [ofNode, ofFunc, ofParameters_eq_map, map_back parameterwise, bodies]
      exact congrArg (Node.function ⟨·, parameters, body⟩) self
  | parameter parameter => exact congrArg (Node.parameter ⟨·, parameter.name⟩) self
  | body body =>
      obtain ⟨span, statements⟩ := body
      simp only [Node.children, List.forall_mem_map, ofNode, Node.statement.injEq] at below
      simp only [ofNode, ofBody, ofStmts_eq_map, map_back below]
      exact congrArg (Node.body ⟨·, statements⟩) self
  | block block =>
      obtain ⟨span, statements⟩ := block
      simp only [Node.children, List.forall_mem_map, ofNode, Node.statement.injEq] at below
      simp only [ofNode, ofBlock, ofStmts_eq_map, map_back below]
      exact congrArg (Node.block ⟨·, statements⟩) self
  | handler handler =>
      obtain ⟨span, parameter, body⟩ := handler
      simp only [Node.children, List.forall_mem_singleton, ofNode, Node.block.injEq] at below
      simp only [ofNode, ofHandler, below]
      exact congrArg (Node.handler ⟨·, parameter, body⟩) self
  | branch branch =>
      obtain ⟨span, test, body⟩ := branch
      obtain ⟨tests, bodies⟩ := List.forall_mem_append.mp below
      simp only [List.forall_mem_map, Option.mem_toList, ofNode, Node.expression.injEq,
        Node.statement.injEq] at tests bodies
      simp only [ofNode, ofBranch, ofOptionalExpr_eq_map, ofStmts_eq_map, option_map_back tests,
        map_back bodies]
      exact congrArg (Node.branch ⟨·, test, body⟩) self
  | declaration declaration =>
      obtain ⟨span, mode, declarators⟩ := declaration
      have undone : ∀ inner ∈ declarators, ofDeclarator back (ofDeclarator move inner) = inner :=
        fun inner member => ofDeclarator_back fun child inside =>
          below child (List.mem_flatMap.mpr ⟨inner, member, inside⟩)
      simp only [ofNode, ofDeclaration, ofDeclarators_eq_map, map_back undone]
      exact congrArg (Node.declaration ⟨·, mode, declarators⟩) self
  | initializer initializer =>
      obtain ⟨span, value⟩ := initializer
      simp only [Node.children, List.forall_mem_singleton, ofNode, Node.expression.injEq] at below
      simp only [ofNode, ofInitializer, below]
      exact congrArg (Node.initializer ⟨·, value⟩) self

/-- Where the spans of a node and of the nodes below it are moved back, so is the tree. -/
theorem ofNode_back {node : Node}
    (undone : ∀ inner, node.Within inner → back (move inner.span) = inner.span)
    : ofNode back (ofNode move node) = node := by
  induction node using Node.children_induct with
  | step node ih =>
      refine ofNode_back_step (undone node .self) fun child below => ih child below ?_
      exact fun inner within => undone inner (within.trans (.child .self below))

end Moved

end EcmaSyntax
