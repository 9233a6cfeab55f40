import EcmaSyntax.Form.OfTree
import EcmaSyntax.Proofs.Tree.Moved

/-! Forms leave no trace of spans: a tree whose spans are moved has the form that it had. -/

namespace EcmaSyntax.Form

variable (move : Span → Span)

/-- Names of parameters are written without their spans. -/
theorem parameters_moved (names : List Parameter)
    : parameters (Moved.ofParameters move names) = parameters names := by
  rw [Moved.ofParameters_eq_map, parameters, parameters, List.map_map]
  rfl

mutual

/-- An expression has the same form at another place, by cases on the expression. -/
theorem ofExpr_moved (value : Expr) : ofExpr (Moved.ofExpr move value) = ofExpr value := by
  cases value with
  | binary span operator left right =>
      simp [Moved.ofExpr, ofExpr, ofExpr_moved left, ofExpr_moved right]
  | call span callee arguments =>
      simp [Moved.ofExpr, ofExpr, ofExpr_moved callee, ofArguments_moved arguments]
  | index span object key => simp [Moved.ofExpr, ofExpr, ofExpr_moved object, ofExpr_moved key]
  | conditional span test consequent alternate =>
      simp [Moved.ofExpr, ofExpr, ofExpr_moved test, ofExpr_moved consequent, ofExpr_moved alternate]
  | function span name function => simp [Moved.ofExpr, ofExpr, ofFunc_moved function]
  | member span object name => simp [Moved.ofExpr, ofExpr, ofExpr_moved object]
  | construct span constructor arguments =>
      simp [Moved.ofExpr, ofExpr, ofExpr_moved constructor, ofArguments_moved arguments]
  | parenthesized span inner => simp [Moved.ofExpr, ofExpr, ofExpr_moved inner]
  | unary span operator argument => simp [Moved.ofExpr, ofExpr, ofExpr_moved argument]
  | update span operator argument => simp [Moved.ofExpr, ofExpr, ofExpr_moved argument]
  | array span elements => simp [Moved.ofExpr, ofExpr, ofElements_moved elements]
  | object span members => simp [Moved.ofExpr, ofExpr, ofMembers_moved members]
  | identifier | this | boolean | null | number | regex | string => simp [Moved.ofExpr, ofExpr]

theorem ofExprs_moved (values : List Expr) : ofExprs (Moved.ofExprs move values) = ofExprs values := by
  cases values with
  | nil => simp [Moved.ofExprs]
  | cons value rest => simp [Moved.ofExprs, ofExprs, ofExpr_moved value, ofExprs_moved rest]

/-- An expression that may be missing has the same form at another place, or is missing there too. -/
theorem ofOptionalExpr_moved (value : Option Expr)
    : ofOptionalExpr (Moved.ofOptionalExpr move value) = ofOptionalExpr value := by
  cases value with
  | none => simp [Moved.ofOptionalExpr]
  | some value => simp [Moved.ofOptionalExpr, ofOptionalExpr, ofExpr_moved value]

/-- The operand of a `return` or `throw` is written without its spans. -/
theorem withValue_moved (tag : String) (value : Option Expr)
    : withValue tag (Moved.ofOptionalExpr move value) = withValue tag value := by
  cases value with
  | none => simp [Moved.ofOptionalExpr]
  | some value => simp [Moved.ofOptionalExpr, withValue, ofExpr_moved value]

theorem ofArguments_moved (arguments : Arguments)
    : ofArguments (Moved.ofArguments move arguments) = ofArguments arguments := by
  obtain ⟨span, values⟩ := arguments
  simp [Moved.ofArguments, ofArguments, ofExprs_moved values]

/-- Elements have the same forms at other places, and holes have no place. -/
theorem ofElements_moved (elements : List Element)
    : ofElements (Moved.ofElements move elements) = ofElements elements := by
  match elements with
  | [] => simp [Moved.ofElements]
  | .hole :: rest =>
      simp [Moved.ofElements, Moved.ofElement, ofElements, ofElements_moved rest]
  | .value value :: rest =>
      simp [Moved.ofElements, Moved.ofElement, ofElements, ofExpr_moved value, ofElements_moved rest]

theorem ofMembers_moved (members : List Member)
    : ofMembers (Moved.ofMembers move members) = ofMembers members := by
  match members with
  | [] => simp [Moved.ofMembers]
  | .property span key value :: rest =>
      simp [Moved.ofMembers, Moved.ofMember, ofMembers, ofExpr_moved value, ofMembers_moved rest]
  | .getter span key function :: rest | .setter span key function :: rest =>
      simp [Moved.ofMembers, Moved.ofMember, ofMembers, ofFunc_moved function, ofMembers_moved rest]

/-- A function has the same form at another place, with any tag and name. -/
theorem ofFunc_moved (function : Func) (tag : String) (name : Form)
    : ofFunc tag name (Moved.ofFunc move function) = ofFunc tag name function := by
  obtain ⟨span, names, body⟩ := function
  simp [Moved.ofFunc, ofFunc, parameters_moved, ofBody_moved body]

theorem ofBody_moved (body : Body) : ofBody (Moved.ofBody move body) = ofBody body := by
  obtain ⟨span, statements⟩ := body
  simp [Moved.ofBody, ofBody, ofStmts_moved statements]

/-- A statement has the same form at another place, by cases on the statement. -/
theorem ofStmt_moved (statement : Stmt) : ofStmt (Moved.ofStmt move statement) = ofStmt statement := by
  cases statement with
  | block block => simp [Moved.ofStmt, ofStmt, ofBlock_moved block]
  | doWhile span body condition =>
      simp [Moved.ofStmt, ofStmt, ofStmt_moved body, ofExpr_moved condition]
  | expression span value => simp [Moved.ofStmt, ofStmt, ofExpr_moved value]
  | forIn span target object body =>
      simp [Moved.ofStmt, ofStmt, ofForInTarget_moved target, ofExpr_moved object, ofStmt_moved body]
  | forLoop span start condition update body =>
      simp [Moved.ofStmt, ofStmt, ofForStart_moved start, ofOptionalExpr_moved condition,
        ofOptionalExpr_moved update, ofStmt_moved body]
  | ifElse span test consequent alternate =>
      cases alternate with
      | none =>
          simp [Moved.ofStmt, Moved.ofOptionalStmt, ofStmt, ofExpr_moved test,
            ofStmt_moved consequent]
      | some alternate =>
          simp [Moved.ofStmt, Moved.ofOptionalStmt, ofStmt, ofExpr_moved test,
            ofStmt_moved consequent, ofStmt_moved alternate]
  | labelled span label inner => simp [Moved.ofStmt, ofStmt, ofStmt_moved inner]
  | returnValue span value | throwValue span value =>
      simp [Moved.ofStmt, ofStmt, withValue_moved _ value]
  | switch span test branches =>
      simp [Moved.ofStmt, ofStmt, ofExpr_moved test, ofBranches_moved branches]
  | tryBlock span block handler finalizer =>
      match handler with
      | none =>
          simp [Moved.ofStmt, Moved.ofOptionalHandler, ofStmt, ofBlock_moved block,
            ofOptionalBlock_moved finalizer]
      | some ⟨place, parameter, body⟩ =>
          simp [Moved.ofStmt, Moved.ofOptionalHandler, Moved.ofHandler, ofStmt, ofBlock_moved block,
            ofBlock_moved body, ofOptionalBlock_moved finalizer]
  | whileLoop span value body | withObject span value body =>
      simp [Moved.ofStmt, ofStmt, ofExpr_moved value, ofStmt_moved body]
  | function span name function => simp [Moved.ofStmt, ofStmt, ofFunc_moved function]
  | declaration declaration => simp [Moved.ofStmt, ofStmt, ofDeclaration_moved declaration]
  | breakTo | continueTo | empty => simp [Moved.ofStmt, ofStmt]

theorem ofStmts_moved (statements : List Stmt)
    : ofStmts (Moved.ofStmts move statements) = ofStmts statements := by
  cases statements with
  | nil => simp [Moved.ofStmts]
  | cons statement rest =>
      simp [Moved.ofStmts, ofStmts, ofStmt_moved statement, ofStmts_moved rest]

theorem ofBlock_moved (block : Block) : ofBlock (Moved.ofBlock move block) = ofBlock block := by
  obtain ⟨span, statements⟩ := block
  simp [Moved.ofBlock, ofBlock, ofStmts_moved statements]

theorem ofOptionalBlock_moved (block : Option Block)
    : ofOptionalBlock (Moved.ofOptionalBlock move block) = ofOptionalBlock block := by
  cases block with
  | none => simp [Moved.ofOptionalBlock]
  | some block => simp [Moved.ofOptionalBlock, ofOptionalBlock, ofBlock_moved block]

/-- Branches have the same forms at other places, with or without a test. -/
theorem ofBranches_moved (branches : List Branch)
    : ofBranches (Moved.ofBranches move branches) = ofBranches branches := by
  match branches with
  | [] => simp [Moved.ofBranches]
  | ⟨span, test, body⟩ :: rest =>
      simp [Moved.ofBranches, Moved.ofBranch, ofBranches, ofOptionalExpr_moved test,
        ofStmts_moved body, ofBranches_moved rest]

/-- The target of a loop stays the kind of target that it is. -/
theorem ofForInTarget_moved (target : ForInTarget)
    : ofForInTarget (Moved.ofForInTarget move target) = ofForInTarget target := by
  match target with
  | .declaration ⟨span, mode, declarators⟩ =>
      simp [Moved.ofForInTarget, Moved.ofDeclaration, ofForInTarget,
        ofDeclarators_moved declarators mode]
  | .expression target => simp [Moved.ofForInTarget, ofForInTarget, ofExpr_moved target]

/-- The first clause of a loop stays the kind of clause that it is. -/
theorem ofForStart_moved (start : ForStart)
    : ofForStart (Moved.ofForStart move start) = ofForStart start := by
  cases start with
  | nothing => simp [Moved.ofForStart]
  | expression value => simp [Moved.ofForStart, ofForStart, ofExpr_moved value]
  | declaration declaration =>
      simp [Moved.ofForStart, ofForStart, ofDeclaration_moved declaration]

theorem ofDeclaration_moved (declaration : Declaration)
    : ofDeclaration (Moved.ofDeclaration move declaration) = ofDeclaration declaration := by
  obtain ⟨span, mode, declarators⟩ := declaration
  simp [Moved.ofDeclaration, ofDeclaration, ofDeclarators_moved declarators mode]

/-- Declarators have the same forms at other places, and their names have no place. -/
theorem ofDeclarators_moved (declarators : List Declarator) (mode : DeclarationMode)
    : ofDeclarators mode (Moved.ofDeclarators move declarators)
      = ofDeclarators mode declarators := by
  match declarators with
  | [] => simp [Moved.ofDeclarators]
  | ⟨name, none⟩ :: rest =>
      simp [Moved.ofDeclarators, Moved.ofDeclarator, Moved.ofOptionalInitializer, ofDeclarators,
        ofDeclarators_moved rest mode]
  | ⟨name, some ⟨span, value⟩⟩ :: rest =>
      simp [Moved.ofDeclarators, Moved.ofDeclarator, Moved.ofOptionalInitializer,
        Moved.ofInitializer, ofDeclarators, ofExpr_moved value, ofDeclarators_moved rest mode]

end

end EcmaSyntax.Form
