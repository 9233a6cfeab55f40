import EcmaSyntax.Proofs.Form.Decoder
import EcmaSyntax.Proofs.Tree.Node

/-! Reading the form of a tree gives the tree without its places. What is needed of the tree is that every
operator stands where operators of its kind do, as in every tree that was parsed.
-/

namespace EcmaSyntax

open EcmaSyntax.Form

/-- Not a negative number; a literal writes no other. -/
def Number.isUnsigned : Number → Bool
  | nan => true
  | signed negative _ => !negative

/-- The operator on top of the expression is one that stands where it does, and a number has no sign. -/
def Expr.Spelled : Expr → Prop
  | binary _ operator _ _ => operator.isTagged
  | unary _ operator _ =>
      operator.isTagged ∨ operator = .prefixIncrement ∨ operator = .prefixDecrement
  | update _ operator _ => operator = .postfixIncrement ∨ operator = .postfixDecrement
  | number _ value => value.isUnsigned
  | _ => True

namespace Form

/-- A form with a tag of the list is read by that tag. -/
theorem toExpr?_tagged (tag : Tag) (occurs : tag ∈ Tag.all) (items : List Form)
    : toExpr? (tagged tag.name items) = taggedExpr? tag items := by
  simp [tagged, toExpr?, Tag.ofName?_name_of_mem tag occurs]

/-- A statement with a tag of the list is read by that tag. -/
theorem toStmt?_tagged (tag : Tag) (occurs : tag ∈ Tag.all) (items : List Form)
    : toStmt? (tagged tag.name items) = taggedStmt? tag items := by
  simp [tagged, toStmt?, Tag.ofName?_name_of_mem tag occurs]

/-- A name that may be missing is written as a string or as `nil`, which are told apart. -/
theorem toName?_optionalString (name : Option String) : toName? (optionalString name) = name := by
  cases name <;> rfl

/-- Parameters are read back from their names. -/
theorem toParameters?_parameters (names : List Parameter)
    : toParameters? (names.map fun parameter => tagged "param" [string parameter.name])
      = some (Placeless.ofParameters names) := by
  induction names with
  | nil => rfl
  | cons name names ih =>
      simp only [tagged] at ih
      simp [tagged, toParameters?, ih, Placeless.ofParameters]

/-- An operator in front of an operand that has a tag is written as that tag. -/
theorem ofExpr_unary {span : Span} {operator : Operator} {argument : Expr}
    (isTagged : operator.isTagged)
    : ofExpr (.unary span operator argument)
      = tagged (Tag.operator operator).name [ofExpr argument] := by
  cases operator <;> first | rfl | cases isTagged

/-- No expression is written as `nil`, which stands for a missing one. -/
theorem isNil_ofExpr (value : Expr) : (ofExpr value).isNil = false := by
  cases value with
  | unary =>
      unfold ofExpr
      split <;> rfl
  | function _ _ function => cases function; rfl
  | _ => rfl

/-- The form of a statement begins with a tag. -/
theorem exists_ofStmt (statement : Stmt)
    : ∃ name items, ofStmt statement = list (atom name :: items) := by
  cases statement with
  | block inner => cases inner; exact ⟨_, _, rfl⟩
  | function _ _ inner => cases inner; exact ⟨_, _, rfl⟩
  | declaration inner => cases inner; exact ⟨_, _, rfl⟩
  | ifElse _ _ _ alternate => cases alternate <;> exact ⟨_, _, rfl⟩
  | tryBlock _ _ handler =>
      obtain _ | ⟨_, _, _⟩ := handler <;> exact ⟨_, _, rfl⟩
  | returnValue _ value | throwValue _ value => cases value <;> exact ⟨_, _, rfl⟩
  | _ => exact ⟨_, _, rfl⟩

theorem unlessNil_of_isNil {α : Type} {form : Form} (isNil : form.isNil = false)
    (value : Option α)
    : unlessNil form value = value.map some := by
  rw [unlessNil, isNil]
  rfl

/-- A declaration with a tag of the list is read by that tag. -/
theorem toDeclaration?_tagged (tag : Tag) (occurs : tag ∈ Tag.all) (items : List Form)
    : toDeclaration? (tagged tag.name items) = taggedDeclaration? tag items := by
  simp [tagged, toDeclaration?, Tag.ofName?_name_of_mem tag occurs]

/-- The form of a declaration is that of no expression. -/
theorem toExpr?_ofDeclaration (declaration : Declaration)
    : toExpr? (ofDeclaration declaration) = none := by
  obtain ⟨_, mode, declarators⟩ := declaration
  exact toExpr?_tagged (.declaration mode) (by cases mode <;> decide) _

/-- The form of a declarator. -/
def ofDeclarator (mode : DeclarationMode) (declarator : Declarator) : Form :=
  tagged (declaratorTag mode)
    [
      atom declarator.name,
      match declarator.initializer with
      | none => nil
      | some initializer => tagged "assign" [ofExpr initializer.value]
    ]

/-- Declarators are written one by one. -/
theorem ofDeclarators_cons (mode : DeclarationMode) (declarator : Declarator)
    (rest : List Declarator)
    : ofDeclarators mode (declarator :: rest)
      = ofDeclarator mode declarator :: ofDeclarators mode rest := by
  obtain ⟨name, _ | ⟨span, value⟩⟩ := declarator <;> rfl

/-- A declaration in the header of a `for`-`in` loop is written as its declarator, if it is the only one. -/
theorem ofForInTarget_declaration (span : Span) (mode : DeclarationMode)
    (declarators : List Declarator)
    : ofForInTarget (.declaration { span, mode, declarators })
      = match declarators with
        | [declarator] => ofDeclarator mode declarator
        | _ => ofDeclaration { span, mode, declarators } := by
  match declarators with
  | [] => rfl
  | [declarator] => simp [ofForInTarget, ofDeclarators_cons, ofDeclarators]
  | first :: second :: rest => simp [ofForInTarget, ofDeclarators_cons, ofDeclaration]

-----------------------------------------------------------------------------------------
-- Reading a form gives the tree that was written
-----------------------------------------------------------------------------------------

mutual

/-- An expression is read back from its form, by cases on the expression, with its parts by recursion. -/
theorem toExpr?_ofExpr (value : Expr) (spelled : (Node.expression value).Each Expr.Spelled)
    : toExpr? (ofExpr value) = some (Placeless.ofExpr value) := by
  cases value with
  | binary _ operator left right =>
      have left := toExpr?_ofExpr left (spelled.child (.head _))
      have right := toExpr?_ofExpr right (spelled.child (.tail _ (.head _)))
      have occurs := Tag.mem_all_of_isTagged spelled.self
      refine (toExpr?_tagged _ occurs _).trans ?_
      simp [taggedExpr?, left, right, Placeless.ofExpr]
  | call _ callee arguments =>
      have callee := toExpr?_ofExpr callee (spelled.child (.head _))
      have arguments := toArguments?_ofArguments arguments (spelled.child (.tail _ (.head _)))
      refine (toExpr?_tagged .call (by decide) _).trans ?_
      simp [taggedExpr?, callee, arguments, Placeless.ofExpr]
  | index _ object key =>
      have object := toExpr?_ofExpr object (spelled.child (.head _))
      have key := toExpr?_ofExpr key (spelled.child (.tail _ (.head _)))
      refine (toExpr?_tagged .index (by decide) _).trans ?_
      simp [taggedExpr?, object, key, Placeless.ofExpr]
  | conditional _ test consequent alternate =>
      have test := toExpr?_ofExpr test (spelled.child (.head _))
      have consequent := toExpr?_ofExpr consequent (spelled.child (.tail _ (.head _)))
      have alternate := toExpr?_ofExpr alternate (spelled.child (.tail _ (.tail _ (.head _))))
      refine (toExpr?_tagged .conditional (by decide) _).trans ?_
      simp [taggedExpr?, test, consequent, alternate, Placeless.ofExpr]
  | function _ name function =>
      have inner : (Node.function function).Each Expr.Spelled :=
        spelled.child (.head _)
      obtain ⟨_, names, body⟩ := function
      have body := toBody?_ofBody body (inner.child (by simp [Node.children]))
      refine (toExpr?_tagged .functionExpression (by decide) _).trans ?_
      simp [taggedExpr?, parameters, toName?_optionalString, toParameters?_parameters, body,
        Placeless.ofExpr, Placeless.ofFunc]
  | identifier => exact toExpr?_tagged .identifier (by decide) _
  | member _ object name =>
      have object := toExpr?_ofExpr object (spelled.child (.head _))
      refine (toExpr?_tagged .member (by decide) _).trans ?_
      simp [taggedExpr?, object, Placeless.ofExpr]
  | construct _ constructor arguments =>
      have constructor := toExpr?_ofExpr constructor (spelled.child (.head _))
      have arguments := toArguments?_ofArguments arguments (spelled.child (.tail _ (.head _)))
      refine (toExpr?_tagged .construct (by decide) _).trans ?_
      simp [taggedExpr?, constructor, arguments, Placeless.ofExpr]
  | parenthesized _ inner =>
      have inner := toExpr?_ofExpr inner (spelled.child (.head _))
      refine (toExpr?_tagged .parenthesized (by decide) _).trans ?_
      simp [taggedExpr?, inner, Placeless.ofExpr]
  | this => exact toExpr?_tagged .this (by decide) _
  | unary _ operator argument =>
      have argument := toExpr?_ofExpr argument (spelled.child (.head _))
      rcases spelled.self with isTagged | rfl | rfl
      · have occurs := Tag.mem_all_of_isTagged isTagged
        rw [ofExpr_unary isTagged]
        refine (toExpr?_tagged _ occurs _).trans ?_
        simp [taggedExpr?, argument, Placeless.ofExpr]
      · refine (toExpr?_tagged .prefixUpdate (by decide) _).trans ?_
        simp [taggedExpr?, argument, Placeless.ofExpr, Operator.updateText]
      · refine (toExpr?_tagged .prefixUpdate (by decide) _).trans ?_
        simp [taggedExpr?, argument, Placeless.ofExpr, Operator.updateText]
  | update _ operator argument =>
      have argument := toExpr?_ofExpr argument (spelled.child (.head _))
      refine (toExpr?_tagged .postfixUpdate (by decide) _).trans ?_
      rcases spelled.self with rfl | rfl <;>
        simp [taggedExpr?, argument, Placeless.ofExpr, Operator.updateText]
  | array _ elements =>
      have elements := toElements?_ofElements elements fun element member node below =>
        spelled.child (List.mem_flatMap_of_mem member below)
      refine (toExpr?_tagged .array (by decide) _).trans ?_
      simp [taggedExpr?, elements, Placeless.ofExpr]
  | boolean _ value =>
      exact toExpr?_tagged (.boolean value) (by cases value <;> decide) _
  | null => exact toExpr?_tagged .null (by decide) _
  | number => exact toExpr?_tagged .number (by decide) _
  | object _ members =>
      have members := toMembers?_ofMembers members fun member listed =>
        spelled.child (List.mem_map_of_mem listed)
      refine (toExpr?_tagged .object (by decide) _).trans ?_
      simp [taggedExpr?, members, Placeless.ofExpr]
  | regex => exact toExpr?_tagged .regex (by decide) _
  | string => exact toExpr?_tagged .text (by decide) _

theorem toExprs?_ofExprs (values : List Expr)
    (spelled : ∀ value ∈ values, (Node.expression value).Each Expr.Spelled)
    : toExprs? (ofExprs values) = some (Placeless.ofExprs values) := by
  cases values with
  | nil => rfl
  | cons value values =>
      have value := toExpr?_ofExpr value (spelled _ List.mem_cons_self)
      have values := toExprs?_ofExprs values fun _ member => spelled _ (.tail _ member)
      simp [ofExprs, toExprs?, value, values, Placeless.ofExprs]

/-- An expression that may be missing is read back, or its absence is. -/
theorem unlessNil_ofOptionalExpr (value : Option Expr)
    (spelled : ∀ node ∈ value.toList.map Node.expression, node.Each Expr.Spelled)
    : unlessNil (ofOptionalExpr value) (toExpr? (ofOptionalExpr value))
      = some (Placeless.ofOptionalExpr value) := by
  cases value with
  | none => rfl
  | some value =>
      have read := toExpr?_ofExpr value (spelled _ (List.mem_singleton_self _))
      rw [ofOptionalExpr, unlessNil_of_isNil (isNil_ofExpr value), read]
      rfl

theorem toArguments?_ofArguments (arguments : Arguments)
    (spelled : (Node.arguments arguments).Each Expr.Spelled)
    : toArguments? (ofArguments arguments) = some (Placeless.ofArguments arguments) := by
  obtain ⟨_, values⟩ := arguments
  have values := toExprs?_ofExprs values fun value member =>
    spelled.child (List.mem_map_of_mem member)
  simp [ofArguments, tagged, toArguments?, values, Placeless.ofArguments]

/-- Elements are read back; a hole is written as `nil`, which no expression is. -/
theorem toElements?_ofElements (elements : List Element)
    (spelled : ∀ element ∈ elements, ∀ node ∈ element.children, node.Each Expr.Spelled)
    : toElements? (ofElements elements) = some (Placeless.ofElements elements) := by
  cases elements with
  | nil => rfl
  | cons element elements =>
      have rest := toElements?_ofElements elements fun _ member => spelled _ (.tail _ member)
      cases element with
      | hole => simp [ofElements, toElements?, rest, Placeless.ofElements, Placeless.ofElement]
      | value value =>
          have value := toExpr?_ofExpr value
            (spelled _ List.mem_cons_self _ (List.mem_singleton_self _))
          simp [ofElements, tagged, toElements?, value, rest, Placeless.ofElements,
            Placeless.ofElement]

theorem toMembers?_ofMembers (members : List Member)
    (spelled : ∀ member ∈ members, (Node.member member).Each Expr.Spelled)
    : toMembers? (ofMembers members) = some (Placeless.ofMembers members) := by
  cases members with
  | nil => rfl
  | cons member members =>
      have rest := toMembers?_ofMembers members fun _ member => spelled _ (.tail _ member)
      have inner := spelled _ List.mem_cons_self
      cases member with
      | property _ key value =>
          have value := toExpr?_ofExpr value (inner.child (List.mem_singleton_self _))
          have named : Tag.ofName? "property" = some .property :=
            Tag.ofName?_name_of_mem .property (by decide)
          simp [ofMembers, tagged, toMembers?, named, value, rest, Placeless.ofMembers,
            Placeless.ofMember]
      | getter _ key function =>
          have function := toFunc?_ofFunc "func_expr" nil function
            (inner.child (List.mem_singleton_self _))
          have named : Tag.ofName? "getter" = some .getter :=
            Tag.ofName?_name_of_mem .getter (by decide)
          simp [ofMembers, tagged, toMembers?, named, function, rest, Placeless.ofMembers,
            Placeless.ofMember]
      | setter _ key function =>
          have function := toFunc?_ofFunc "func_expr" nil function
            (inner.child (List.mem_singleton_self _))
          have named : Tag.ofName? "setter" = some .setter :=
            Tag.ofName?_name_of_mem .setter (by decide)
          simp [ofMembers, tagged, toMembers?, named, function, rest, Placeless.ofMembers,
            Placeless.ofMember]

/-- A function is read back whatever its tag and name are, which its own production reads. -/
theorem toFunc?_ofFunc (tag : String) (name : Form) (function : Func)
    (spelled : (Node.function function).Each Expr.Spelled)
    : toFunc? (ofFunc tag name function) = some (Placeless.ofFunc function) := by
  obtain ⟨_, names, body⟩ := function
  have body := toBody?_ofBody body (spelled.child (by simp [Node.children]))
  have names := toParameters?_parameters names
  simp only [tagged] at names
  simp [ofFunc, tagged, toFunc?, parameters, names, body, Placeless.ofFunc]

theorem toBody?_ofBody (body : Body) (spelled : (Node.body body).Each Expr.Spelled)
    : toBody? (ofBody body) = some (Placeless.ofBody body) := by
  obtain ⟨_, statements⟩ := body
  have spelled := fun statement (member : statement ∈ statements) =>
    spelled.child (List.mem_map_of_mem member)
  match statements with
  | [] => rfl
  | [statement] =>
      have read := toStmt?_ofStmt statement (spelled _ List.mem_cons_self)
      obtain ⟨name, items, same⟩ := exists_ofStmt statement
      rw [same] at read
      simp [ofBody, ofStmts, bodyContent, tagged, toBody?, same, tag?, read, Placeless.ofBody,
        Placeless.ofStmts]
  | first :: second :: rest =>
      have read := toStmts?_ofStmts (first :: second :: rest) spelled
      obtain ⟨name, items, same⟩ := exists_ofStmt first
      simp only [ofStmts, same] at read
      simp [ofBody, ofStmts, bodyContent, tagged, toBody?, toListed?, same, tag?, read,
        Placeless.ofBody]

theorem toBlock?_ofBlock (block : Block) (spelled : (Node.block block).Each Expr.Spelled)
    : toBlock? (ofBlock block) = some (Placeless.ofBlock block) := by
  obtain ⟨_, statements⟩ := block
  have read := toStmts?_ofStmts statements fun statement member =>
    spelled.child (List.mem_map_of_mem member)
  simp [ofBlock, tagged, toBlock?, read, Placeless.ofBlock]

theorem unlessNil_ofOptionalBlock (block : Option Block)
    (spelled : ∀ node ∈ block.toList.map Node.block, node.Each Expr.Spelled)
    : unlessNil (ofOptionalBlock block) (toBlock? (ofOptionalBlock block))
      = some (Placeless.ofOptionalBlock block) := by
  cases block with
  | none => rfl
  | some block =>
      have read := toBlock?_ofBlock block (spelled _ (List.mem_singleton_self _))
      rw [ofOptionalBlock, unlessNil_of_isNil (by cases block; rfl), read]
      rfl

/-- The branches of a `switch` are read back, one without a test as the default. -/
theorem toBranches?_ofBranches (branches : List Branch)
    (spelled : ∀ branch ∈ branches, (Node.branch branch).Each Expr.Spelled)
    : toBranches? (ofBranches branches) = some (Placeless.ofBranches branches) := by
  cases branches with
  | nil => rfl
  | cons branch branches =>
      have rest := toBranches?_ofBranches branches fun _ member => spelled _ (.tail _ member)
      have inner := spelled _ List.mem_cons_self
      obtain ⟨_, test, body⟩ := branch
      have test := unlessNil_ofOptionalExpr test fun node below =>
        inner.child (List.mem_append_left _ below)
      have body := toStmts?_ofStmts body fun statement member =>
        inner.child (List.mem_append_right _ (List.mem_map_of_mem member))
      simp [ofBranches, tagged, toBranches?, test, body, rest, Placeless.ofBranches,
        Placeless.ofBranch]

theorem toDeclarators?_ofDeclarators (mode : DeclarationMode) (declarators : List Declarator)
    (spelled : ∀ declarator ∈ declarators, ∀ node ∈ declarator.children, node.Each Expr.Spelled)
    : toDeclarators? (ofDeclarators mode declarators)
      = some (Placeless.ofDeclarators declarators) := by
  cases declarators with
  | nil => rfl
  | cons declarator declarators =>
      have rest := toDeclarators?_ofDeclarators mode declarators fun _ member =>
        spelled _ (.tail _ member)
      obtain ⟨name, _ | ⟨span, value⟩⟩ := declarator
      · simp [ofDeclarators, tagged, toDeclarators?, unlessNil, isNil, rest, Placeless.ofDeclarators,
          Placeless.ofDeclarator, Placeless.ofOptionalInitializer]
      · have inner := spelled _ List.mem_cons_self (.initializer { span, value })
          (List.mem_singleton_self _)
        have value := toExpr?_ofExpr value (inner.child (List.mem_singleton_self _))
        simp [ofDeclarators, tagged, toDeclarators?, unlessNil, isNil, toInitializer?, value, rest,
          Placeless.ofDeclarators, Placeless.ofDeclarator, Placeless.ofOptionalInitializer,
          Placeless.ofInitializer]

/-- A declarator is read back as the declaration of it alone. -/
theorem toDeclaration?_ofDeclarator (mode : DeclarationMode) (declarator : Declarator)
    (spelled : ∀ node ∈ declarator.children, node.Each Expr.Spelled)
    : toDeclaration? (ofDeclarator mode declarator)
      = some
          {
            span := .nowhere
            mode
            declarators := [Placeless.ofDeclarator declarator]
          } := by
  refine (toDeclaration?_tagged (.declarator mode) (by cases mode <;> decide) _).trans ?_
  obtain ⟨name, _ | ⟨span, value⟩⟩ := declarator
  · rfl
  · have inner := spelled (.initializer { span, value }) (List.mem_singleton_self _)
    have value := toExpr?_ofExpr value (inner.child (List.mem_singleton_self _))
    simp [taggedDeclaration?, tagged, unlessNil, isNil, toInitializer?, value,
      Placeless.ofDeclarator, Placeless.ofOptionalInitializer, Placeless.ofInitializer]

/-- A declaration is read back with its declarators, of which there may be any number. -/
theorem toDeclaration?_ofDeclaration (declaration : Declaration)
    (spelled : (Node.declaration declaration).Each Expr.Spelled)
    : toDeclaration? (ofDeclaration declaration)
      = some (Placeless.ofDeclaration declaration) := by
  obtain ⟨_, mode, declarators⟩ := declaration
  have read := toDeclarators?_ofDeclarators mode declarators fun declarator member node below =>
    spelled.child (List.mem_flatMap_of_mem member below)
  refine (toDeclaration?_tagged (.declaration mode) (by cases mode <;> decide) _).trans ?_
  simp [taggedDeclaration?, read, Placeless.ofDeclaration]

/-- The target of a loop is read back: no form is both an expression and a declaration. -/
theorem forInTarget?_ofForInTarget (target : ForInTarget)
    (spelled : ∀ node ∈ target.children, node.Each Expr.Spelled)
    : forInTarget? (toExpr? (ofForInTarget target)) (toDeclaration? (ofForInTarget target))
      = some (Placeless.ofForInTarget target) := by
  cases target with
  | expression value =>
      have read := toExpr?_ofExpr value (spelled _ (List.mem_singleton_self _))
      simp [ofForInTarget, forInTarget?, read, Placeless.ofForInTarget]
  | declaration declaration =>
      have inner := spelled _ (List.mem_singleton_self _)
      have read := toDeclaration?_ofDeclaration declaration inner
      obtain ⟨span, mode, declarators⟩ := declaration
      have noExpr := toExpr?_ofDeclaration { span, mode, declarators }
      cases declarators with
      | nil => simp [ofForInTarget_declaration, forInTarget?, noExpr, read, Placeless.ofForInTarget]
      | cons declarator rest =>
          cases rest with
          | nil =>
              have noExpr : toExpr? (ofDeclarator mode declarator) = none :=
                toExpr?_tagged (.declarator mode) (by cases mode <;> decide) _
              have read := toDeclaration?_ofDeclarator mode declarator fun node below =>
                inner.child (List.mem_flatMap_of_mem List.mem_cons_self below)
              simp [ofForInTarget_declaration, forInTarget?, noExpr, read, Placeless.ofForInTarget,
                Placeless.ofDeclaration, Placeless.ofDeclarators]
          | cons second rest =>
              simp [ofForInTarget_declaration, forInTarget?, noExpr, read, Placeless.ofForInTarget]

/-- The first clause of a loop is read back as what it was: nothing, an expression or a declaration. -/
theorem forStart?_ofForStart (start : ForStart)
    (spelled : ∀ node ∈ start.children, node.Each Expr.Spelled)
    : forStart? (ofForStart start) (toExpr? (ofForStart start))
          (toDeclaration? (ofForStart start))
      = some (Placeless.ofForStart start) := by
  cases start with
  | nothing => rfl
  | expression value =>
      have read := toExpr?_ofExpr value (spelled _ (List.mem_singleton_self _))
      simp [ofForStart, forStart?, isNil_ofExpr, read, Placeless.ofForStart]
  | declaration declaration =>
      have read := toDeclaration?_ofDeclaration declaration (spelled _ (List.mem_singleton_self _))
      have noExpr := toExpr?_ofDeclaration declaration
      have present : (ofDeclaration declaration).isNil = false := by cases declaration; rfl
      simp [ofForStart, forStart?, present, noExpr, read, Placeless.ofForStart]

/-- A statement is read back from its form, by cases on the statement, with its parts by recursion. -/
theorem toStmt?_ofStmt (statement : Stmt)
    (spelled : (Node.statement statement).Each Expr.Spelled)
    : toStmt? (ofStmt statement) = some (Placeless.ofStmt statement) := by
  cases statement with
  | block block =>
      have inner : (Node.block block).Each Expr.Spelled :=
        spelled.child (.head _)
      obtain ⟨_, statements⟩ := block
      have read := toStmts?_ofStmts statements fun statement member =>
        inner.child (List.mem_map_of_mem member)
      refine (toStmt?_tagged .block (by decide) _).trans ?_
      simp [taggedStmt?, read, Placeless.ofStmt, Placeless.ofBlock]
  | breakTo _ label =>
      refine (toStmt?_tagged .breakTo (by decide) _).trans ?_
      cases label <;> rfl
  | continueTo _ label =>
      refine (toStmt?_tagged .continueTo (by decide) _).trans ?_
      cases label <;> rfl
  | doWhile _ body condition =>
      have body := toStmt?_ofStmt body (spelled.child (.tail _ (.head _)))
      have condition := toExpr?_ofExpr condition (spelled.child (.head _))
      refine (toStmt?_tagged .doWhile (by decide) _).trans ?_
      simp [taggedStmt?, body, condition, Placeless.ofStmt]
  | empty => exact toStmt?_tagged .empty (by decide) _
  | expression _ value =>
      have value := toExpr?_ofExpr value (spelled.child (.head _))
      refine (toStmt?_tagged .expression (by decide) _).trans ?_
      simp [taggedStmt?, value, Placeless.ofStmt]
  | forIn _ target object body =>
      have target := forInTarget?_ofForInTarget target fun node below =>
        spelled.child (by simp [Node.children, Stmt.children, below])
      have object := toExpr?_ofExpr object (spelled.child (by simp [Node.children, Stmt.children]))
      have body := toStmt?_ofStmt body (spelled.child (by simp [Node.children, Stmt.children]))
      refine (toStmt?_tagged .forIn (by decide) _).trans ?_
      simp [taggedStmt?, target, object, body, Placeless.ofStmt]
  | forLoop _ start condition update body =>
      have start := forStart?_ofForStart start fun node below =>
        spelled.child (by simp only [Node.children, Stmt.children, List.mem_append, below, true_or])
      have condition := unlessNil_ofOptionalExpr condition fun node below =>
        spelled.child
          (by simp only [Node.children, Stmt.children, List.mem_append, below, true_or, or_true])
      have update := unlessNil_ofOptionalExpr update fun node below =>
        spelled.child
          (by simp only [Node.children, Stmt.children, List.mem_append, below, true_or, or_true])
      have body := toStmt?_ofStmt body (spelled.child (by simp [Node.children, Stmt.children]))
      refine (toStmt?_tagged .forLoop (by decide) _).trans ?_
      simp [taggedStmt?, start, condition, update, body, Placeless.ofStmt]
  | ifElse _ test consequent alternate =>
      have test := toExpr?_ofExpr test (spelled.child (.head _))
      have consequent := toStmt?_ofStmt consequent (spelled.child (.tail _ (.head _)))
      cases alternate with
      | none =>
          refine (toStmt?_tagged .ifElse (by decide) _).trans ?_
          simp [taggedStmt?, test, consequent, Placeless.ofStmt, Placeless.ofOptionalStmt]
      | some alternate =>
          have alternate := toStmt?_ofStmt alternate (spelled.child (.tail _ (.tail _ (.head _))))
          refine (toStmt?_tagged .ifElse (by decide) _).trans ?_
          simp [taggedStmt?, test, consequent, alternate, Placeless.ofStmt,
            Placeless.ofOptionalStmt]
  | labelled _ label inner =>
      have inner := toStmt?_ofStmt inner (spelled.child (.head _))
      refine (toStmt?_tagged .labelled (by decide) _).trans ?_
      simp [taggedStmt?, inner, Placeless.ofStmt]
  | returnValue _ value =>
      cases value with
      | none => exact toStmt?_tagged .returnValue (by decide) _
      | some value =>
          have value := toExpr?_ofExpr value (spelled.child (.head _))
          refine (toStmt?_tagged .returnValue (by decide) _).trans ?_
          simp [taggedStmt?, value, Placeless.ofStmt, Placeless.ofOptionalExpr]
  | switch _ test branches =>
      have test := toExpr?_ofExpr test (spelled.child (.head _))
      have branches := toBranches?_ofBranches branches fun branch member =>
        spelled.child (by simp [Node.children, Stmt.children, member])
      refine (toStmt?_tagged .switch (by decide) _).trans ?_
      simp [taggedStmt?, tagged, test, branches, Placeless.ofStmt]
  | throwValue _ value =>
      cases value with
      | none => exact toStmt?_tagged .throwValue (by decide) _
      | some value =>
          have value := toExpr?_ofExpr value (spelled.child (.head _))
          refine (toStmt?_tagged .throwValue (by decide) _).trans ?_
          simp [taggedStmt?, value, Placeless.ofStmt, Placeless.ofOptionalExpr]
  | tryBlock _ block handler finalizer =>
      have block := toBlock?_ofBlock block (spelled.child (.head _))
      have finalizer := unlessNil_ofOptionalBlock finalizer fun node below =>
        spelled.child (.tail _ (List.mem_append_right _ below))
      cases handler with
      | none =>
          refine (toStmt?_tagged .tryBlock (by decide) _).trans ?_
          simp [taggedStmt?, block, finalizer, Placeless.ofStmt, Placeless.ofOptionalHandler]
      | some handler =>
          have inner : (Node.handler handler).Each Expr.Spelled :=
            spelled.child (.tail _ (.head _))
          obtain ⟨_, parameter, body⟩ := handler
          have body := toBlock?_ofBlock body (inner.child (List.mem_singleton_self _))
          refine (toStmt?_tagged .tryBlock (by decide) _).trans ?_
          simp [taggedStmt?, block, body, finalizer, Placeless.ofStmt,
            Placeless.ofOptionalHandler, Placeless.ofHandler]
  | whileLoop _ condition body =>
      have condition := toExpr?_ofExpr condition (spelled.child (.head _))
      have body := toStmt?_ofStmt body (spelled.child (.tail _ (.head _)))
      refine (toStmt?_tagged .whileLoop (by decide) _).trans ?_
      simp [taggedStmt?, condition, body, Placeless.ofStmt]
  | withObject _ object body =>
      have object := toExpr?_ofExpr object (spelled.child (.head _))
      have body := toStmt?_ofStmt body (spelled.child (.tail _ (.head _)))
      refine (toStmt?_tagged .withObject (by decide) _).trans ?_
      simp [taggedStmt?, object, body, Placeless.ofStmt]
  | function _ name function =>
      have inner : (Node.function function).Each Expr.Spelled :=
        spelled.child (.head _)
      obtain ⟨_, names, body⟩ := function
      have body := toBody?_ofBody body (inner.child (by simp [Node.children]))
      refine (toStmt?_tagged .functionStatement (by decide) _).trans ?_
      simp [taggedStmt?, parameters, toParameters?_parameters, body, Placeless.ofStmt,
        Placeless.ofFunc]
  | declaration declaration =>
      have inner : (Node.declaration declaration).Each Expr.Spelled :=
        spelled.child (.head _)
      obtain ⟨_, mode, declarators⟩ := declaration
      have read := toDeclarators?_ofDeclarators mode declarators fun declarator member node below =>
        inner.child (List.mem_flatMap_of_mem member below)
      refine (toStmt?_tagged (.declaration mode) (by cases mode <;> decide) _).trans ?_
      simp [taggedStmt?, read, Placeless.ofStmt, Placeless.ofDeclaration]

theorem toStmts?_ofStmts (statements : List Stmt)
    (spelled : ∀ statement ∈ statements, (Node.statement statement).Each Expr.Spelled)
    : toStmts? (ofStmts statements) = some (Placeless.ofStmts statements) := by
  cases statements with
  | nil => rfl
  | cons statement statements =>
      have first := toStmt?_ofStmt statement (spelled _ List.mem_cons_self)
      have rest := toStmts?_ofStmts statements fun _ member => spelled _ (.tail _ member)
      simp [ofStmts, toStmts?, first, rest, Placeless.ofStmts]

end

end Form

end EcmaSyntax
