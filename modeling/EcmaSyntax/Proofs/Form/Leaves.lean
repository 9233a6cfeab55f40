import EcmaSyntax.Proofs.Form.Decoding
import EcmaSyntax.Proofs.Form.ReadBack

/-! What the forms of trees consist of. Beside tags and texts a form takes over from its tree the numbers
of literals and, as atoms, the names of declared variables; a condition on those carries over to all that
the form contains.
-/

namespace EcmaSyntax

open EcmaSyntax.Form

-----------------------------------------------------------------------------------------
-- Leaves
-----------------------------------------------------------------------------------------

namespace Form

mutual

/-- The condition holds of every form in the form, at any depth, that is no list. -/
def Leaves (condition : Form → Prop) : Form → Prop
  | list items => AllLeaves condition items
  | nil => condition nil
  | atom name => condition (atom name)
  | string value => condition (string value)
  | number value => condition (number value)

def AllLeaves (condition : Form → Prop) : List Form → Prop
  | [] => True
  | item :: items => item.Leaves condition ∧ AllLeaves condition items

end

/-- The condition holds of all that forms contain whatever the tree: `nil`, texts and tags. -/
structure Closed (condition : Form → Prop) : Prop where
  nil : condition nil
  string (value : String) : condition (string value)
  tag {name : String} (isWord : IsWord name) : condition (atom name)

/-- The tag of an operator is a word. -/
theorem isWord_tag (operator : Operator) : IsWord operator.tag := by
  cases operator <;> decide

end Form

/-- The condition holds of the leaves that the form of the node takes over from it. -/
def Node.KeepsLeaves (condition : Form → Prop) : Node → Prop
  | expression (.number _ value) => condition (.number value)
  | declaration inner => ∀ declarator ∈ inner.declarators, condition (.atom declarator.name)
  | _ => True

namespace Form

variable {condition : Form → Prop}

-----------------------------------------------------------------------------------------
-- The leaves of the forms of trees
-----------------------------------------------------------------------------------------

/-- Parameters consist of tags and texts. -/
theorem leaves_parameters (closed : Closed condition) (names : List Parameter)
    : (parameters names).Leaves condition := by
  induction names with
  | nil => trivial
  | cons name names ih => exact ⟨⟨closed.tag (by decide), closed.string _, trivial⟩, ih⟩

theorem leaves_bodyContent {forms : List Form} (all : AllLeaves condition forms)
    : (bodyContent forms).Leaves condition := by
  unfold bodyContent
  split
  · exact all.1
  · exact all

mutual

/-- The form of an expression keeps the condition that its nodes keep, by cases on the expression. -/
theorem leaves_ofExpr (closed : Closed condition) (value : Expr)
    (all : (Node.expression value).Everywhere (Node.KeepsLeaves condition))
    : (ofExpr value).Leaves condition := by
  cases value with
  | binary _ operator left right =>
      have left := leaves_ofExpr closed left (all.child (.head _))
      have right := leaves_ofExpr closed right (all.child (.tail _ (.head _)))
      exact ⟨closed.tag (isWord_tag operator), left, right, trivial⟩
  | index _ object key =>
      have object := leaves_ofExpr closed object (all.child (.head _))
      have key := leaves_ofExpr closed key (all.child (.tail _ (.head _)))
      exact ⟨closed.tag (by decide), object, key, trivial⟩
  | call _ callee arguments | construct _ callee arguments =>
      have callee := leaves_ofExpr closed callee (all.child (.head _))
      have arguments := leaves_ofArguments closed arguments (all.child (.tail _ (.head _)))
      exact ⟨closed.tag (by decide), callee, arguments, trivial⟩
  | conditional _ test consequent alternate =>
      have test := leaves_ofExpr closed test (all.child (.head _))
      have consequent := leaves_ofExpr closed consequent (all.child (.tail _ (.head _)))
      have alternate := leaves_ofExpr closed alternate (all.child (.tail _ (.tail _ (.head _))))
      exact ⟨closed.tag (by decide), test, consequent, alternate, trivial⟩
  | function _ name function =>
      refine leaves_ofFunc closed "func_expr" _ (by decide) ?_ function (all.child (.head _))
      cases name with
      | none => exact closed.nil
      | some name => exact closed.string name
  | member _ object =>
      have object := leaves_ofExpr closed object (all.child (.head _))
      exact ⟨closed.tag (by decide), object, closed.string _, trivial⟩
  | parenthesized _ inner =>
      exact ⟨closed.tag (by decide), leaves_ofExpr closed inner (all.child (.head _)), trivial⟩
  | unary _ operator argument =>
      have argument := leaves_ofExpr closed argument (all.child (.head _))
      unfold ofExpr
      split
      · exact ⟨closed.tag (by decide), argument, closed.string _, trivial⟩
      · exact ⟨closed.tag (by decide), argument, closed.string _, trivial⟩
      · exact ⟨closed.tag (isWord_tag operator), argument, trivial⟩
  | update _ _ argument =>
      have argument := leaves_ofExpr closed argument (all.child (.head _))
      exact ⟨closed.tag (by decide), argument, closed.string _, trivial⟩
  | array _ elements =>
      have elements := leaves_ofElements closed elements fun element member node below =>
        all.child (List.mem_flatMap_of_mem member below)
      exact ⟨closed.tag (by decide), elements, trivial⟩
  | object _ members =>
      have members := leaves_ofMembers closed members fun member listed =>
        all.child (List.mem_map_of_mem listed)
      exact ⟨closed.tag (by decide), members, trivial⟩
  | number => exact ⟨closed.tag (by decide), all.self, trivial⟩
  | identifier | regex | string => exact ⟨closed.tag (by decide), closed.string _, trivial⟩
  | boolean _ value =>
      cases value with
      | true | false => exact ⟨closed.tag (by decide), trivial⟩
  | this | null => exact ⟨closed.tag (by decide), trivial⟩

/-- Forms of expressions keep the condition one by one. -/
theorem leaves_ofExprs (closed : Closed condition) (values : List Expr)
    (all : ∀ value ∈ values, (Node.expression value).Everywhere (Node.KeepsLeaves condition))
    : AllLeaves condition (ofExprs values) := by
  cases values with
  | nil => trivial
  | cons value values =>
      exact ⟨leaves_ofExpr closed value (all _ List.mem_cons_self),
        leaves_ofExprs closed values fun _ member => all _ (.tail _ member)⟩

/-- An expression that is missing is written as `nil`. -/
theorem leaves_ofOptionalExpr (closed : Closed condition) (value : Option Expr)
    (all
      :  ∀ node ∈ value.toList.map Node.expression,
          node.Everywhere (Node.KeepsLeaves condition))
    : (ofOptionalExpr value).Leaves condition := by
  cases value with
  | none => exact closed.nil
  | some value => exact leaves_ofExpr closed value (all _ (List.mem_singleton_self _))

theorem leaves_ofArguments (closed : Closed condition) (arguments : Arguments)
    (all : (Node.arguments arguments).Everywhere (Node.KeepsLeaves condition))
    : (ofArguments arguments).Leaves condition := by
  obtain ⟨_, values⟩ := arguments
  have values := leaves_ofExprs closed values fun value member =>
    all.child (List.mem_map_of_mem member)
  exact ⟨closed.tag (by decide), values, trivial⟩

/-- Elements keep the condition; a hole is written as `nil`. -/
theorem leaves_ofElements (closed : Closed condition) (elements : List Element)
    (all
      :  ∀ element ∈ elements, ∀ node ∈ element.children,
          node.Everywhere (Node.KeepsLeaves condition))
    : AllLeaves condition (ofElements elements) := by
  cases elements with
  | nil => trivial
  | cons element elements =>
      have rest := leaves_ofElements closed elements fun _ member => all _ (.tail _ member)
      cases element with
      | hole => exact ⟨closed.nil, rest⟩
      | value value =>
          have value := leaves_ofExpr closed value
            (all _ List.mem_cons_self _ (List.mem_singleton_self _))
          exact ⟨⟨closed.tag (by decide), value, trivial⟩, rest⟩

/-- Members of an object keep the condition, their keys being texts. -/
theorem leaves_ofMembers (closed : Closed condition) (members : List Member)
    (all : ∀ member ∈ members, (Node.member member).Everywhere (Node.KeepsLeaves condition))
    : AllLeaves condition (ofMembers members) := by
  cases members with
  | nil => trivial
  | cons member members =>
      have rest := leaves_ofMembers closed members fun _ member => all _ (.tail _ member)
      have inner := all _ List.mem_cons_self
      cases member with
      | property _ _ value =>
          have value := leaves_ofExpr closed value (inner.child (List.mem_singleton_self _))
          exact ⟨⟨closed.tag (by decide), closed.string _, value, trivial⟩, rest⟩
      | getter _ _ function | setter _ _ function =>
          have function := leaves_ofFunc closed "func_expr" nil (by decide) closed.nil function
            (inner.child (List.mem_singleton_self _))
          exact ⟨⟨closed.tag (by decide), closed.string _, function, trivial⟩, rest⟩

/-- A function keeps the condition if its name does, which the production that it stands in writes. -/
theorem leaves_ofFunc (closed : Closed condition) (tag : String) (name : Form)
    (isWord : IsWord tag) (named : name.Leaves condition) (function : Func)
    (all : (Node.function function).Everywhere (Node.KeepsLeaves condition))
    : (ofFunc tag name function).Leaves condition := by
  obtain ⟨_, names, body⟩ := function
  have body := leaves_ofBody closed body (all.child (by simp [Node.children]))
  exact ⟨closed.tag isWord, named, leaves_parameters closed names, body, trivial⟩

theorem leaves_ofBody (closed : Closed condition) (body : Body)
    (all : (Node.body body).Everywhere (Node.KeepsLeaves condition))
    : (ofBody body).Leaves condition := by
  obtain ⟨_, statements⟩ := body
  have all := leaves_ofStmts closed statements fun statement member =>
    all.child (List.mem_map_of_mem member)
  exact ⟨closed.tag (by decide), leaves_bodyContent all, trivial⟩

/-- The form of a statement keeps the condition that its nodes keep, by cases on the statement. -/
theorem leaves_ofStmt (closed : Closed condition) (statement : Stmt)
    (all : (Node.statement statement).Everywhere (Node.KeepsLeaves condition))
    : (ofStmt statement).Leaves condition := by
  cases statement with
  | block block => exact leaves_ofBlock closed block (all.child (.head _))
  | breakTo _ label | continueTo _ label =>
      cases label with
      | none => exact ⟨closed.tag (by decide), trivial⟩
      | some label => exact ⟨closed.tag (by decide), closed.string label, trivial⟩
  | doWhile _ body test =>
      have body := leaves_ofStmt closed body (all.child (.tail _ (.head _)))
      have test := leaves_ofExpr closed test (all.child (.head _))
      exact ⟨closed.tag (by decide), body, test, trivial⟩
  | empty => exact ⟨closed.tag (by decide), trivial⟩
  | expression _ value =>
      exact ⟨closed.tag (by decide), leaves_ofExpr closed value (all.child (.head _)), trivial⟩
  | forIn _ target object body =>
      have target := leaves_ofForInTarget closed target fun node below =>
        all.child (by simp [Node.children, Stmt.children, below])
      have object := leaves_ofExpr closed object
        (all.child (by simp [Node.children, Stmt.children]))
      have body := leaves_ofStmt closed body (all.child (by simp [Node.children, Stmt.children]))
      exact ⟨closed.tag (by decide), target, object, body, trivial⟩
  | forLoop _ start test update body =>
      have start := leaves_ofForStart closed start fun node below =>
        all.child (by simp only [Node.children, Stmt.children, List.mem_append, below, true_or])
      have test := leaves_ofOptionalExpr closed test fun node below =>
        all.child
          (by simp only [Node.children, Stmt.children, List.mem_append, below, true_or, or_true])
      have update := leaves_ofOptionalExpr closed update fun node below =>
        all.child
          (by simp only [Node.children, Stmt.children, List.mem_append, below, true_or, or_true])
      have body := leaves_ofStmt closed body (all.child (by simp [Node.children, Stmt.children]))
      exact ⟨closed.tag (by decide), start, test, update, body, trivial⟩
  | ifElse _ test consequent alternate =>
      have test := leaves_ofExpr closed test (all.child (.head _))
      have consequent := leaves_ofStmt closed consequent (all.child (.tail _ (.head _)))
      cases alternate with
      | none => exact ⟨closed.tag (by decide), test, consequent, trivial⟩
      | some alternate =>
          have alternate := leaves_ofStmt closed alternate (all.child (.tail _ (.tail _ (.head _))))
          exact ⟨closed.tag (by decide), test, consequent, alternate, trivial⟩
  | labelled _ _ inner =>
      have inner := leaves_ofStmt closed inner (all.child (.head _))
      exact ⟨closed.tag (by decide), closed.string _, inner, trivial⟩
  | returnValue _ value | throwValue _ value =>
      cases value with
      | none => exact ⟨closed.tag (by decide), trivial⟩
      | some value =>
          exact ⟨closed.tag (by decide), leaves_ofExpr closed value (all.child (.head _)), trivial⟩
  | switch _ test branches =>
      have test := leaves_ofExpr closed test (all.child (.head _))
      have branches := leaves_ofBranches closed branches fun branch member =>
        all.child (by simp [Node.children, Stmt.children, member])
      exact ⟨closed.tag (by decide), test, ⟨closed.tag (by decide), branches, trivial⟩, trivial⟩
  | tryBlock _ block handler finalizer =>
      have block := leaves_ofBlock closed block (all.child (.head _))
      have finalizer := leaves_ofOptionalBlock closed finalizer fun node below =>
        all.child (.tail _ (List.mem_append_right _ below))
      cases handler with
      | none => exact ⟨closed.tag (by decide), block, closed.nil, closed.nil, finalizer, trivial⟩
      | some handler =>
          have inner : (Node.handler handler).Everywhere (Node.KeepsLeaves condition) :=
            all.child (.tail _ (.head _))
          obtain ⟨_, parameter, body⟩ := handler
          have body := leaves_ofBlock closed body (inner.child (List.mem_singleton_self _))
          exact ⟨closed.tag (by decide), block, closed.string parameter, body, finalizer, trivial⟩
  | whileLoop _ value body | withObject _ value body =>
      have value := leaves_ofExpr closed value (all.child (.head _))
      have body := leaves_ofStmt closed body (all.child (.tail _ (.head _)))
      exact ⟨closed.tag (by decide), value, body, trivial⟩
  | function _ name function =>
      exact leaves_ofFunc closed "func_decl" (string name) (by decide) (closed.string name) function
        (all.child (.head _))
  | declaration declaration => exact leaves_ofDeclaration closed declaration (all.child (.head _))

theorem leaves_ofStmts (closed : Closed condition) (statements : List Stmt)
    (all
      :  ∀ statement ∈ statements,
          (Node.statement statement).Everywhere (Node.KeepsLeaves condition))
    : AllLeaves condition (ofStmts statements) := by
  cases statements with
  | nil => trivial
  | cons statement statements =>
      exact ⟨leaves_ofStmt closed statement (all _ List.mem_cons_self),
        leaves_ofStmts closed statements fun _ member => all _ (.tail _ member)⟩

theorem leaves_ofBlock (closed : Closed condition) (block : Block)
    (all : (Node.block block).Everywhere (Node.KeepsLeaves condition))
    : (ofBlock block).Leaves condition := by
  obtain ⟨_, statements⟩ := block
  have all := leaves_ofStmts closed statements fun statement member =>
    all.child (List.mem_map_of_mem member)
  exact ⟨closed.tag (by decide), all, trivial⟩

theorem leaves_ofOptionalBlock (closed : Closed condition) (block : Option Block)
    (all : ∀ node ∈ block.toList.map Node.block, node.Everywhere (Node.KeepsLeaves condition))
    : (ofOptionalBlock block).Leaves condition := by
  cases block with
  | none => exact closed.nil
  | some block => exact leaves_ofBlock closed block (all _ (List.mem_singleton_self _))

/-- The branches of a `switch` keep the condition, one without a test as well. -/
theorem leaves_ofBranches (closed : Closed condition) (branches : List Branch)
    (all : ∀ branch ∈ branches, (Node.branch branch).Everywhere (Node.KeepsLeaves condition))
    : AllLeaves condition (ofBranches branches) := by
  cases branches with
  | nil => trivial
  | cons branch branches =>
      have rest := leaves_ofBranches closed branches fun _ member => all _ (.tail _ member)
      have inner := all _ List.mem_cons_self
      obtain ⟨_, test, body⟩ := branch
      have test := leaves_ofOptionalExpr closed test fun node below =>
        inner.child (List.mem_append_left _ below)
      have body := leaves_ofStmts closed body fun statement member =>
        inner.child (List.mem_append_right _ (List.mem_map_of_mem member))
      exact ⟨⟨closed.tag (by decide), test, body, trivial⟩, rest⟩

/-- The target of a loop keeps the condition, as the declarator or the expression that it is. -/
theorem leaves_ofForInTarget (closed : Closed condition) (target : ForInTarget)
    (all : ∀ node ∈ target.children, node.Everywhere (Node.KeepsLeaves condition))
    : (ofForInTarget target).Leaves condition := by
  cases target with
  | expression value => exact leaves_ofExpr closed value (all _ (List.mem_singleton_self _))
  | declaration declaration =>
      have whole := leaves_ofDeclaration closed declaration (all _ (List.mem_singleton_self _))
      obtain ⟨span, mode, declarators⟩ := declaration
      rw [ofForInTarget_declaration]
      split
      next declarator =>
        have single : AllLeaves condition (ofDeclarators mode [declarator]) := whole.2.1
        rw [ofDeclarators_cons] at single
        exact single.1
      next => exact whole

/-- The first clause of a loop keeps the condition, as what it is. -/
theorem leaves_ofForStart (closed : Closed condition) (start : ForStart)
    (all : ∀ node ∈ start.children, node.Everywhere (Node.KeepsLeaves condition))
    : (ofForStart start).Leaves condition := by
  cases start with
  | nothing => exact closed.nil
  | expression value => exact leaves_ofExpr closed value (all _ (List.mem_singleton_self _))
  | declaration declaration =>
      exact leaves_ofDeclaration closed declaration (all _ (List.mem_singleton_self _))

/-- A declaration keeps the condition, with the atoms for the names that it declares. -/
theorem leaves_ofDeclaration (closed : Closed condition) (declaration : Declaration)
    (all : (Node.declaration declaration).Everywhere (Node.KeepsLeaves condition))
    : (ofDeclaration declaration).Leaves condition := by
  have names : ∀ declarator ∈ declaration.declarators, condition (atom declarator.name) := all.self
  obtain ⟨_, mode, declarators⟩ := declaration
  have inner := leaves_ofDeclarators closed mode declarators names
    fun declarator member node below => all.child (List.mem_flatMap_of_mem member below)
  have tag : IsWord (declarationTag mode) := by cases mode <;> decide
  exact ⟨closed.tag tag, inner, trivial⟩

/-- Declarators keep the condition if it holds of their names as atoms. -/
theorem leaves_ofDeclarators (closed : Closed condition) (mode : DeclarationMode)
    (declarators : List Declarator)
    (names : ∀ declarator ∈ declarators, condition (atom declarator.name))
    (all
      : ∀ declarator ∈ declarators,
          ∀ node ∈ declarator.children, node.Everywhere (Node.KeepsLeaves condition))
    : AllLeaves condition (ofDeclarators mode declarators) := by
  cases declarators with
  | nil => trivial
  | cons declarator declarators =>
      obtain ⟨name, names⟩ := List.forall_mem_cons.mp names
      have rest := leaves_ofDeclarators closed mode declarators names fun _ member =>
        all _ (.tail _ member)
      have tag : IsWord (declaratorTag mode) := by cases mode <;> decide
      obtain ⟨_, _ | ⟨span, value⟩⟩ := declarator
      · exact ⟨⟨closed.tag tag, name, closed.nil, trivial⟩, rest⟩
      · have inner := all _ List.mem_cons_self (.initializer { span, value })
          (List.mem_singleton_self _)
        have value := leaves_ofExpr closed value (inner.child (List.mem_singleton_self _))
        exact ⟨⟨closed.tag tag, name, ⟨closed.tag (by decide), value, trivial⟩, trivial⟩, rest⟩

end

end Form

end EcmaSyntax
