import EcmaSyntax.Proofs.Tree.Node

/-! Induction over trees, whatever their nodes are: what holds of a node whenever it holds of the nodes right
below it holds of every node.
-/

namespace EcmaSyntax

-----------------------------------------------------------------------------------------
-- The nodes below a node are smaller
-----------------------------------------------------------------------------------------

variable {α : Type} [SizeOf α] {child : Node}

/-- What is in one of the values of a list is no larger than the list. -/
theorem Node.sizeOf_mem_map {f : α → Node} (list : List α) (below : child ∈ list.map f)
    (size : ∀ inner, sizeOf (f inner) = 1 + sizeOf inner)
    : sizeOf child < 1 + sizeOf list := by
  obtain ⟨inner, member, rfl⟩ := List.mem_map.mp below
  have smaller := List.sizeOf_lt_of_mem member
  have := size inner
  omega

/-- What is in an optional value is no larger than it. -/
theorem Node.sizeOf_mem_toList {f : α → Node} (value : Option α)
    (below : child ∈ value.toList.map f) (size : ∀ inner, sizeOf (f inner) = 1 + sizeOf inner)
    : sizeOf child < 1 + sizeOf value := by
  cases value with
  | none => cases below
  | some inner =>
      obtain rfl := List.mem_singleton.mp below
      have := size inner
      simp only [Option.some.sizeOf_spec]
      omega

/-- What is in one of the parts of a list is no larger than the list. -/
theorem Node.sizeOf_mem_flatMap {f : α → List Node} (list : List α)
    (below : child ∈ list.flatMap f)
    (size : ∀ inner, child ∈ f inner → sizeOf child < 1 + sizeOf inner)
    : sizeOf child < 1 + sizeOf list := by
  obtain ⟨inner, member, inside⟩ := List.mem_flatMap.mp below
  have smaller := List.sizeOf_lt_of_mem member
  have := size inner inside
  omega

/-- The value of an element is no larger than the element. -/
theorem Element.sizeOf_child {element : Element} (below : child ∈ element.children)
    : sizeOf child < 1 + sizeOf element := by
  cases element with
  | value value =>
      obtain rfl := List.mem_singleton.mp below
      simp
  | hole => cases below

/-- The initializer of a declarator is no larger than the declarator. -/
theorem Declarator.sizeOf_child {declarator : Declarator} (below : child ∈ declarator.children)
    : sizeOf child < 1 + sizeOf declarator := by
  obtain ⟨name, initializer⟩ := declarator
  have := Node.sizeOf_mem_toList initializer below fun _ => rfl
  simp only [Declarator.mk.sizeOf_spec]
  omega

/-- What is in the target of a loop is no larger than the target. -/
theorem ForInTarget.sizeOf_child {target : ForInTarget} (below : child ∈ target.children)
    : sizeOf child < 1 + sizeOf target := by
  cases target <;>
    obtain rfl := List.mem_singleton.mp below <;>
    simp

/-- What is in the first clause of a loop is no larger than the clause. -/
theorem ForStart.sizeOf_child {start : ForStart} (below : child ∈ start.children)
    : sizeOf child < 1 + sizeOf start := by
  cases start with
  | nothing => cases below
  | expression | declaration =>
      obtain rfl := List.mem_singleton.mp below
      simp

/-- A node right below an expression is no larger than the expression, by cases on its form. -/
theorem Expr.sizeOf_child {value : Expr} (below : child ∈ value.children)
    : sizeOf child < 1 + sizeOf value := by
  cases value with
  | array span elements =>
      have := Node.sizeOf_mem_flatMap _ below fun _ => Element.sizeOf_child
      simp only [array.sizeOf_spec]
      omega
  | object span members =>
      have := Node.sizeOf_mem_map _ below fun _ => rfl
      simp only [object.sizeOf_spec]
      omega
  | identifier | this | boolean | null | number | regex | string => cases below
  | conditional =>
      simp only [children, List.mem_cons, List.not_mem_nil, or_false] at below
      rcases below with rfl | rfl | rfl
      · simp +arith
      · simp +arith
      · simp +arith
  | binary | call | index | construct =>
      simp only [children, List.mem_cons, List.not_mem_nil, or_false] at below
      rcases below with rfl | rfl
      · simp +arith
      · simp +arith
  | function | member | parenthesized | unary | update =>
      obtain rfl := List.mem_singleton.mp below
      simp +arith

/-- A node right below a statement is no larger than the statement, by cases on its form. -/
theorem Stmt.sizeOf_child {statement : Stmt} (below : child ∈ statement.children)
    : sizeOf child < 1 + sizeOf statement := by
  cases statement with
  | breakTo | continueTo | empty => cases below
  | returnValue span value | throwValue span value =>
      have := Node.sizeOf_mem_toList _ below fun _ => rfl
      simp
      omega
  | forIn span target object body =>
      rcases List.mem_append.mp below with below | below
      · have := ForInTarget.sizeOf_child below
        simp
        omega
      · rcases below with _ | ⟨_, _ | ⟨_, none⟩⟩
        · simp +arith
        · simp +arith
        · cases none
  | forLoop span start condition update body =>
      simp only [children, List.mem_append] at below
      rcases below with ((below | below) | below) | below
      · have := ForStart.sizeOf_child below
        simp
        omega
      · have := Node.sizeOf_mem_toList _ below fun _ => rfl
        simp
        omega
      · have := Node.sizeOf_mem_toList _ below fun _ => rfl
        simp
        omega
      · obtain rfl := List.mem_singleton.mp below
        simp +arith
  | ifElse span test consequent alternate =>
      rcases below with _ | ⟨_, _ | ⟨_, below⟩⟩
      · simp +arith
      · simp +arith
      · have := Node.sizeOf_mem_toList _ below fun _ => rfl
        simp
        omega
  | switch span test branches =>
      rcases below with _ | ⟨_, below⟩
      · simp +arith
      · have := Node.sizeOf_mem_map _ below fun _ => rfl
        simp
        omega
  | tryBlock span block handler finalizer =>
      rcases below with _ | ⟨_, below⟩
      · simp +arith
      · rcases List.mem_append.mp below with below | below
        · have := Node.sizeOf_mem_toList _ below fun _ => rfl
          simp
          omega
        · have := Node.sizeOf_mem_toList _ below fun _ => rfl
          simp
          omega
  | doWhile | whileLoop | withObject =>
      simp only [children, List.mem_cons, List.not_mem_nil, or_false] at below
      rcases below with rfl | rfl
      · simp +arith
      · simp +arith
  | expression | labelled | function =>
      obtain rfl := List.mem_singleton.mp below
      simp +arith
  | block | declaration =>
      obtain rfl := List.mem_singleton.mp below
      simp

/-- A node right below another one is smaller, so trees can be gone through. -/
theorem Node.sizeOf_child {node : Node} (below : child ∈ node.children)
    : sizeOf child < sizeOf node := by
  cases node with
  | expression value => exact Expr.sizeOf_child below
  | statement statement => exact Stmt.sizeOf_child below
  | program program =>
      obtain ⟨span, body⟩ := program
      have := sizeOf_mem_map body below fun _ => rfl
      simp only [program.sizeOf_spec, Program.mk.sizeOf_spec]
      omega
  | arguments arguments =>
      obtain ⟨span, values⟩ := arguments
      have := sizeOf_mem_map values below fun _ => rfl
      simp only [arguments.sizeOf_spec, Arguments.mk.sizeOf_spec]
      omega
  | member member =>
      cases member <;>
        obtain rfl := List.mem_singleton.mp below <;>
        simp +arith
  | function function =>
      obtain ⟨span, parameters, body⟩ := function
      rcases List.mem_append.mp below with below | below
      · have := sizeOf_mem_map parameters below fun _ => rfl
        simp only [function.sizeOf_spec, Func.mk.sizeOf_spec]
        omega
      · obtain rfl := List.mem_singleton.mp below
        simp +arith
  | parameter => cases below
  | body body =>
      obtain ⟨span, statements⟩ := body
      have := sizeOf_mem_map statements below fun _ => rfl
      simp only [body.sizeOf_spec, Body.mk.sizeOf_spec]
      omega
  | block block =>
      obtain ⟨span, statements⟩ := block
      have := sizeOf_mem_map statements below fun _ => rfl
      simp only [block.sizeOf_spec, Block.mk.sizeOf_spec]
      omega
  | handler handler =>
      obtain ⟨span, parameter, body⟩ := handler
      obtain rfl := List.mem_singleton.mp below
      simp +arith
  | branch branch =>
      obtain ⟨span, test, body⟩ := branch
      rcases List.mem_append.mp below with below | below
      · have := sizeOf_mem_toList test below fun _ => rfl
        simp only [branch.sizeOf_spec, Branch.mk.sizeOf_spec]
        omega
      · have := sizeOf_mem_map body below fun _ => rfl
        simp only [branch.sizeOf_spec, Branch.mk.sizeOf_spec]
        omega
  | declaration declaration =>
      obtain ⟨span, mode, declarators⟩ := declaration
      have := sizeOf_mem_flatMap declarators below fun _ => Declarator.sizeOf_child
      simp only [declaration.sizeOf_spec, Declaration.mk.sizeOf_spec]
      omega
  | initializer initializer =>
      obtain ⟨span, value⟩ := initializer
      obtain rfl := List.mem_singleton.mp below
      simp +arith

/-- What holds of a node whenever it holds of the nodes right below it holds of every node. -/
theorem Node.children_induct {motive : Node → Prop}
    (step : ∀ node, (∀ child ∈ node.children, motive child) → motive node) (node : Node)
    : motive node :=
  step node fun child _ => children_induct step child
termination_by sizeOf node
decreasing_by exact sizeOf_child ‹_›

end EcmaSyntax
