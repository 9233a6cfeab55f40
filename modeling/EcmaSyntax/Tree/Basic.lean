import EcmaSyntax.Number.Basic
import EcmaSyntax.Operator
import EcmaSyntax.Span

/-!
Trees of programs. Every node carries the span of the source text that it was read from; declarators,
holes of arrays and the two clauses of `for` headers are no nodes and carry none.
-/

namespace EcmaSyntax

/-- Whether a declaration declares variables or constants. -/
inductive DeclarationMode where
  | constants
  | vars
  deriving DecidableEq, Repr, Inhabited

/-- The written name of a mode. -/
def DeclarationMode.name : DeclarationMode → String
  | constants => "Const"
  | vars => "Var"

/-- A parameter of a function. -/
structure Parameter where
  span : Span
  name : String
  deriving DecidableEq, Repr

mutual

/-- An expression. Assignments and the comma are binary operators; `unary` operators stand in front of
their operand and `update` operators after it. -/
inductive Expr where
  | binary (span : Span) (operator : Operator) (left right : Expr)
  | call (span : Span) (callee : Expr) (arguments : Arguments)
  | index (span : Span) (object : Expr) (key : Expr)
  | conditional (span : Span) (test consequent alternate : Expr)
  | function (span : Span) (name : Option String) (function : Func)
  | identifier (span : Span) (name : String)
  | member (span : Span) (object : Expr) (name : String)
  | construct (span : Span) (constructor : Expr) (arguments : Arguments)
  | parenthesized (span : Span) (inner : Expr)
  | this (span : Span)
  | unary (span : Span) (operator : Operator) (argument : Expr)
  | update (span : Span) (operator : Operator) (argument : Expr)
  | array (span : Span) (elements : List Element)
  | boolean (span : Span) (value : Bool)
  | null (span : Span)
  | number (span : Span) (value : Number)
  | object (span : Span) (members : List Member)
  | regex (span : Span) (text : String)
  | string (span : Span) (value : String)

/-- The arguments of a call, or of `new`, which has empty ones at an empty span if it has no
parentheses. -/
structure Arguments where
  span : Span
  values : List Expr

/-- An element of an array literal; between two commas there is a hole. -/
inductive Element where
  | value (value : Expr)
  | hole

/-- A member of an object literal. -/
inductive Member where
  | property (span : Span) (key : String) (value : Expr)
  | getter (span : Span) (key : String) (function : Func)
  | setter (span : Span) (key : String) (function : Func)

/-- The parameters and the body of a function. -/
structure Func where
  span : Span
  parameters : List Parameter
  body : Body

/-- The braces of a function and the statements in them. -/
structure Body where
  span : Span
  statements : List Stmt

/-- A statement. -/
inductive Stmt where
  | block (block : Block)
  | breakTo (span : Span) (label : Option String)
  | continueTo (span : Span) (label : Option String)
  | doWhile (span : Span) (body : Stmt) (condition : Expr)
  | empty (span : Span)
  | expression (span : Span) (value : Expr)
  | forIn (span : Span) (target : ForInTarget) (object : Expr) (body : Stmt)
  | forLoop (span : Span) (start : ForStart) (condition update : Option Expr) (body : Stmt)
  | ifElse (span : Span) (test : Expr) (consequent : Stmt) (alternate : Option Stmt)
  | labelled (span : Span) (label : String) (statement : Stmt)
  | returnValue (span : Span) (value : Option Expr)
  | switch (span : Span) (test : Expr) (branches : List Branch)
  | throwValue (span : Span) (value : Option Expr)
  | tryBlock (span : Span) (block : Block) (handler : Option Handler) (finalizer : Option Block)
  | whileLoop (span : Span) (condition : Expr) (body : Stmt)
  | withObject (span : Span) (object : Expr) (body : Stmt)
  | function (span : Span) (name : String) (function : Func)
  | declaration (declaration : Declaration)

/-- Statements in braces. -/
structure Block where
  span : Span
  statements : List Stmt

/-- A `catch` clause, without the keyword. -/
structure Handler where
  span : Span
  parameter : String
  body : Block

/-- A branch of a `switch`; without a test it is the default branch. -/
structure Branch where
  span : Span
  test : Option Expr
  body : List Stmt

/-- What a `for`-`in` loop assigns the keys to. -/
inductive ForInTarget where
  | declaration (declaration : Declaration)
  | expression (target : Expr)

/-- The first clause of a `for` loop. -/
inductive ForStart where
  | nothing
  | expression (value : Expr)
  | declaration (declaration : Declaration)

/-- A declaration of variables or constants. -/
structure Declaration where
  span : Span
  mode : DeclarationMode
  declarators : List Declarator

/-- A declared name with its initializer. -/
structure Declarator where
  name : String
  initializer : Option Initializer

/-- The value after the equals sign of a declarator. -/
structure Initializer where
  span : Span
  value : Expr

end

/-- A whole program; its span is that of the whole text. -/
structure Program where
  span : Span
  body : List Stmt

namespace Expr

def span : Expr → Span
  | binary span .. | call span .. | index span .. | conditional span .. | function span ..
  | identifier span .. | member span .. | construct span .. | parenthesized span .. | this span
  | unary span .. | update span .. | array span .. | boolean span .. | null span | number span ..
  | object span .. | regex span .. | string span .. => span

/-- An expression that can be assigned to: an identifier or a property, in parentheses or not. -/
def isAssignmentTarget : Expr → Bool
  | identifier .. | member .. | index .. => true
  | parenthesized _ inner => inner.isAssignmentTarget
  | _ => false

end Expr

namespace Member

def span : Member → Span
  | property span .. | getter span .. | setter span .. => span

end Member

namespace Stmt

def span : Stmt → Span
  | block inner => inner.span
  | breakTo span _ | continueTo span _ | doWhile span .. | empty span | expression span _
  | forIn span .. | forLoop span .. | ifElse span .. | labelled span .. | returnValue span _
  | switch span .. | throwValue span _ | tryBlock span .. | whileLoop span .. | withObject span ..
  | function span .. => span
  | declaration inner => inner.span

end Stmt

end EcmaSyntax
