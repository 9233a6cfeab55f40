import EcmaSyntax.Proofs.Form.Tag
import EcmaSyntax.Proofs.Tree.Placeless

/-! Trees read back from their forms. Reading a form gives the tree that was written, without the places
of its nodes.
-/

namespace EcmaSyntax

namespace Form

/-- Nothing for the empty form, and otherwise what was read from the form. -/
def unlessNil {α : Type} (form : Form) (value : Option α) : Option (Option α) :=
  if form.isNil then some none else value.map some

/-- The target that a form was read as: an expression, or else a declaration. -/
def forInTarget? (value : Option Expr) (declaration : Option Declaration) : Option ForInTarget :=
  (value.map ForInTarget.expression).or (declaration.map ForInTarget.declaration)

/-- The first clause of a loop that a form was read as. -/
def forStart? (form : Form) (value : Option Expr) (declaration : Option Declaration)
    : Option ForStart :=
  if form.isNil then some .nothing
  else (value.map ForStart.expression).or (declaration.map ForStart.declaration)

/-- The name of a function, which an expression may lack. -/
def toName? : Form → Option String
  | string name => some name
  | _ => none

/-- The parameters of a function. -/
def toParameters? : List Form → Option (List Parameter)
  | [] => some []
  | list [_, string name] :: rest => do
      return { span := .nowhere, name } :: (← toParameters? rest)
  | _ => none

mutual

def toExpr? : Form → Option Expr
  | list (atom name :: items) =>
      match Tag.ofName? name with
      | some tag => taggedExpr? tag items
      | none => none
  | _ => none

/-- The expression whose form has the items after the tag. -/
def taggedExpr? : Tag → List Form → Option Expr
  | .operator operator, [left, right] => do
      return .binary .nowhere operator (← toExpr? left) (← toExpr? right)
  | .operator operator, [argument] => do
      return .unary .nowhere operator (← toExpr? argument)
  | .prefixUpdate, [argument, string text] => do
      let operator := if text = "++" then .prefixIncrement else .prefixDecrement
      return .unary .nowhere operator (← toExpr? argument)
  | .postfixUpdate, [argument, string text] => do
      let operator := if text = "++" then .postfixIncrement else .postfixDecrement
      return .update .nowhere operator (← toExpr? argument)
  | .call, [callee, arguments] => do
      return .call .nowhere (← toExpr? callee) (← toArguments? arguments)
  | .index, [object, key] => do
      return .index .nowhere (← toExpr? object) (← toExpr? key)
  | .conditional, [test, consequent, alternate] => do
      return .conditional .nowhere (← toExpr? test) (← toExpr? consequent) (← toExpr? alternate)
  | .functionExpression, [name, list names, body] => do
      return .function .nowhere (toName? name)
        {
          span := .nowhere
          parameters := ← toParameters? names
          body := ← toBody? body
        }
  | .identifier, [string name] => some (.identifier .nowhere name)
  | .member, [object, string name] => do
      return .member .nowhere (← toExpr? object) name
  | .construct, [constructor, arguments] => do
      return .construct .nowhere (← toExpr? constructor) (← toArguments? arguments)
  | .parenthesized, [inner] => do return .parenthesized .nowhere (← toExpr? inner)
  | .this, [] => some (.this .nowhere)
  | .array, [list elements] => do return .array .nowhere (← toElements? elements)
  | .boolean value, [] => some (.boolean .nowhere value)
  | .null, [] => some (.null .nowhere)
  | .number, [number value] => some (.number .nowhere value)
  | .object, [list members] => do return .object .nowhere (← toMembers? members)
  | .regex, [string text] => some (.regex .nowhere text)
  | .text, [string value] => some (.string .nowhere value)
  | _, _ => none

def toExprs? : List Form → Option (List Expr)
  | [] => some []
  | form :: rest => do return (← toExpr? form) :: (← toExprs? rest)

def toArguments? : Form → Option Arguments
  | list [_, list values] => do return { span := .nowhere, values := ← toExprs? values }
  | _ => none

def toElements? : List Form → Option (List Element)
  | [] => some []
  | list [_, value] :: rest => do return .value (← toExpr? value) :: (← toElements? rest)
  | _ :: rest => do return .hole :: (← toElements? rest)

def toMembers? : List Form → Option (List Member)
  | [] => some []
  | list [atom name, string key, value] :: rest =>
      match Tag.ofName? name with
      | some .property => do
          return .property .nowhere key (← toExpr? value) :: (← toMembers? rest)
      | some .getter => do return .getter .nowhere key (← toFunc? value) :: (← toMembers? rest)
      | some .setter => do return .setter .nowhere key (← toFunc? value) :: (← toMembers? rest)
      | _ => none
  | _ => none

def toFunc? : Form → Option Func
  | list [_, _, list names, body] => do
      return {
        span := .nowhere
        parameters := ← toParameters? names
        body := ← toBody? body
      }
  | _ => none

/-- The content of a body is a statement, which begins with a tag, or a list of statements. -/
def toBody? : Form → Option Body
  | list [_, content] =>
      if content.tag?.isSome then do
        return { span := .nowhere, statements := [← toStmt? content] }
      else do
        return { span := .nowhere, statements := ← toListed? content }
  | _ => none

def toListed? : Form → Option (List Stmt)
  | list statements => toStmts? statements
  | _ => none

def toStmt? : Form → Option Stmt
  | list (atom name :: items) =>
      match Tag.ofName? name with
      | some tag => taggedStmt? tag items
      | none => none
  | _ => none

/-- The statement whose form has the items after the tag. -/
def taggedStmt? : Tag → List Form → Option Stmt
  | .block, [list statements] => do
      return .block { span := .nowhere, statements := ← toStmts? statements }
  | .breakTo, [] => some (.breakTo .nowhere none)
  | .breakTo, [string label] => some (.breakTo .nowhere (some label))
  | .continueTo, [] => some (.continueTo .nowhere none)
  | .continueTo, [string label] => some (.continueTo .nowhere (some label))
  | .doWhile, [body, condition] => do
      return .doWhile .nowhere (← toStmt? body) (← toExpr? condition)
  | .empty, [] => some (.empty .nowhere)
  | .expression, [value] => do return .expression .nowhere (← toExpr? value)
  | .forIn, [target, object, body] => do
      let target ← forInTarget? (toExpr? target) (toDeclaration? target)
      return .forIn .nowhere target (← toExpr? object) (← toStmt? body)
  | .forLoop, [start, condition, update, body] => do
      let start ← forStart? start (toExpr? start) (toDeclaration? start)
      return .forLoop .nowhere start (← unlessNil condition (toExpr? condition))
        (← unlessNil update (toExpr? update)) (← toStmt? body)
  | .ifElse, [test, consequent] => do
      return .ifElse .nowhere (← toExpr? test) (← toStmt? consequent) none
  | .ifElse, [test, consequent, alternate] => do
      return .ifElse .nowhere (← toExpr? test) (← toStmt? consequent)
        (some (← toStmt? alternate))
  | .labelled, [string label, inner] => do
      return .labelled .nowhere label (← toStmt? inner)
  | .returnValue, [] => some (.returnValue .nowhere none)
  | .returnValue, [value] => do return .returnValue .nowhere (some (← toExpr? value))
  | .switch, [test, list [_, list branches]] => do
      return .switch .nowhere (← toExpr? test) (← toBranches? branches)
  | .throwValue, [] => some (.throwValue .nowhere none)
  | .throwValue, [value] => do return .throwValue .nowhere (some (← toExpr? value))
  | .tryBlock, [block, nil, nil, finalizer] => do
      return .tryBlock .nowhere (← toBlock? block) none
        (← unlessNil finalizer (toBlock? finalizer))
  | .tryBlock, [block, string parameter, handler, finalizer] => do
      let handler := { span := .nowhere, parameter, body := ← toBlock? handler }
      return .tryBlock .nowhere (← toBlock? block) (some handler)
        (← unlessNil finalizer (toBlock? finalizer))
  | .whileLoop, [condition, body] => do
      return .whileLoop .nowhere (← toExpr? condition) (← toStmt? body)
  | .withObject, [object, body] => do
      return .withObject .nowhere (← toExpr? object) (← toStmt? body)
  | .functionStatement, [string name, list names, body] => do
      return .function .nowhere name
        {
          span := .nowhere
          parameters := ← toParameters? names
          body := ← toBody? body
        }
  | .declaration mode, [list declarators] => do
      return .declaration
        {
          span := .nowhere
          mode
          declarators := ← toDeclarators? declarators
        }
  | _, _ => none

def toStmts? : List Form → Option (List Stmt)
  | [] => some []
  | form :: rest => do return (← toStmt? form) :: (← toStmts? rest)

def toBlock? : Form → Option Block
  | list [_, list statements] => do
      return { span := .nowhere, statements := ← toStmts? statements }
  | _ => none

def toBranches? : List Form → Option (List Branch)
  | [] => some []
  | list [_, test, list body] :: rest => do
      return {
        span := .nowhere
        test := ← unlessNil test (toExpr? test)
        body := ← toStmts? body
      } :: (← toBranches? rest)
  | _ => none

def toDeclaration? : Form → Option Declaration
  | list (atom name :: items) =>
      match Tag.ofName? name with
      | some tag => taggedDeclaration? tag items
      | none => none
  | _ => none

/-- The declaration whose form has the items after the tag. In a `for` header it may be written as its
only declarator.
-/
def taggedDeclaration? : Tag → List Form → Option Declaration
  | .declaration mode, [list declarators] => do
      return {
        span := .nowhere
        mode
        declarators := ← toDeclarators? declarators
      }
  | .declarator mode, [atom name, value] => do
      return {
        span := .nowhere
        mode
        declarators := [{ name, initializer := ← unlessNil value (toInitializer? value) }]
      }
  | _, _ => none

def toDeclarators? : List Form → Option (List Declarator)
  | [] => some []
  | list [_, atom name, value] :: rest => do
      return { name, initializer := ← unlessNil value (toInitializer? value) }
        :: (← toDeclarators? rest)
  | _ => none

def toInitializer? : Form → Option Initializer
  | list [_, value] => do return { span := .nowhere, value := ← toExpr? value }
  | _ => none

end

end Form

end EcmaSyntax
