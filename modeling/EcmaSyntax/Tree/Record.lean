import EcmaSyntax.Tree.Basic

/-!
Trees as records with named fields, without spans. Expressions and statements say what they are in the
field `$t` beside their own fields; an alternative with content is a record with one field, and one
without content is a text.
-/

namespace EcmaSyntax

/-- A value of a record. -/
inductive Record where
  | null
  | flag (value : Bool)
  | text (value : String)
  | number (value : Number)
  | list (items : List Record)
  | fields (fields : List (String × Record))

namespace Record

/-- A record that says what it is. -/
def variant (name : String) (content : List (String × Record)) : Record :=
  fields (("$t", text name) :: content)

/-- An alternative with content. -/
def alternative (name : String) (content : Record) : Record :=
  fields [(name, content)]

def optionalText : Option String → Record
  | none => null
  | some value => text value

def parameters (parameters : List Parameter) : Record :=
  list (parameters.map fun parameter => fields [("name", text parameter.name)])

mutual

def expr : Expr → Record
  | .binary _ operator left right =>
      variant "Binary"
        [("operator", text operator.name), ("left", expr left), ("right", expr right)]
  | .call _ callee arguments =>
      variant "Call" [("callee", expr callee), ("arguments", args arguments)]
  | .index _ object key =>
      variant "ComputedMember" [("object", expr object), ("member", expr key)]
  | .conditional _ test consequent alternate =>
      variant "Cond"
        [("test", expr test), ("consequent", expr consequent), ("alternate", expr alternate)]
  | .function _ name function =>
      variant "Func" [("name", optionalText name), ("function", func function)]
  | .identifier _ name => variant "Id" [("name", text name)]
  | .member _ object name => variant "Member" [("left", expr object), ("right", text name)]
  | .construct _ constructor arguments =>
      variant "New" [("constructor", expr constructor), ("arguments", args arguments)]
  | .parenthesized _ inner => variant "Paren" [("expression", expr inner)]
  | .this _ => variant "This" []
  | .unary _ operator argument =>
      variant "Unary" [("operator", text operator.name), ("argument", expr argument)]
  | .update _ operator argument =>
      variant "UnaryPostfix" [("operator", text operator.name), ("argument", expr argument)]
  | .array _ items => variant "LitArr" [("elements", list (elements items))]
  | .boolean _ value => variant "LitBool" [("value", flag value)]
  | .null _ => variant "LitNull" []
  | .number _ value => variant "LitNum" [("value", number value)]
  | .object _ items => variant "LitObj" [("members", list (members items))]
  | .regex _ value => variant "LitRegex" [("value", text value)]
  | .string _ value => variant "LitStr" [("value", text value)]

def exprs : List Expr → List Record
  | [] => []
  | value :: rest => expr value :: exprs rest

def optionalExpr : Option Expr → Record
  | none => null
  | some value => expr value

def args : Arguments → Record
  | { span := _, values } => fields [("args", list (exprs values))]

def elements : List Element → List Record
  | [] => []
  | .value value :: rest => alternative "Single" (expr value) :: elements rest
  | .hole :: rest => text "Empty" :: elements rest

def members : List Member → List Record
  | [] => []
  | .property _ key value :: rest =>
      fields
          [("key", text key), ("typ", alternative "Valued" (fields [("value", expr value)]))]
        :: members rest
  | .getter _ key function :: rest =>
      fields
          [("key", text key), ("typ", alternative "Getter" (fields [("function", func function)]))]
        :: members rest
  | .setter _ key function :: rest =>
      fields
          [("key", text key), ("typ", alternative "Setter" (fields [("function", func function)]))]
        :: members rest

def func : Func → Record
  | { span := _, parameters := names, body := inner } =>
      fields [("parameters", parameters names), ("body", body inner)]

def body : Body → Record
  | { span := _, statements } => fields [("body", list (stmts statements))]

def stmt : Stmt → Record
  | .block { span := _, statements } => variant "Block" [("body", list (stmts statements))]
  | .breakTo _ label => variant "Break" [("label", optionalText label)]
  | .continueTo _ label => variant "Continue" [("label", optionalText label)]
  | .doWhile _ inner condition =>
      variant "DoWhile" [("condition", expr condition), ("body", stmt inner)]
  | .empty _ => variant "Empty" []
  | .expression _ value => variant "Expr" [("expr", expr value)]
  | .forIn _ target object inner =>
      variant "ForIn" [("lhs", forInTarget target), ("rhs", expr object), ("body", stmt inner)]
  | .forLoop _ start condition update inner =>
      variant "ForTriple"
        [
          ("init", forStart start), ("cond", optionalExpr condition),
          ("post", optionalExpr update), ("body", stmt inner)
        ]
  | .ifElse _ test consequent alternate =>
      variant "If"
        [
          ("test", expr test), ("consequent", stmt consequent),
          ("alternate", optionalStmt alternate)
        ]
  | .labelled _ label inner => variant "Label" [("name", text label), ("statement", stmt inner)]
  | .returnValue _ value => variant "Return" [("value", optionalExpr value)]
  | .switch _ test items =>
      variant "Switch" [("test", expr test), ("branches", list (branches items))]
  | .throwValue _ value => variant "Throw" [("value", optionalExpr value)]
  | .tryBlock _ inner catcher finalizer =>
      variant "Try"
        [
          ("wrapped", block inner), ("catch", handler catcher),
          ("finally", optionalBlock finalizer)
        ]
  | .whileLoop _ condition inner =>
      variant "While" [("condition", expr condition), ("body", stmt inner)]
  | .withObject _ object inner => variant "With" [("object", expr object), ("body", stmt inner)]
  | .function _ name function =>
      variant "FunctionDecl" [("name", text name), ("function", func function)]
  | .declaration { span := _, mode, declarators := items } =>
      variant "VarDecl" [("mode", text mode.name), ("declarators", list (declarators items))]

def stmts : List Stmt → List Record
  | [] => []
  | statement :: rest => stmt statement :: stmts rest

def optionalStmt : Option Stmt → Record
  | none => null
  | some statement => stmt statement

def block : Block → Record
  | { span := _, statements } => fields [("body", list (stmts statements))]

def optionalBlock : Option Block → Record
  | none => null
  | some inner => block inner

def handler : Option Handler → Record
  | none => null
  | some { span := _, parameter, body := inner } =>
      fields [("parameter", text parameter), ("body", block inner)]

def branches : List Branch → List Record
  | [] => []
  | { span := _, test, body := statements } :: rest =>
      fields [("case", optionalExpr test), ("body", list (stmts statements))] :: branches rest

def forInTarget : ForInTarget → Record
  | .declaration inner => alternative "Decl" (declaration inner)
  | .expression target => alternative "Assign" (expr target)

def forStart : ForStart → Record
  | .nothing => text "None"
  | .expression value => alternative "Expr" (expr value)
  | .declaration inner => alternative "Decl" (declaration inner)

def declaration : Declaration → Record
  | { span := _, mode, declarators := items } =>
      fields [("mode", text mode.name), ("declarators", list (declarators items))]

def declarators : List Declarator → List Record
  | [] => []
  | { name, initializer := none } :: rest =>
      fields [("name", text name), ("initializer", null)] :: declarators rest
  | { name, initializer := some { span := _, value } } :: rest =>
      fields [("name", text name), ("initializer", fields [("value", expr value)])]
        :: declarators rest

end

end Record

/-- The record of a program. -/
def Program.record (program : Program) : Record :=
  Record.fields [("body", Record.list (Record.stmts program.body))]

end EcmaSyntax
