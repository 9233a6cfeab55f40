import EcmaSyntax.Form.Basic
import EcmaSyntax.Tree.Basic

/-!
The canonical forms of trees. A node is a list headed by its tag; spans leave no trace.
-/

namespace EcmaSyntax.Form

def optionalString : Option String → Form
  | none => nil
  | some value => string value

/-- A list whose tag is followed by a label, if there is one. -/
def withLabel (tag : String) (label : Option String) : Form :=
  tagged tag (label.map string).toList

def parameters (parameters : List Parameter) : Form :=
  list (parameters.map fun parameter => tagged "param" [string parameter.name])

/-- The tag of a declaration. -/
def declarationTag : DeclarationMode → String
  | .constants => "const"
  | .vars => "var"

/-- The tag of a declarator. -/
def declaratorTag : DeclarationMode → String
  | .constants => "const_decl"
  | .vars => "var_decl"

/-- The content of a function body: a single statement stands for itself. -/
def bodyContent : List Form → Form
  | [single] => single
  | statements => list statements

mutual

def ofExpr : Expr → Form
  | .binary _ operator left right => tagged operator.tag [ofExpr left, ofExpr right]
  | .call _ callee arguments => tagged "function_call" [ofExpr callee, ofArguments arguments]
  | .index _ object key => tagged "bracket_access" [ofExpr object, ofExpr key]
  | .conditional _ test consequent alternate =>
      tagged "conditional" [ofExpr test, ofExpr consequent, ofExpr alternate]
  | .function _ name function => ofFunc "func_expr" (optionalString name) function
  | .identifier _ name => tagged "resolve" [string name]
  | .member _ object name => tagged "dot_access" [ofExpr object, string name]
  | .construct _ constructor arguments =>
      tagged "new_expr" [ofExpr constructor, ofArguments arguments]
  | .parenthesized _ inner => tagged "parenthetical" [ofExpr inner]
  | .this _ => tagged "this" []
  | .unary _ operator argument =>
      match operator with
      | .prefixIncrement | .prefixDecrement =>
          tagged "prefix" [ofExpr argument, string operator.updateText]
      | _ => tagged operator.tag [ofExpr argument]
  | .update _ operator argument =>
      tagged "postfix" [ofExpr argument, string operator.updateText]
  | .array _ elements => tagged "array" [list (ofElements elements)]
  | .boolean _ value => tagged (if value then "true" else "false") []
  | .null _ => tagged "nil" []
  | .number _ value => tagged "lit" [number value]
  | .object _ members => tagged "object" [list (ofMembers members)]
  | .regex _ text => tagged "regexp" [string text]
  | .string _ value => tagged "str" [string value]

def ofExprs : List Expr → List Form
  | [] => []
  | value :: rest => ofExpr value :: ofExprs rest

def ofOptionalExpr : Option Expr → Form
  | none => nil
  | some value => ofExpr value

/-- A list whose tag is followed by an expression, if there is one. -/
def withValue (tag : String) : Option Expr → Form
  | none => tagged tag []
  | some value => tagged tag [ofExpr value]

def ofArguments : Arguments → Form
  | { span := _, values } => tagged "args" [list (ofExprs values)]

def ofElements : List Element → List Form
  | [] => []
  | .value value :: rest => tagged "element" [ofExpr value] :: ofElements rest
  | .hole :: rest => nil :: ofElements rest

def ofMembers : List Member → List Form
  | [] => []
  | .property _ key value :: rest =>
      tagged "property" [string key, ofExpr value] :: ofMembers rest
  | .getter _ key function :: rest =>
      tagged "getter" [string key, ofFunc "func_expr" nil function] :: ofMembers rest
  | .setter _ key function :: rest =>
      tagged "setter" [string key, ofFunc "func_expr" nil function] :: ofMembers rest

/-- A function under a tag and a name. -/
def ofFunc (tag : String) (name : Form) : Func → Form
  | { span := _, parameters := names, body } => tagged tag [name, parameters names, ofBody body]

def ofBody : Body → Form
  | { span := _, statements } => tagged "func_body" [bodyContent (ofStmts statements)]

def ofStmt : Stmt → Form
  | .block block => ofBlock block
  | .breakTo _ label => withLabel "break" label
  | .continueTo _ label => withLabel "continue" label
  | .doWhile _ body condition => tagged "do_while" [ofStmt body, ofExpr condition]
  | .empty _ => tagged "empty" []
  | .expression _ value => tagged "expression" [ofExpr value]
  | .forIn _ target object body =>
      tagged "for_in" [ofForInTarget target, ofExpr object, ofStmt body]
  | .forLoop _ start condition update body =>
      tagged "for"
        [ofForStart start, ofOptionalExpr condition, ofOptionalExpr update, ofStmt body]
  | .ifElse _ test consequent none => tagged "if" [ofExpr test, ofStmt consequent]
  | .ifElse _ test consequent (some alternate) =>
      tagged "if" [ofExpr test, ofStmt consequent, ofStmt alternate]
  | .labelled _ label statement => tagged "label" [string label, ofStmt statement]
  | .returnValue _ value => withValue "return" value
  | .switch _ test branches =>
      tagged "switch" [ofExpr test, tagged "case_block" [list (ofBranches branches)]]
  | .throwValue _ value => withValue "throw" value
  | .tryBlock _ block none finalizer =>
      tagged "try" [ofBlock block, nil, nil, ofOptionalBlock finalizer]
  | .tryBlock _ block (some { span := _, parameter, body }) finalizer =>
      tagged "try" [ofBlock block, string parameter, ofBlock body, ofOptionalBlock finalizer]
  | .whileLoop _ condition body => tagged "while" [ofExpr condition, ofStmt body]
  | .withObject _ object body => tagged "with" [ofExpr object, ofStmt body]
  | .function _ name function => ofFunc "func_decl" (string name) function
  | .declaration declaration => ofDeclaration declaration

def ofStmts : List Stmt → List Form
  | [] => []
  | statement :: rest => ofStmt statement :: ofStmts rest

def ofBlock : Block → Form
  | { span := _, statements } => tagged "block" [list (ofStmts statements)]

def ofOptionalBlock : Option Block → Form
  | none => nil
  | some block => ofBlock block

def ofBranches : List Branch → List Form
  | [] => []
  | { span := _, test, body } :: rest =>
      tagged "case" [ofOptionalExpr test, list (ofStmts body)] :: ofBranches rest

/-- A declaration with one declarator is written as that declarator. -/
def ofForInTarget : ForInTarget → Form
  | .declaration { span := _, mode, declarators } =>
      match ofDeclarators mode declarators with
      | [single] => single
      | forms => tagged (declarationTag mode) [list forms]
  | .expression target => ofExpr target

def ofForStart : ForStart → Form
  | .nothing => nil
  | .expression value => ofExpr value
  | .declaration declaration => ofDeclaration declaration

def ofDeclaration : Declaration → Form
  | { span := _, mode, declarators } =>
      tagged (declarationTag mode) [list (ofDeclarators mode declarators)]

def ofDeclarators (mode : DeclarationMode) : List Declarator → List Form
  | [] => []
  | { name, initializer := none } :: rest =>
      tagged (declaratorTag mode) [atom name, nil] :: ofDeclarators mode rest
  | { name, initializer := some { span := _, value } } :: rest =>
      tagged (declaratorTag mode) [atom name, tagged "assign" [ofExpr value]]
        :: ofDeclarators mode rest

end

/-- The form of a program: the list of the forms of its statements. -/
def ofProgram (program : Program) : Form :=
  list (ofStmts program.body)

end EcmaSyntax.Form
