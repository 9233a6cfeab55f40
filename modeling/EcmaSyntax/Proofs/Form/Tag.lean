import EcmaSyntax.Form.OfTree

/-! The tags of forms. No two kinds of nodes share a tag, so a tag tells the kind of node. -/

namespace EcmaSyntax

/-- An operator whose tag is that of the expression with the operator on top. -/
def Operator.isTagged : Operator → Bool
  | call | computedMemberAccess | conditional | memberAccess | new | postfixDecrement
  | postfixIncrement | prefixDecrement | prefixIncrement => false
  | _ => true

namespace Form

/-- What a tag stands for. -/
inductive Tag where
  | operator (sign : Operator)
  | call
  | index
  | conditional
  | functionExpression
  | identifier
  | member
  | construct
  | parenthesized
  | this
  | prefixUpdate
  | postfixUpdate
  | array
  | boolean (value : Bool)
  | null
  | number
  | object
  | regex
  | text
  | property
  | getter
  | setter
  | block
  | breakTo
  | continueTo
  | doWhile
  | empty
  | expression
  | forIn
  | forLoop
  | ifElse
  | labelled
  | returnValue
  | switch
  | throwValue
  | tryBlock
  | whileLoop
  | withObject
  | functionStatement
  | declaration (mode : DeclarationMode)
  | declarator (mode : DeclarationMode)
  deriving DecidableEq

namespace Tag

def name : Tag → String
  | operator sign => sign.tag
  | call => "function_call"
  | index => "bracket_access"
  | conditional => "conditional"
  | functionExpression => "func_expr"
  | identifier => "resolve"
  | member => "dot_access"
  | construct => "new_expr"
  | parenthesized => "parenthetical"
  | this => "this"
  | prefixUpdate => "prefix"
  | postfixUpdate => "postfix"
  | array => "array"
  | boolean value => if value then "true" else "false"
  | null => "nil"
  | number => "lit"
  | object => "object"
  | regex => "regexp"
  | text => "str"
  | property => "property"
  | getter => "getter"
  | setter => "setter"
  | block => "block"
  | breakTo => "break"
  | continueTo => "continue"
  | doWhile => "do_while"
  | empty => "empty"
  | expression => "expression"
  | forIn => "for_in"
  | forLoop => "for"
  | ifElse => "if"
  | labelled => "label"
  | returnValue => "return"
  | switch => "switch"
  | throwValue => "throw"
  | tryBlock => "try"
  | whileLoop => "while"
  | withObject => "with"
  | functionStatement => "func_decl"
  | declaration mode => declarationTag mode
  | declarator mode => declaratorTag mode

/-- Every tag that occurs. -/
def all : List Tag :=
  (Operator.all.filter Operator.isTagged).map operator
  ++ [
    call, index, conditional, functionExpression, identifier, member, construct, parenthesized,
    this, prefixUpdate, postfixUpdate, array, boolean true, boolean false, null, number, object,
    regex, text, property, getter, setter, block, breakTo, continueTo, doWhile, empty, expression,
    forIn, forLoop, ifElse, labelled, returnValue, switch, throwValue, tryBlock, whileLoop,
    withObject, functionStatement, declaration .constants, declaration .vars,
    declarator .constants, declarator .vars
  ]

/-- The tag with the name. -/
def ofName? (name : String) : Option Tag :=
  all.find? fun tag => tag.name == name

/-- No two tags that occur have the same name. -/
theorem ofName?_name_of_mem (tag : Tag) (occurs : tag ∈ all) : ofName? tag.name = some tag := by
  have distinct : all.all (fun tag => ofName? tag.name == some tag) := by decide +kernel
  simpa using List.all_eq_true.mp distinct tag occurs

/-- An operator with a tag of its own has it in the list of tags. -/
theorem mem_all_of_isTagged {operator : Operator} (tagged : operator.isTagged)
    : Tag.operator operator ∈ all := by
  have listed : operator ∈ Operator.all := by cases operator <;> decide
  exact List.mem_append_left _
    (List.mem_map.mpr ⟨operator, List.mem_filter.mpr ⟨listed, tagged⟩, rfl⟩)

end Tag

end Form

end EcmaSyntax
