import EcmaSyntax.Proofs.Grammar.Nesting
import EcmaSyntax.Proofs.Token.Names

/-! The names in a tree. A name is that of an identifier wherever one stands: as an expression, a label,
a function, a parameter or a variable.
-/

namespace EcmaSyntax

open EcmaSyntax.Grammar

-----------------------------------------------------------------------------------------
-- The names of a node
-----------------------------------------------------------------------------------------

/-- The name that an expression refers to, or that of its function. -/
def Expr.names : Expr → List String
  | identifier _ name => [name]
  | function _ name _ => name.toList
  | _ => []

/-- The label that a statement has or goes to, or the name of its function. -/
def Stmt.names : Stmt → List String
  | breakTo _ label | continueTo _ label => label.toList
  | labelled _ label _ => [label]
  | function _ name _ => [name]
  | _ => []

/-- The names that a node holds outside of the nodes below it. -/
def Node.names : Node → List String
  | statement inner => inner.names
  | expression value => value.names
  | parameter inner => [inner.name]
  | handler inner => [inner.parameter]
  | declaration inner => inner.declarators.map Declarator.name
  | program _ | arguments _ | member _ | function _ | body _ | block _ | branch _
  | initializer _ => []

/-- Every name of a node could be written as an identifier. -/
def Node.Named (node : Node) : Prop :=
  ∀ name ∈ node.names, Text.IsName name.toList

/-- An identifier of the source text spells the name. -/
def Script.Mentions (script : Script) (name : String) : Prop :=
  ∃ mode offset token,
    script.Reads mode offset token
    ∧ token.kind = .identifier
    ∧ script.nameOf token = name

/-- Every name of a node is that of an identifier of the source text. -/
def Node.Mentioned (node : Node) (script : Script) : Prop :=
  ∀ name ∈ node.names, script.Mentions name

variable {script : Script} {offset : Nat} {tokens : List Token} {inAllowed : Bool}

/-- A token that is a name mentions its name. -/
theorem Script.Reads.mentions {mode : LexMode} {token : Token}
    (read : script.Reads mode offset token) (named : token.kind = .identifier)
    : script.Mentions (script.nameOf token) :=
  ⟨mode, offset, token, read, named, rfl⟩

/-- A name that is mentioned could be written as an identifier, as its token is one. -/
theorem Script.Mentions.isName {name : String} (mentions : script.Mentions name)
    : Text.IsName name.toList := by
  obtain ⟨_, _, _, read, named, rfl⟩ := mentions
  exact read.isName named

-----------------------------------------------------------------------------------------
-- The names of what parses
-----------------------------------------------------------------------------------------

namespace Grammar

/-- Each of the phrases between separators parses. -/
theorem Parses.of_separated {phrases : List Phrase}
    (derivation : Parses script (.separated phrases) offset tokens)
    : ∀ phrase ∈ phrases, ∃ start inner, Parses script (.phrase phrase) start inner := by
  refine derivation.induction
    (motive := fun nonterminal _ _ =>
      ∀ phrases, nonterminal = .separated phrases →
      ∀ phrase ∈ phrases, ∃ start inner, Parses script (.phrase phrase) start inner) ?_ phrases rfl
  rintro _ items start (rule | rule | rule) components phrases ⟨⟩
  cases rule with
  | separatedLast =>
      obtain ⟨⟨phrase, _⟩, _⟩ := components
      rintro _ (_ | ⟨_, ⟨⟩⟩)
      exact ⟨_, _, phrase⟩
  | separatedMore =>
      obtain ⟨⟨phrase, _⟩, _, ⟨_, rest⟩, _⟩ := components
      rintro _ (_ | ⟨_, member⟩)
      · exact ⟨_, _, phrase⟩
      · exact rest _ rfl _ member

/-- A primary expression has its names from its tokens, by cases on its production. -/
theorem Parses.mentions_primary {value : Expr}
    (derivation : Parses script (.phrase (.primary value)) offset tokens)
    : (Node.expression value).Mentioned script := by
  obtain ⟨items, rfl, rule, components⟩ := derivation.expression_components rfl
  cases rule with
  | identifier named =>
      rintro _ (_ | ⟨_, ⟨⟩⟩)
      exact components.1.mentions named
  | functionNamed _ named =>
      rintro _ (_ | ⟨_, ⟨⟩⟩)
      exact components.2.1.mentions named
  | _ => rintro _ ⟨⟩

/-- A chain has the names of its operand, and properties that are tokens of their own. -/
theorem Chains.mentions {value : Expr} (chains : Chains script inAllowed offset tokens value)
    : (Node.expression value).Mentioned script := by
  cases chains with
  | operand operand =>
      obtain ⟨items, rfl, rule, components⟩ := operand.expression_components rfl
      cases rule with
      | operandPlain => exact components.1.mentions_primary
      | operandPrefixed => rintro _ ⟨⟩
  | update => rintro _ ⟨⟩
  | more _ _ _ _ continuation =>
      obtain ⟨items, rfl, rule, components⟩ := continuation.expression_components rfl
      cases rule with
      | continuationAccess =>
          obtain ⟨items, rfl, rule, components⟩ := components.1.expression_components rfl
          cases rule <;> rintro _ ⟨⟩
      | _ => rintro _ ⟨⟩

theorem Parses.mentions_jumpLabel {label : Option String}
    (derivation : Parses script (.phrase (.jumpLabel label)) offset tokens)
    : ∀ name ∈ label.toList, script.Mentions name := by
  obtain ⟨items, rfl, rule, components⟩ := derivation.statement_components rfl
  cases rule with
  | jumpLabelSome named =>
      rintro _ (_ | ⟨_, ⟨⟩⟩)
      exact components.1.mentions named
  | jumpLabelNone => rintro _ ⟨⟩

/-- A statement has its label or name from its tokens, by cases on its production. -/
theorem Parses.mentions_statement {statement : Stmt}
    (derivation : Parses script (.phrase (.statement inAllowed statement)) offset tokens)
    : (Node.statement statement).Mentioned script := by
  obtain ⟨items, rfl, rule, components⟩ := derivation.statement_components rfl
  cases rule with
  | breakTo | continueTo => exact components.2.1.mentions_jumpLabel
  | labelled named =>
      rintro _ (_ | ⟨_, ⟨⟩⟩)
      exact components.1.mentions named
  | function _ named =>
      rintro _ (_ | ⟨_, ⟨⟩⟩)
      exact components.2.1.mentions named
  | _ => rintro _ ⟨⟩

theorem Parses.mentions_declarator {declarator : Declarator}
    (derivation : Parses script (.phrase (.declarator inAllowed declarator)) offset tokens)
    : script.Mentions declarator.name := by
  obtain ⟨items, rfl, rule, components⟩ := derivation.statement_components rfl
  cases rule with
  | declaratorInitialized named | declaratorPlain named => exact components.1.mentions named

/-- A declaration has the names that its declarators have. -/
theorem Parses.mentions_declaration {place : DeclarationPlace} {declaration : Declaration}
    (derivation
      : Parses script (.phrase (.declaration inAllowed place declaration)) offset tokens)
    : (Node.declaration declaration).Mentioned script := by
  have of_separated {inner : List Declarator} {start : Nat} {front : List Token}
      (separated
        : Parses script (.separated (inner.map (.declarator inAllowed))) start front)
      : ∀ name ∈ inner.map Declarator.name, script.Mentions name := by
    rintro _ member
    obtain ⟨declarator, listed, rfl⟩ := List.mem_map.mp member
    obtain ⟨_, _, parsed⟩ := separated.of_separated _ (List.mem_map_of_mem listed)
    exact parsed.mentions_declarator
  obtain ⟨items, rfl, rule, components⟩ := derivation.statement_components rfl
  cases rule with
  | declarationStatement | declarationHeader => exact of_separated components.2.1

end Grammar

/-- Every name of a node that parses is that of an identifier. -/
theorem Node.Parsed.mentioned {node : Node} (parsed : node.Parsed script offset tokens)
    : node.Mentioned script := by
  cases parsed with
  | expression chains => exact chains.mentions
  | statement parses => exact parses.mentions_statement
  | declaration parses => exact parses.mentions_declaration
  | parameter parses =>
      obtain ⟨items, rfl, rule, components⟩ := parses.expression_components rfl
      cases rule with
      | parameter named =>
          rintro _ (_ | ⟨_, ⟨⟩⟩)
          exact components.1.mentions named
  | handler parses =>
      obtain ⟨items, rfl, rule, components⟩ := parses.statement_components rfl
      cases rule with
      | handler _ named =>
          rintro _ (_ | ⟨_, ⟨⟩⟩)
          exact components.2.1.mentions named
  | arguments | member | function | body | block | branch | initializer => rintro _ ⟨⟩

/-- Every name in a parsed program is that of an identifier in the source. -/
theorem Program.mentioned_of_parse {source : List Char} {dialect : Dialect} {program : Program}
    (parsed : parse source dialect = .ok program) {node : Node}
    (within : (Node.program program).Within node)
    : node.Mentioned { source, dialect } := by
  cases located_of_parse parsed within with
  | root => rintro _ ⟨⟩
  | parsed derived => exact derived.mentioned
  | missing => rintro _ ⟨⟩

/-- Every name in a parsed program could be written as an identifier. -/
theorem Program.named_of_parse {source : List Char} {dialect : Dialect} {program : Program}
    (parsed : parse source dialect = .ok program) {node : Node}
    (within : (Node.program program).Within node)
    : node.Named :=
  fun name member => (mentioned_of_parse parsed within name member).isName

end EcmaSyntax
