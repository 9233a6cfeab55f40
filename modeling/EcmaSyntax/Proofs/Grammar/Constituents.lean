import EcmaSyntax.Proofs.Grammar.Progress
import EcmaSyntax.Proofs.Tree.Node

/-! Every node of a tree that was parsed has a derivation of its own. An expression on the left of an
operator is the result of no phrase, but of an operand with the operators read so far, which is a chain.
-/

namespace EcmaSyntax

open EcmaSyntax.Grammar

variable {script : Script} {offset : Nat} {tokens front back : List Token}

namespace Grammar

/-- The tokens are an operand and the operators behind it up to some point, and make the expression. -/
inductive Chains (script : Script) (inAllowed : Bool) (offset : Nat) : List Token → Expr → Prop
  | operand {tokens : List Token} {value : Expr}
    (operand : Parses script (.phrase (.operand inAllowed value)) offset tokens)
    : Chains script inAllowed offset tokens value
  | update {tokens : List Token} {target : Expr} {token : Token} {operator : Operator}
    (chains : Chains script inAllowed offset tokens target)
    (read : script.Reads .standard (Token.endOf offset tokens) token)
    (updates : updateOperator? token = some operator) (assignable : target.isAssignmentTarget)
    : Chains script inAllowed offset (tokens ++ [token])
        (.update (target.span.cover token.span) operator target)
  | more {front back : List Token} {left value : Expr} {next : Token} {operator : Operator}
    (chains : Chains script inAllowed offset front left)
    (read : script.Reads .standard (Token.endOf offset front) next)
    (opens : next.kind.infixOperator? = some operator)
    (allowed : operator = .isIn → inAllowed = true)
    (continuation
      : Parses script (.phrase (.continuation inAllowed operator left value))
          (Token.endOf offset front) back)
    : Chains script inAllowed offset (front ++ back) value

end Grammar

/-- The tokens from the offset on are those of the node. Statements stand only where `in` is allowed. -/
inductive Node.Parsed (script : Script) : Node → Nat → List Token → Prop
  | statement {statement : Stmt} {offset : Nat} {tokens : List Token}
    (parses : Parses script (.phrase (.statement true statement)) offset tokens)
    : Parsed script (.statement statement) offset tokens
  | expression {inAllowed : Bool} {value : Expr} {offset : Nat} {tokens : List Token}
    (chains : Chains script inAllowed offset tokens value)
    : Parsed script (.expression value) offset tokens
  | arguments {arguments : Arguments} {offset : Nat} {tokens : List Token}
    (parses : Parses script (.phrase (.arguments arguments)) offset tokens)
    : Parsed script (.arguments arguments) offset tokens
  | member {member : Member} {offset : Nat} {tokens : List Token}
    (parses : Parses script (.phrase (.member member)) offset tokens)
    : Parsed script (.member member) offset tokens
  | function {function : Func} {offset : Nat} {tokens : List Token}
    (parses : Parses script (.phrase (.function function)) offset tokens)
    : Parsed script (.function function) offset tokens
  | parameter {parameter : Parameter} {offset : Nat} {tokens : List Token}
    (parses : Parses script (.phrase (.parameter parameter)) offset tokens)
    : Parsed script (.parameter parameter) offset tokens
  | body {body : Body} {offset : Nat} {tokens : List Token}
    (parses : Parses script (.phrase (.body body)) offset tokens)
    : Parsed script (.body body) offset tokens
  | block {block : Block} {offset : Nat} {tokens : List Token}
    (parses : Parses script (.phrase (.block true block)) offset tokens)
    : Parsed script (.block block) offset tokens
  | handler {handler : Handler} {offset : Nat} {tokens : List Token}
    (parses : Parses script (.phrase (.handler true handler)) offset tokens)
    : Parsed script (.handler handler) offset tokens
  | branch {branch : Branch} {offset : Nat} {tokens : List Token}
    (parses : Parses script (.phrase (.branch true branch)) offset tokens)
    : Parsed script (.branch branch) offset tokens
  | declaration {inAllowed : Bool} {place : DeclarationPlace} {declaration : Declaration}
    {offset : Nat} {tokens : List Token}
    (parses : Parses script (.phrase (.declaration inAllowed place declaration)) offset tokens)
    : Parsed script (.declaration declaration) offset tokens
  | initializer {inAllowed : Bool} {initializer : Initializer} {offset : Nat}
    {tokens : List Token}
    (parses : Parses script (.phrase (.initializer inAllowed initializer)) offset tokens)
    : Parsed script (.initializer initializer) offset tokens

-----------------------------------------------------------------------------------------
-- Nodes among tokens
-----------------------------------------------------------------------------------------

/-- The nodes follow each other among the tokens, each with tokens of its own. -/
inductive Node.Spread (script : Script) : Nat → List Token → List Node → Prop
  | nil {offset : Nat} : Spread script offset [] []
  | token {token : Token} {tokens : List Token} {offset : Nat} {nodes : List Node}
    (rest : Spread script token.span.stop tokens nodes)
    : Spread script offset (token :: tokens) nodes
  | node {node : Node} {offset : Nat} {front back : List Token} {nodes : List Node}
    (parsed : node.Parsed script offset front)
    (rest : Spread script (Token.endOf offset front) back nodes)
    : Spread script offset (front ++ back) (node :: nodes)

namespace Node

/-- A node spreads over its own tokens. -/
theorem Parsed.spread_single {node : Node} (parsed : node.Parsed script offset tokens)
    : Spread script offset tokens [node] := by
  simpa using Spread.node parsed .nil

/-- Tokens of no node may stand anywhere. -/
theorem spread_nil (script : Script) (offset : Nat) (tokens : List Token)
    : Spread script offset tokens [] := by
  induction tokens generalizing offset with
  | nil => exact .nil
  | cons token tokens ih => exact .token (ih _)

/-- Nodes spread over their tokens one row after the other. -/
theorem Spread.append {first second : List Node} (left : Spread script offset front first)
    (right : Spread script (Token.endOf offset front) back second)
    : Spread script offset (front ++ back) (first ++ second) := by
  induction left with
  | nil => exact right
  | token _ ih => exact .token (ih right)
  | node parsed _ ih =>
      rw [List.append_assoc, List.cons_append]
      exact .node parsed (ih (by simpa using right))

end Node

namespace Grammar

open Node

/-- The nodes that a phrase makes, apart from the parts of a chain. -/
def Phrase.constituents : Phrase → List Node
  | expression _ _ value | condition _ value => [.expression value]
  | operand .. | primary _ | operators .. | continuation .. | access .. | accesses ..
  | statementEnd | jumpLabel _ => []
  | arguments value => [.arguments value]
  | elements values => values.flatMap Element.children
  | member value => [.member value]
  | function value => [.function value]
  | parameter value => [.parameter value]
  | body value => [.body value]
  | statement _ value => [.statement value]
  | restrictedOperand _ value | branchTest _ value | forClause _ _ value =>
      value.toList.map .expression
  | block _ value => [.block value]
  | declaration _ _ value => [.declaration value]
  | declarator _ value => value.children
  | initializer _ value => [.initializer value]
  | handler _ value => [.handler value]
  | branch _ value => [.branch value]
  | forStart value => value.children
  | forInTarget value => value.children

def Nonterminal.constituents : Nonterminal → List Node
  | phrase inner => inner.constituents
  | list _ phrases | listTail _ phrases | looseList _ phrases | separated phrases
  | repeated _ phrases => phrases.flatMap Phrase.constituents
  | afterKeyword _ phrase? => phrase?.toList.flatMap Phrase.constituents

/-- The nodes that the parts of a production make. -/
def Item.constituents : List Item → List Node
  | [] => []
  | .token _ :: items | .regex _ :: items | .ahead _ :: items => constituents items
  | .part nonterminal _ :: items => nonterminal.constituents ++ constituents items

-----------------------------------------------------------------------------------------
-- Where `in` is allowed
-----------------------------------------------------------------------------------------

/-- A statement, or what only statements are made of, stands where `in` is allowed. -/
def Phrase.AllowsIn : Phrase → Prop
  | statement inAllowed _ | block inAllowed _ | handler inAllowed _ | branch inAllowed _ =>
      inAllowed = true
  | _ => True

def Nonterminal.AllowsIn : Nonterminal → Prop
  | phrase inner => inner.AllowsIn
  | list _ phrases | listTail _ phrases | looseList _ phrases | separated phrases
  | repeated _ phrases => ∀ phrase ∈ phrases, phrase.AllowsIn
  | afterKeyword _ phrase? => ∀ phrase ∈ phrase?, phrase.AllowsIn

def Item.AllowsIn : List Item → Prop
  | [] => True
  | .token _ :: items | .regex _ :: items | .ahead _ :: items => AllowsIn items
  | .part nonterminal _ :: items => nonterminal.AllowsIn ∧ AllowsIn items

section AllowsIn

variable {items : List Item} {span : Span} {phrase : Phrase} {nonterminal : Nonterminal}

theorem ExpressionRule.allowsIn (rule : ExpressionRule script span phrase items)
    : Item.AllowsIn items := by
  cases rule <;> simp [Item.AllowsIn, Nonterminal.AllowsIn, Phrase.AllowsIn]

/-- A production of statements whose phrase allows `in` has parts that do. -/
theorem StatementRule.allowsIn (rule : StatementRule script span phrase items)
    (allowed : phrase.AllowsIn)
    : Item.AllowsIn items := by
  cases rule <;> simp_all [Item.AllowsIn, Nonterminal.AllowsIn, Phrase.AllowsIn]

/-- Where `in` is allowed in a statement, it is in the statements that are its parts. -/
theorem Rule.allowsIn (rule : Rule script span nonterminal items) (allowed : nonterminal.AllowsIn)
    : Item.AllowsIn items := by
  cases rule with
  | expression rule => exact rule.allowsIn
  | statement rule => exact rule.allowsIn allowed
  | repetition rule => cases rule <;> simp_all [Item.AllowsIn, Nonterminal.AllowsIn]

end AllowsIn

-----------------------------------------------------------------------------------------
-- Nodes spread over tokens
-----------------------------------------------------------------------------------------

/-- What a phrase makes of its tokens: nodes, or more of the chain that it is given. -/
def Phrase.Spreads (script : Script) (offset : Nat) (tokens : List Token) : Phrase → Prop
  | operators inAllowed _ left value =>
      ∀ origin front,
        Chains script inAllowed origin front left →
        Token.endOf origin front = offset →
        Chains script inAllowed origin (front ++ tokens) value
  | accesses constructor value =>
      ∀ origin front,
        Chains script true origin front constructor →
        Token.endOf origin front = offset →
        Chains script true origin (front ++ tokens) value
  | phrase => Spread script offset tokens phrase.constituents

def Nonterminal.Spreads (script : Script) (offset : Nat) (tokens : List Token)
    : Nonterminal → Prop
  | phrase inner => inner.Spreads script offset tokens
  | nonterminal => Spread script offset tokens nonterminal.constituents

/-- What a part makes spreads over its tokens, if it does not go on from a chain. -/
theorem Nonterminal.Spreads.spread {nonterminal : Nonterminal}
    (spreads : nonterminal.Spreads script offset tokens)
    : Spread script offset tokens nonterminal.constituents := by
  cases nonterminal with
  | phrase inner => cases inner <;> first | exact spreads | exact spread_nil ..
  | _ => exact spreads

/-- Parts and nodes of a production with more known of its parts. -/
def Item.Spread (script : Script) : List Item → Nat → Prop :=
  Components script fun part offset tokens =>
    Parses script part offset tokens ∧ part.Spreads script offset tokens

variable {items : List Item} {span : Span} {phrase : Phrase}

theorem Item.Spread.of_allowsIn
    (components
      : Components script
          (fun part offset tokens =>
            Parses script part offset tokens
            ∧ (part.AllowsIn → part.Spreads script offset tokens))
          items offset)
    (allowed : Item.AllowsIn items)
    : Item.Spread script items offset := by
  induction items generalizing offset with
  | nil => trivial
  | cons item items ih =>
      cases item with
      | token | regex | ahead => exact ⟨components.1, ih components.2 allowed⟩
      | part =>
          obtain ⟨⟨parses, spreads⟩, components⟩ := components
          exact ⟨⟨parses, spreads allowed.1⟩, ih components allowed.2⟩

/-- The nodes of the components spread over their tokens, by induction on the components. -/
theorem Item.Spread.nodes (components : Item.Spread script items offset)
    : Node.Spread script offset (Item.tokensOf items) (Item.constituents items) := by
  induction items generalizing offset with
  | nil => exact .nil
  | cons item items ih =>
      cases item with
      | token | regex => exact .token (ih components.2)
      | ahead => exact ih components.2
      | part => exact components.1.2.spread.append (ih components.2)

theorem Components.sequence (components : Components script (Parses script) items offset)
    : Sequence script (Parses script) items offset := by
  induction items generalizing offset with
  | nil => exact .nil
  | cons item items ih =>
      cases item with
      | token => exact .token components.1 (ih components.2)
      | regex => exact .regex components.1 (ih components.2)
      | ahead => exact .ahead components.1 (ih components.2)
      | part => exact .part components.1 (ih components.2)

/-- What a production of expressions makes has tokens of its own, by cases on the production. -/
theorem ExpressionRule.spreads (rule : ExpressionRule script span phrase items)
    (whole : Parses script (.phrase phrase) offset (Item.tokensOf items))
    (components : Item.Spread script items offset)
    : phrase.Spreads script offset (Item.tokensOf items) := by
  cases rule with
  | expression =>
      obtain ⟨⟨operand, _⟩, ⟨_, operators⟩, _⟩ := components
      have chains := operators _ _ (.operand operand) rfl
      simpa [Item.tokensOf, Phrase.Spreads, Phrase.constituents]
        using (Parsed.expression chains).spread_single
  | operatorsNone | accessesNone =>
      intro origin front chains _
      simpa [Item.tokensOf] using chains
  | operatorsUpdate updates _ target =>
      obtain ⟨read, ⟨_, operators⟩, _⟩ := components
      rintro origin front chains rfl
      simpa [Item.tokensOf]
        using operators _ _ (.update chains read updates target) (by simp)
  | operatorsMore _ opens _ allowed =>
      obtain ⟨⟨read, _⟩, ⟨continuation, _⟩, ⟨_, operators⟩, _⟩ := components
      rintro origin front chains rfl
      simpa [Item.tokensOf]
        using operators _ _ (.more chains read opens allowed continuation) (by simp)
  | accessesMore opens isAccess =>
      obtain ⟨⟨read, _⟩, ⟨access, _⟩, ⟨_, accesses⟩, _⟩ := components
      rintro origin front chains rfl
      have continuation
          : Parses script (.phrase (.continuation true _ _ _)) (Token.endOf origin front) _ :=
        .intro (.expression (.continuationAccess isAccess)) (.part access .nil) (List.append_nil _)
      simpa [Item.tokensOf]
        using accesses _ _ (.more chains read opens (fun _ => rfl) continuation) (by simp)
  | operandPlain | operandPrefixed | object | array | identifier | functionAnonymous
  | functionNamed | construct | constructBare | this | boolean | null | number | regex | string
  | parenthesized | accessMember | accessIndex | continuationCall | continuationAccess
  | continuationConditional | continuationBinary =>
      exact spread_nil ..
  | arguments => exact (Parsed.arguments whole).spread_single
  | memberProperty | memberGetter | memberSetter => exact (Parsed.member whole).spread_single
  | function => exact (Parsed.function whole).spread_single
  | parameter => exact (Parsed.parameter whole).spread_single
  | body => exact (Parsed.body whole).spread_single
  | elementsNone | elementsHole | elementsLast | elementsMore =>
      simpa [Phrase.Spreads, Item.constituents, Nonterminal.constituents, Phrase.constituents,
        Element.children] using components.nodes

/-- What a production of statements makes has tokens of its own, by cases on the production. -/
theorem StatementRule.spreads (rule : StatementRule script span phrase items)
    (allowed : phrase.AllowsIn) (whole : Parses script (.phrase phrase) offset (Item.tokensOf items))
    (components : Item.Spread script items offset)
    : phrase.Spreads script offset (Item.tokensOf items) := by
  cases phrase with
  | statement =>
      obtain rfl := allowed
      exact (Parsed.statement whole).spread_single
  | block =>
      obtain rfl := allowed
      exact (Parsed.block whole).spread_single
  | declaration => exact (Parsed.declaration whole).spread_single
  | initializer => exact (Parsed.initializer whole).spread_single
  | handler =>
      obtain rfl := allowed
      exact (Parsed.handler whole).spread_single
  | branch =>
      obtain rfl := allowed
      exact (Parsed.branch whole).spread_single
  | _ =>
      cases rule <;>
        simpa [Phrase.Spreads, Item.constituents, Nonterminal.constituents, Phrase.constituents,
          Declarator.children, ForStart.children, ForInTarget.children] using components.nodes

/-- The items of a repetition have tokens of their own, one after the other. -/
theorem RepetitionRule.spreads {nonterminal : Nonterminal}
    (rule : RepetitionRule nonterminal items) (components : Item.Spread script items offset)
    : nonterminal.Spreads script offset (Item.tokensOf items) := by
  cases rule <;>
    simpa [Nonterminal.Spreads, Item.constituents, Nonterminal.constituents] using components.nodes

/-- Whatever parses spreads nodes with derivations of their own over its tokens. -/
theorem Parses.spreads {nonterminal : Nonterminal}
    (derivation : Parses script nonterminal offset tokens) (allowed : nonterminal.AllowsIn)
    : nonterminal.Spreads script offset tokens := by
  revert allowed
  refine derivation.induction
    (motive := fun nonterminal offset tokens =>
      nonterminal.AllowsIn → nonterminal.Spreads script offset tokens) ?_
  intro nonterminal items offset rule components allowed
  have whole : Parses script nonterminal offset (Item.tokensOf items) :=
    .of_rule rule (components.mono fun _ _ _ holds => holds.1).sequence
  have spread := Item.Spread.of_allowsIn components (rule.allowsIn allowed)
  cases rule with
  | expression rule => exact rule.spreads whole spread
  | statement rule => exact rule.spreads allowed whole spread
  | repetition rule => exact rule.spreads spread

/-- The nodes of a production spread over its tokens, since each part parses. -/
theorem Components.spread (components : Components script (Parses script) items offset)
    (allowed : Item.AllowsIn items)
    : Node.Spread script offset (Item.tokensOf items) (Item.constituents items) := by
  have spread : Item.Spread script items offset :=
    .of_allowsIn (components.mono fun _ _ _ derivation => ⟨derivation, derivation.spreads⟩) allowed
  exact spread.nodes

end Grammar

end EcmaSyntax
