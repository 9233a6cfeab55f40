import EcmaSyntax.Grammar.Statement
import EcmaSyntax.Proofs.Token.Cursor

/-! The parts of the grammar, each with its result, and the sequences of parts that productions are made
of. What a production consists of is data here, so that facts about all productions have one case each.
-/

namespace EcmaSyntax.Grammar

/-- A part of the grammar that is written once, with its result. -/
inductive Phrase where
  | expression (inAllowed : Bool) (least : Nat) (value : Expr)
  | operand (inAllowed : Bool) (value : Expr)
  | primary (value : Expr)
  | operators (inAllowed : Bool) (least : Nat) (left value : Expr)
  | continuation (inAllowed : Bool) (operator : Operator) (left value : Expr)
  | access (operator : Operator) (object value : Expr)
  | accesses (constructor value : Expr)
  | arguments (arguments : Arguments)
  | elements (elements : List Element)
  | member (member : Member)
  | function (function : Func)
  | parameter (parameter : Parameter)
  | body (body : Body)
  | statement (inAllowed : Bool) (statement : Stmt)
  | statementEnd
  | jumpLabel (label : Option String)
  | restrictedOperand (inAllowed : Bool) (value : Option Expr)
  | condition (inAllowed : Bool) (value : Expr)
  | block (inAllowed : Bool) (block : Block)
  | declaration (inAllowed : Bool) (place : DeclarationPlace) (declaration : Declaration)
  | declarator (inAllowed : Bool) (declarator : Declarator)
  | initializer (inAllowed : Bool) (initializer : Initializer)
  | handler (inAllowed : Bool) (handler : Handler)
  | branch (inAllowed : Bool) (branch : Branch)
  | branchTest (inAllowed : Bool) (test : Option Expr)
  | forStart (start : ForStart)
  | forClause (inAllowed : Bool) (close : Kind) (clause : Option Expr)
  | forInTarget (target : ForInTarget)

/-- A phrase, or phrases in one of the ways in which they are repeated or left out. -/
inductive Nonterminal where
  | phrase (phrase : Phrase)
  | list (close : Kind) (phrases : List Phrase)
  | listTail (close : Kind) (phrases : List Phrase)
  | looseList (close : Kind) (phrases : List Phrase)
  | separated (phrases : List Phrase)
  | repeated (goes : Kind → Bool) (phrases : List Phrase)
  | afterKeyword (keyword : Kind) (phrase : Option Phrase)

/-- A component of a production: a token, which is read as an operand or otherwise, tokens that are
looked at but not consumed, or a part with the tokens that it consumes.
-/
inductive Item where
  | token (token : Token)
  | regex (token : Token)
  | ahead (tokens : List Token)
  | part (nonterminal : Nonterminal) (tokens : List Token)

/-- The tokens that the components of a production consume. -/
def Item.tokensOf : List Item → List Token
  | [] => []
  | .token first :: items | .regex first :: items => first :: tokensOf items
  | .ahead _ :: items => tokensOf items
  | .part _ tokens :: items => tokens ++ tokensOf items

theorem Item.tokensOf_append (front back : List Item)
    : tokensOf (front ++ back) = tokensOf front ++ tokensOf back := by
  induction front with
  | nil => rfl
  | cons item front ih => cases item <;> simp [tokensOf, ih]

/-- The components of a production stand one after the other from the offset on. -/
inductive Sequence (script : Script) (parses : Nonterminal → Nat → List Token → Prop)
    : List Item → Nat → Prop
  | nil {offset : Nat} : Sequence script parses [] offset
  | token {offset : Nat} {token : Token} {items : List Item}
    (read : script.Reads .standard offset token)
    (rest : Sequence script parses items token.span.stop)
    : Sequence script parses (.token token :: items) offset
  | regex {offset : Nat} {token : Token} {items : List Item}
    (read : script.Reads .regex offset token)
    (rest : Sequence script parses items token.span.stop)
    : Sequence script parses (.regex token :: items) offset
  | ahead {offset : Nat} {tokens : List Token} {items : List Item}
    (reads : script.ReadsAhead offset tokens) (rest : Sequence script parses items offset)
    : Sequence script parses (.ahead tokens :: items) offset
  | part {offset : Nat} {nonterminal : Nonterminal} {tokens : List Token} {items : List Item}
    (part : parses nonterminal offset tokens)
    (rest : Sequence script parses items (Token.endOf offset tokens))
    : Sequence script parses (.part nonterminal tokens :: items) offset

/-- What a sequence amounts to, with more known of the parts: the tokens are read and the parts hold one
after the other.
-/
def Components (script : Script) (holds : Nonterminal → Nat → List Token → Prop)
    : List Item → Nat → Prop
  | [], _ => True
  | .token first :: items, offset =>
      script.Reads .standard offset first ∧ Components script holds items first.span.stop
  | .regex first :: items, offset =>
      script.Reads .regex offset first ∧ Components script holds items first.span.stop
  | .ahead tokens :: items, offset =>
      script.ReadsAhead offset tokens ∧ Components script holds items offset
  | .part nonterminal tokens :: items, offset =>
      holds nonterminal offset tokens
      ∧ Components script holds items (Token.endOf offset tokens)

/-- Components keep what follows from what is known of each part. -/
theorem Components.mono {script : Script} {first second : Nonterminal → Nat → List Token → Prop}
    {items : List Item} {offset : Nat} (components : Components script first items offset)
    (weaker : ∀ part offset tokens, first part offset tokens → second part offset tokens)
    : Components script second items offset := by
  induction items generalizing offset with
  | nil => trivial
  | cons item items ih =>
      cases item with
      | token | regex | ahead => exact ⟨components.1, ih components.2⟩
      | part => exact ⟨weaker _ _ _ components.1, ih components.2⟩

/-- Components in two rows stand one row after the other. -/
theorem components_append {script : Script} {holds : Nonterminal → Nat → List Token → Prop}
    {front back : List Item} {offset : Nat}
    : Components script holds (front ++ back) offset
      ↔ Components script holds front offset
        ∧ Components script holds back (Token.endOf offset (Item.tokensOf front)) := by
  induction front generalizing offset with
  | nil => simp [Components, Item.tokensOf]
  | cons item front ih => cases item <;> simp [Components, Item.tokensOf, ih, and_assoc]

/-- A sequence has components that parse, by induction on the sequence. -/
theorem Sequence.components {script : Script} {parses : Nonterminal → Nat → List Token → Prop}
    {items : List Item} {offset : Nat} (sequence : Sequence script parses items offset)
    : Components script parses items offset := by
  induction sequence with
  | nil => trivial
  | token read _ ih | regex read _ ih => exact ⟨read, ih⟩
  | ahead reads _ ih => exact ⟨reads, ih⟩
  | part holds _ ih => exact ⟨holds, ih⟩

end EcmaSyntax.Grammar
