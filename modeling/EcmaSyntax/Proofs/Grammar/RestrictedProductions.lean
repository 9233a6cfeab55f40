import EcmaSyntax.Proofs.Grammar.Nesting
import EcmaSyntax.Proofs.Token.Spelled

/-! Where the end of a line matters. The value of `return` and `throw`, the label of `break` and `continue`
and an operator after its operand begin on the line on which what is in front of them ends. A statement
that goes without its value or label has a reason to end behind its keyword. This is said of the characters
of the source, since a line may end within a comment, too.
-/

namespace EcmaSyntax

open EcmaSyntax.Grammar

-----------------------------------------------------------------------------------------
-- Restricted nodes
-----------------------------------------------------------------------------------------

namespace Script

/-- A statement may end at the offset: there a semicolon, a brace or the end of the input follows, or the
line ends in front of what follows.
-/
def MayEnd (script : Script) (offset : Nat) : Prop :=
  ∃ next,
    script.Reads .standard offset next
    ∧ (next.kind = .semicolon
      ∨ next.kind = .braceClose
      ∨ next.kind = .endOfInput
      ∨ script.Breaks offset next.span.start true)

/-- An identifier with the name follows on the same line. -/
def NamesOnLine (script : Script) (offset : Nat) (name : String) : Prop :=
  ∃ token,
    script.Reads .standard offset token
    ∧ token.kind = .identifier
    ∧ script.nameOf token = name
    ∧ script.Breaks offset token.span.start false

/-- The keyword stands at the offset, and what is behind it holds at its end. -/
def AfterKeyword (script : Script) (start : Nat) (keyword : String) (holds : Nat → Prop) : Prop :=
  script.StandsAt start keyword.toList ∧ holds (start + Text.size keyword.toList)

/-- The value begins on the line, or the statement may end without it. -/
def RestrictsValue (script : Script) (offset : Nat) : Option Expr → Prop
  | some value => script.Breaks offset value.span.start false
  | none => script.MayEnd offset

/-- The label is on the line, or the statement may end without it. -/
def RestrictsLabel (script : Script) (offset : Nat) : Option String → Prop
  | some name => script.NamesOnLine offset name
  | none => script.MayEnd offset

end Script

/-- What a keyword may have behind it is on its line, and is missing only where the statement may end. -/
def Stmt.Restricted (script : Script) : Stmt → Prop
  | returnValue span value =>
      script.AfterKeyword span.start "return" fun offset => script.RestrictsValue offset value
  | throwValue span value =>
      script.AfterKeyword span.start "throw" fun offset => script.RestrictsValue offset value
  | breakTo span label =>
      script.AfterKeyword span.start "break" fun offset => script.RestrictsLabel offset label
  | continueTo span label =>
      script.AfterKeyword span.start "continue" fun offset => script.RestrictsLabel offset label
  | _ => True

/-- An increment or decrement at the end of an expression is on the line where the argument ends. -/
def Expr.Restricted (script : Script) : Expr → Prop
  | update span operator argument =>
      ∃ start,
        script.StandsAt start operator.updateText.toList
        ∧ start + Text.size operator.updateText.toList = span.stop
        ∧ script.Breaks argument.span.stop start false
  | _ => True

/-- No line ends within a node where it could have ended the statement. -/
def Node.Restricted (script : Script) : Node → Prop
  | statement inner => inner.Restricted script
  | expression value => value.Restricted script
  | program _ | arguments _ | member _ | function _ | parameter _ | body _ | block _ | handler _
  | branch _ | declaration _ | initializer _ => True

-----------------------------------------------------------------------------------------
-- What parses is restricted
-----------------------------------------------------------------------------------------

variable {script : Script} {offset : Nat} {tokens : List Token} {token next : Token}
variable {inAllowed : Bool}

/-- A token that ends a statement is a reason to end it. -/
theorem Script.Reads.mayEnd (read : script.Reads .standard offset next) (ends : endsStatement next)
    : script.MayEnd offset := by
  refine ⟨next, read, ?_⟩
  simp only [endsStatement, Bool.or_eq_true, decide_eq_true_eq] at ends
  rcases ends with ((semicolon | brace) | input) | newline
  · exact .inl semicolon
  · exact .inr (.inl brace)
  · exact .inr (.inr (.inl input))
  · exact .inr (.inr (.inr (newline ▸ read.breaks)))

/-- A keyword stands where its token begins, and what follows is behind the keyword. -/
theorem Script.Reads.afterKeyword {keyword : String} {holds : Nat → Prop}
    (read : script.Reads .standard offset token) (spells : token.kind.spelling? = some keyword)
    (behind : holds token.span.stop)
    : script.AfterKeyword token.span.start keyword holds := by
  obtain ⟨stands, stop_eq⟩ := read.standsAt spells
  exact ⟨stands, stop_eq ▸ behind⟩

namespace Grammar

/-- Where a statement has ended it may end. -/
theorem Parses.mayEnd (derivation : Parses script (.phrase .statementEnd) offset tokens)
    : script.MayEnd offset := by
  obtain ⟨items, rfl, rule, components⟩ := derivation.statement_components rfl
  cases rule with
  | statementEndMark ends => exact components.1.mayEnd (by simp [endsStatement, ends])
  | statementEndImplied _ ends => exact components.1.1.mayEnd ends

/-- An expression is on the line of what is in front of it if its first token is. -/
theorem Parses.startsOnLine {value : Expr}
    (derivation : Parses script (.phrase (.expression inAllowed 1 value)) offset tokens)
    (read : script.Reads .standard offset next) (sameLine : next.afterNewline = false)
    : script.Breaks offset value.span.start false := by
  obtain ⟨first, rest, rfl, readFirst⟩ := derivation.opens_expression
  have spans : script.Spans offset (first :: rest) value.span := derivation.spans
  have breaks := readFirst.breaks
  rw [readFirst.afterNewline_eq read, sameLine] at breaks
  rw [spans.span_eq]
  exact breaks

/-- A value begins on the line of its keyword, or there is a reason for having none. -/
theorem Parses.restrictsValue {value : Option Expr}
    (derivation : Parses script (.phrase (.restrictedOperand inAllowed value)) offset tokens)
    : script.RestrictsValue offset value := by
  obtain ⟨items, rfl, rule, components⟩ := derivation.statement_components rfl
  cases rule with
  | restrictedOperandNone ends => exact components.1.1.mayEnd ends
  | restrictedOperandSome goesOn =>
      obtain ⟨⟨read, _⟩, value, _⟩ := components
      exact value.startsOnLine read (Bool.or_eq_false_iff.mp goesOn).2

/-- A label stands on the line of its keyword, or there is a reason for having none. -/
theorem Parses.restrictsLabel {label : Option String}
    (derivation : Parses script (.phrase (.jumpLabel label)) offset tokens)
    : script.RestrictsLabel offset label := by
  obtain ⟨items, rfl, rule, components⟩ := derivation.statement_components rfl
  cases rule with
  | jumpLabelSome named sameLine =>
      exact ⟨_, components.1, named, rfl, sameLine ▸ components.1.breaks⟩
  | jumpLabelNone => exact components.2.1.mayEnd

/-- A statement has what belongs to its keyword on one line with it, by cases on its production. -/
theorem Parses.restricted {statement : Stmt}
    (derivation : Parses script (.phrase (.statement inAllowed statement)) offset tokens)
    : statement.Restricted script := by
  obtain ⟨items, rfl, rule, components⟩ := derivation.statement_components rfl
  cases rule with
  | returnValue opens | throwValue opens =>
      unfold Stmt.Restricted
      refine components.1.afterKeyword (by rw [opens]; rfl) ?_
      exact components.2.1.restrictsValue
  | breakTo opens | continueTo opens =>
      unfold Stmt.Restricted
      refine components.1.afterKeyword (by rw [opens]; rfl) ?_
      exact components.2.1.restrictsLabel
  | _ => trivial

theorem spelling?_of_updateOperator? {operator : Operator}
    (updates : updateOperator? token = some operator)
    : token.kind.spelling? = some operator.updateText ∧ token.afterNewline = false := by
  unfold updateOperator? at updates
  split_ifs at updates with newline isPlus isHyphen <;> cases updates
  · exact ⟨by rw [isPlus]; rfl, Bool.eq_false_of_not_eq_true newline⟩
  · exact ⟨by rw [isHyphen]; rfl, Bool.eq_false_of_not_eq_true newline⟩

/-- An update stands on the line where its argument ends, by cases on how the chain ends. -/
theorem Chains.restricted {value : Expr} (chains : Chains script inAllowed offset tokens value)
    : value.Restricted script := by
  cases chains with
  | @update front target token operator argument read updates assignable =>
      obtain ⟨spells, sameLine⟩ := spelling?_of_updateOperator? updates
      obtain ⟨stands, stop_eq⟩ := read.standsAt spells
      have front := argument.spans
      have whole := (argument.update read updates assignable).spans
      have ends := (front.consumes.spanOf front.present).2.2
      have stops := (whole.consumes.spanOf whole.present).2.2
      rw [← front.span_eq] at ends
      rw [← whole.span_eq, Token.endOf_append] at stops
      refine ⟨token.span.start, stands, stop_eq.trans stops.symm, ?_⟩
      rw [ends, ← sameLine]
      exact read.breaks
  | operand operand =>
      obtain ⟨items, rfl, rule, components⟩ := operand.expression_components rfl
      cases rule with
      | operandPrefixed => trivial
      | operandPlain =>
          obtain ⟨items, rfl, rule, _⟩ := components.1.expression_components rfl
          cases rule <;> trivial
  | more _ _ _ _ continuation =>
      obtain ⟨items, rfl, rule, components⟩ := continuation.expression_components rfl
      cases rule with
      | continuationCall | continuationConditional | continuationBinary => trivial
      | continuationAccess =>
          obtain ⟨items, rfl, rule, _⟩ := components.1.expression_components rfl
          cases rule <;> trivial

end Grammar

/-- A node that has tokens of its own is not broken by a line where it could have ended. -/
theorem Node.Parsed.restricted {node : Node} (parsed : node.Parsed script offset tokens)
    : node.Restricted script := by
  cases parsed with
  | statement parses => exact parses.restricted
  | expression chains => exact chains.restricted
  | arguments | member | function | parameter | body | block | handler | branch | declaration
  | initializer => trivial

namespace Program

variable {source : List Char} {dialect : Dialect} {program : Program}

/-- Everywhere in a parsed program, no line ends between `return` or `throw` and their value, `break` or
`continue` and their label, and an argument and the operator behind it; and where the value or label is
missing, the statement may end behind the keyword.
-/
theorem restricted_of_parse (parsed : parse source dialect = .ok program)
    : (Node.program program).Everywhere (Node.Restricted { source, dialect }) := by
  intro node within
  cases located_of_parse parsed within with
  | root => trivial
  | parsed derived => exact derived.restricted
  | missing => trivial

/-- A line ends within the comment behind `throw`, so that nothing is thrown, and in front of `++`, so that
it is `y` that is incremented; but no line ends within the comment in front of the label.
-/
theorem restricted_of_parse_comments
    : ∃ program,
        parse "a: for (;;) break /**/ a\nthrow /*\n*/ x\n++y".toList .ecma = .ok program
        ∧ program.body.length = 4
        ∧ (Node.program program).Everywhere
            (Node.Restricted
              {
                source := "a: for (;;) break /**/ a\nthrow /*\n*/ x\n++y".toList
                dialect := .ecma
              }) := by
  have counted
      : (parse "a: for (;;) break /**/ a\nthrow /*\n*/ x\n++y".toList .ecma).toOption.map
            (fun program => program.body.length)
          = some 4 := by
    decide +kernel
  cases parsed : parse "a: for (;;) break /**/ a\nthrow /*\n*/ x\n++y".toList .ecma with
  | error failure =>
      rw [parsed] at counted
      cases counted
  | ok program =>
      rw [parsed] at counted
      exact ⟨program, rfl, Option.some.inj counted, restricted_of_parse parsed⟩

end Program

end EcmaSyntax
