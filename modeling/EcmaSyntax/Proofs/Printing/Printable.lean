import EcmaSyntax.Proofs.Grammar.Rule
import EcmaSyntax.Proofs.Printing.Words
import EcmaSyntax.Proofs.Tree.Grouping

/-! Expressions as they are printed: the words of an expression one after the other. Printable
expressions are those whose operators group as they are printed, without further parentheses.
-/

namespace EcmaSyntax

namespace Operator

/-- The kind of token that the operator is between its operands. -/
def infixKind (operator : Operator) : Kind :=
  (Kind.all.find? fun kind => kind.infixOperator? = some operator).getD .invalid

/-- The kind of token that the operator is in front of its operand. -/
def prefixKind (operator : Operator) : Kind :=
  (Kind.all.find? fun kind => kind.prefixOperator? = some operator).getD .invalid

/-- The kind of token that an update is after its operand. -/
def updateKind : Operator → Kind
  | postfixIncrement => .plusPlus
  | _ => .hyphenHyphen

/-- Binary operators, assignments and the comma. -/
def isInfix (operator : Operator) : Bool :=
  operator.isBinary && operator.infixKind.infixOperator? = some operator

def isPrefix (operator : Operator) : Bool :=
  operator.prefixKind.prefixOperator? = some operator

def isUpdate (operator : Operator) : Bool :=
  operator = .postfixIncrement || operator = .postfixDecrement

variable {operator : Operator}

theorem isBinary_of_isInfix (between : operator.isInfix) : operator.isBinary :=
  (Bool.and_eq_true_iff.mp between).1

/-- The token that is printed for an operator between operands is read as that operator. -/
theorem infixOperator?_infixKind (between : operator.isInfix)
    : operator.infixKind.infixOperator? = some operator :=
  of_decide_eq_true (Bool.and_eq_true_iff.mp between).2

/-- The token that is printed for an operator in front is read as that operator. -/
theorem prefixOperator?_prefixKind (front : operator.isPrefix)
    : operator.prefixKind.prefixOperator? = some operator :=
  of_decide_eq_true front

/-- Binary operators bind less tightly than operators with one operand. -/
theorem precedence_lt_of_isInfix (between : operator.isInfix) : operator.precedence < 14 := by
  cases operator <;> first | decide | exact absurd between (by decide)

/-- Every operator in front of its operand asks for an operand of one level. -/
theorem rightPrecedence_of_isPrefix (front : operator.isPrefix) : operator.rightPrecedence = 14 := by
  cases operator <;> first | rfl | exact absurd front (by decide)

end Operator

namespace Expr

/-- The forms that calls and properties apply to. -/
def isOperand : Expr → Bool
  | identifier .. | this _ | boolean .. | null _ | parenthesized .. | array .. | member ..
  | index .. | call .. | construct .. => true
  | _ => false

/-- The forms that `new` applies to: those without a call in their chain of properties. -/
def isConstructor : Expr → Bool
  | member _ base _ | index _ base _ => base.isConstructor
  | call .. => false
  | value => value.isOperand

/-- Expressions that are printed so that they group as they do: made of names, simple literals, arrays,
parentheses, properties, calls, `new` and operators, with the operands that the operators ask for.
-/
inductive Printable : Expr → Prop
  | identifier {span : Span} {name : String} (written : Text.IsName name.toList)
    (free : wordKind? name.toList = none)
    : Printable (.identifier span name)
  | this {span : Span} : Printable (.this span)
  | boolean {span : Span} {value : Bool} : Printable (.boolean span value)
  | null {span : Span} : Printable (.null span)
  | parenthesized {span : Span} {body : Expr} (printable : body.Printable)
    : Printable (.parenthesized span body)
  | array {span : Span} {elements : List Element}
    (printable : ∀ value, .value value ∈ elements → value.Printable)
    (tight : ∀ value, .value value ∈ elements → 2 ≤ value.level)
    : Printable (.array span elements)
  | member {span : Span} {object : Expr} {name : String} (printable : object.Printable)
    (applies : object.isOperand) (written : Text.IsName name.toList)
    : Printable (.member span object name)
  | index {span : Span} {object key : Expr} (printable : object.Printable)
    (applies : object.isOperand) (printableKey : key.Printable)
    : Printable (.index span object key)
  | call {span : Span} {callee : Expr} {arguments : Arguments} (printable : callee.Printable)
    (applies : callee.isOperand)
    (printableValues : ∀ value ∈ arguments.values, value.Printable)
    (tight : ∀ value ∈ arguments.values, 2 ≤ value.level)
    : Printable (.call span callee arguments)
  | construct {span : Span} {constructor : Expr} {arguments : Arguments}
    (printable : constructor.Printable) (applies : constructor.isConstructor)
    (printableValues : ∀ value ∈ arguments.values, value.Printable)
    (tight : ∀ value ∈ arguments.values, 2 ≤ value.level)
    : Printable (.construct span constructor arguments)
  | unary {span : Span} {operator : Operator} {argument : Expr} (printable : argument.Printable)
    (front : operator.isPrefix) (grouped : (Expr.unary span operator argument).WellGrouped)
    (target
      : operator = .prefixDecrement ∨ operator = .prefixIncrement → argument.isAssignmentTarget)
    : Printable (.unary span operator argument)
  | update {span : Span} {operator : Operator} {argument : Expr} (printable : argument.Printable)
    (behind : operator.isUpdate) (grouped : (Expr.update span operator argument).WellGrouped)
    : Printable (.update span operator argument)
  | binary {span : Span} {operator : Operator} {left right : Expr}
    (printableLeft : left.Printable) (printableRight : right.Printable)
    (between : operator.isInfix) (grouped : (Expr.binary span operator left right).WellGrouped)
    : Printable (.binary span operator left right)
  | conditional {span : Span} {test consequent alternate : Expr} (printableTest : test.Printable)
    (printableConsequent : consequent.Printable) (printableAlternate : alternate.Printable)
    (grouped : (Expr.conditional span test consequent alternate).WellGrouped)
    : Printable (.conditional span test consequent alternate)

end Expr

-----------------------------------------------------------------------------------------
-- Printing
-----------------------------------------------------------------------------------------

namespace Printed

mutual

/-- The words of the expression. Every `new` has parentheses for its arguments. -/
def ofExpr : Expr → List Word
  | .binary _ operator left right => ofExpr left ++ .ofKind operator.infixKind :: ofExpr right
  | .call _ callee arguments => ofExpr callee ++ ofArguments arguments
  | .index _ object key =>
      ofExpr object ++ .ofKind .bracketOpen :: (ofExpr key ++ [.ofKind .bracketClose])
  | .conditional _ test consequent alternate =>
      ofExpr test
      ++ .ofKind .question :: (ofExpr consequent ++ .ofKind .colon :: ofExpr alternate)
  | .identifier _ name => [.ofName name]
  | .member _ object name => ofExpr object ++ [.ofKind .dot, .ofName name]
  | .construct _ constructor arguments =>
      .ofKind .keywordNew :: (ofExpr constructor ++ ofArguments arguments)
  | .parenthesized _ body =>
      .ofKind .parenthesisOpen :: (ofExpr body ++ [.ofKind .parenthesisClose])
  | .this _ => [.ofKind .keywordThis]
  | .unary _ operator argument => .ofKind operator.prefixKind :: ofExpr argument
  | .update _ operator argument => ofExpr argument ++ [.ofKind operator.updateKind]
  | .array _ elements =>
      .ofKind .bracketOpen :: (ofElements elements ++ [.ofKind .bracketClose])
  | .boolean _ value => [.ofKind (if value then .literalTrue else .literalFalse)]
  | .null _ => [.ofKind .literalNull]
  | .function .. | .number .. | .object .. | .regex .. | .string .. => []

/-- The words of arguments, in parentheses and with commas between them. -/
def ofArguments : Arguments → List Word
  | { span := _, values } => .ofKind .parenthesisOpen :: ofList values

def ofList : List Expr → List Word
  | [] => [.ofKind .parenthesisClose]
  | value :: rest => ofExpr value ++ ofListTail rest

def ofListTail : List Expr → List Word
  | [] => [.ofKind .parenthesisClose]
  | value :: rest => .ofKind .comma :: (ofExpr value ++ ofListTail rest)

/-- The words of the elements of an array, with a comma after each. A hole is only the comma. -/
def ofElements : List Element → List Word
  | [] => []
  | .value value :: rest => ofExpr value ++ .ofKind .comma :: ofElements rest
  | .hole :: rest => .ofKind .comma :: ofElements rest

end

end Printed

variable {value : Expr}

/-- A kind of token that a printable expression can begin with. -/
def Kind.opensPrinted (kind : Kind) : Bool :=
  kind.prefixOperator?.isSome || kind = .identifier || kind = .keywordThis || kind = .keywordNew
  || kind = .literalTrue || kind = .literalFalse || kind = .literalNull
  || kind = .parenthesisOpen || kind = .bracketOpen

/-- The first word of a printable expression is of a kind that these begin with. -/
theorem Printed.opens (printable : value.Printable)
    : ∃ word rest, ofExpr value = word :: rest ∧ word.kind.opensPrinted := by
  induction printable with
  | identifier written free =>
      refine ⟨_, _, rfl, ?_⟩
      rw [Word.ofName, free]
      rfl
  | this | null | parenthesized | array | construct => exact ⟨_, _, rfl, by decide⟩
  | @boolean _ value => cases value <;> exact ⟨_, _, rfl, by decide⟩
  | unary _ front =>
      refine ⟨_, _, rfl, ?_⟩
      simp [Kind.opensPrinted, Word.ofKind, Operator.prefixOperator?_prefixKind front]
  | member _ _ _ ih | index _ _ _ ih | call _ _ _ _ ih | update _ _ _ ih | binary _ _ _ _ ih
  | conditional _ _ _ _ ih =>
      obtain ⟨word, rest, same, opens⟩ := ih
      exact ⟨word, _, by rw [ofExpr, same, List.cons_append], opens⟩

/-- No label stands at the beginning of the words: a first identifier has no colon behind it. -/
def Word.NoLabel (words : List Word) : Prop :=
  ∀ first second rest, words = first :: second :: rest → first.kind = .identifier → second.kind ≠ .colon

/-- Words in front of a colon do not become a label unless they are one identifier. -/
theorem Word.NoLabel.append {words more : List Word} (noLabel : NoLabel words)
    (present : words ≠ []) (noColon : ∀ next rest, more = next :: rest → next.kind ≠ .colon)
    : NoLabel (words ++ more) := by
  intro first second rest same named
  match words, present with
  | [word], _ => exact noColon second rest (List.cons.inj same).2
  | word :: next :: others, _ =>
      obtain ⟨rfl, behind⟩ := List.cons.inj same
      obtain ⟨rfl, _⟩ := List.cons.inj behind
      exact noLabel _ _ others rfl named

/-- An expression has a word at least. -/
theorem Printed.ne_nil (printable : value.Printable) : ofExpr value ≠ [] := by
  obtain ⟨word, rest, same, _⟩ := Printed.opens printable
  rw [same]
  exact List.cons_ne_nil word rest

/-- No printable expression looks like a labelled statement. -/
theorem Printed.noLabel (printable : value.Printable) : Word.NoLabel (ofExpr value) := by
  induction printable with
  | identifier | this | null =>
      intro first second rest same
      simp [ofExpr] at same
  | boolean =>
      intro first second rest same
      simp [ofExpr] at same
  | parenthesized | array | construct =>
      intro first second rest same named
      rw [ofExpr] at same
      obtain ⟨rfl, _⟩ := List.cons.inj same
      cases named
  | unary _ front =>
      intro first second rest same named
      rw [ofExpr] at same
      obtain ⟨rfl, _⟩ := List.cons.inj same
      have opens := Operator.prefixOperator?_prefixKind front
      rw [show Operator.prefixKind _ = _ from named] at opens
      cases opens
  | member printable _ _ ih | index printable _ _ ih | conditional printable _ _ _ ih =>
      rw [ofExpr]
      refine ih.append (ne_nil printable) ?_
      rintro next rest ⟨⟩
      decide
  | @call _ _ arguments printable _ _ _ ih =>
      obtain ⟨span, values⟩ := arguments
      rw [ofExpr, ofArguments]
      refine ih.append (ne_nil printable) ?_
      rintro next rest ⟨⟩
      decide
  | @update _ operator _ printable _ _ ih =>
      rw [ofExpr]
      refine ih.append (ne_nil printable) ?_
      rintro next rest ⟨⟩
      cases operator <;> decide
  | binary printable _ between _ ih =>
      rw [ofExpr]
      refine ih.append (ne_nil printable) ?_
      rintro next rest ⟨⟩ colon
      have opens := Operator.infixOperator?_infixKind between
      rw [show Operator.infixKind _ = _ from colon] at opens
      cases opens

/-- The operators between operands have spellings that are read as them. -/
theorem Word.wellFormed_infixKind {operator : Operator} (between : operator.isInfix)
    : (Word.ofKind operator.infixKind).WellFormed := by
  apply wellFormed_ofKind
  have opens := Operator.infixOperator?_infixKind between
  generalize operator.infixKind = kind at opens
  cases kind <;> first | decide | cases opens

theorem Word.wellFormed_prefixKind {operator : Operator} (front : operator.isPrefix)
    : (Word.ofKind operator.prefixKind).WellFormed := by
  apply wellFormed_ofKind
  have opens := Operator.prefixOperator?_prefixKind front
  generalize operator.prefixKind = kind at opens
  cases kind <;> first | decide | cases opens

theorem Word.wellFormed_updateKind (operator : Operator)
    : (Word.ofKind operator.updateKind).WellFormed := by
  apply wellFormed_ofKind
  cases operator <;> decide

theorem Word.wellFormed_mark {kind : Kind}
    (mark
      : kind = .parenthesisOpen ∨ kind = .parenthesisClose ∨ kind = .bracketOpen
        ∨ kind = .bracketClose ∨ kind = .comma ∨ kind = .dot ∨ kind = .question ∨ kind = .colon)
    : (Word.ofKind kind).WellFormed := by
  apply wellFormed_ofKind
  rcases mark with rfl | rfl | rfl | rfl | rfl | rfl | rfl | rfl <;> decide

namespace Printed

/-- The words of a list are those of its values and marks. -/
theorem wellFormed_ofListTail {values : List Expr}
    (wellFormed : ∀ value ∈ values, ∀ word ∈ ofExpr value, word.WellFormed)
    : ∀ word ∈ ofListTail values, word.WellFormed := by
  induction values with
  | nil =>
      simp only [ofListTail, List.forall_mem_singleton]
      exact Word.wellFormed_mark (by simp)
  | cons value rest ih =>
      obtain ⟨first, others⟩ := List.forall_mem_cons.mp wellFormed
      simp only [ofListTail, List.forall_mem_cons, List.forall_mem_append]
      exact ⟨Word.wellFormed_mark (by simp), first, ih others⟩

/-- The words of arguments are those of their values and marks. -/
theorem wellFormed_ofArguments {arguments : Arguments}
    (wellFormed : ∀ value ∈ arguments.values, ∀ word ∈ ofExpr value, word.WellFormed)
    : ∀ word ∈ ofArguments arguments, word.WellFormed := by
  obtain ⟨span, values⟩ := arguments
  simp only [ofArguments, List.forall_mem_cons]
  refine ⟨Word.wellFormed_mark (by simp), ?_⟩
  cases values with
  | nil =>
      simp only [ofList, List.forall_mem_singleton]
      exact Word.wellFormed_mark (by simp)
  | cons value rest =>
      obtain ⟨first, others⟩ := List.forall_mem_cons.mp wellFormed
      simp only [ofList, List.forall_mem_append]
      exact ⟨first, wellFormed_ofListTail others⟩

/-- The words of the elements of an array are those of its values and marks. -/
theorem wellFormed_ofElements {elements : List Element}
    (wellFormed : ∀ value, .value value ∈ elements → ∀ word ∈ ofExpr value, word.WellFormed)
    : ∀ word ∈ ofElements elements, word.WellFormed := by
  induction elements with
  | nil => simp [ofElements]
  | cons element rest ih =>
      have others := ih fun value inside => wellFormed value (List.mem_cons_of_mem _ inside)
      have comma : (Word.ofKind .comma).WellFormed := Word.wellFormed_mark (by simp)
      cases element with
      | hole =>
          simp only [ofElements, List.forall_mem_cons]
          exact ⟨comma, others⟩
      | value value =>
          simp only [ofElements, List.forall_mem_cons, List.forall_mem_append]
          exact ⟨wellFormed value (List.mem_cons_self ..), comma, others⟩

/-- All words of a printable expression are well-formed. -/
theorem wellFormed_ofExpr (printable : value.Printable)
    : ∀ word ∈ ofExpr value, word.WellFormed := by
  have comma : (Word.ofKind .comma).WellFormed := Word.wellFormed_mark (by simp)
  induction printable with
  | identifier written =>
      simp only [ofExpr, List.forall_mem_singleton]
      exact Word.wellFormed_ofName written
  | this | null =>
      simp only [ofExpr, List.forall_mem_singleton]
      exact Word.wellFormed_ofKind (by decide)
  | @boolean _ value =>
      simp only [ofExpr, List.forall_mem_singleton]
      cases value <;> exact Word.wellFormed_ofKind (by decide)
  | parenthesized _ ih =>
      simp only [ofExpr, List.forall_mem_cons, List.forall_mem_append, List.not_mem_nil,
        false_imp_iff, implies_true, and_true]
      exact ⟨Word.wellFormed_mark (by simp), ih, Word.wellFormed_mark (by simp)⟩
  | array _ _ ih =>
      simp only [ofExpr, List.forall_mem_cons, List.forall_mem_append, List.not_mem_nil,
        false_imp_iff, implies_true, and_true]
      exact ⟨Word.wellFormed_mark (by simp), wellFormed_ofElements ih, Word.wellFormed_mark (by simp)⟩
  | member _ _ written ih =>
      simp only [ofExpr, List.forall_mem_cons, List.forall_mem_append, List.not_mem_nil,
        false_imp_iff, implies_true, and_true]
      exact ⟨ih, Word.wellFormed_mark (by simp), Word.wellFormed_ofName written⟩
  | index _ _ _ ih ihKey =>
      simp only [ofExpr, List.forall_mem_cons, List.forall_mem_append, List.not_mem_nil,
        false_imp_iff, implies_true, and_true]
      exact ⟨ih, Word.wellFormed_mark (by simp), ihKey, Word.wellFormed_mark (by simp)⟩
  | call _ _ _ _ ih ihValues =>
      simp only [ofExpr, List.forall_mem_append]
      exact ⟨ih, wellFormed_ofArguments ihValues⟩
  | construct _ _ _ _ ih ihValues =>
      simp only [ofExpr, List.forall_mem_cons, List.forall_mem_append]
      exact ⟨Word.wellFormed_ofKind (by decide), ih, wellFormed_ofArguments ihValues⟩
  | unary _ front _ _ ih =>
      simp only [ofExpr, List.forall_mem_cons]
      exact ⟨Word.wellFormed_prefixKind front, ih⟩
  | update _ _ _ ih =>
      simp only [ofExpr, List.forall_mem_append, List.forall_mem_singleton]
      exact ⟨ih, Word.wellFormed_updateKind _⟩
  | binary _ _ between _ ihLeft ihRight =>
      simp only [ofExpr, List.forall_mem_cons, List.forall_mem_append]
      exact ⟨ihLeft, Word.wellFormed_infixKind between, ihRight⟩
  | conditional _ _ _ _ ihTest ihConsequent ihAlternate =>
      simp only [ofExpr, List.forall_mem_cons, List.forall_mem_append]
      exact ⟨ihTest, Word.wellFormed_mark (by simp), ihConsequent, Word.wellFormed_mark (by simp),
        ihAlternate⟩

end Printed

/-- The text of the expression: its words with a space between them. -/
def Expr.print (value : Expr) : List Char :=
  Word.spaced (Printed.ofExpr value)

end EcmaSyntax
