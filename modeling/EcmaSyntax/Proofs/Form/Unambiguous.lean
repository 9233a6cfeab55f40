import EcmaSyntax.Proofs.Form.Leaves
import EcmaSyntax.Proofs.Grammar.Nesting
import EcmaSyntax.Proofs.Token.NumberLiterals

/-! The canonical form is unambiguous: programs with equal forms differ in places only. Forms are equal up
to the two zeros, but literals write no negative numbers.
-/

namespace EcmaSyntax

open EcmaSyntax.Form

-----------------------------------------------------------------------------------------
-- Equal forms without negative numbers
-----------------------------------------------------------------------------------------

namespace Form

mutual

/-- No number in the form is negative. -/
def Unsigned : Form → Prop
  | number value => value.isUnsigned
  | list items => AllUnsigned items
  | nil | atom _ | string _ => True

def AllUnsigned : List Form → Prop
  | [] => True
  | item :: items => item.Unsigned ∧ AllUnsigned items

end

end Form

/-- Equal numbers without sign are the same. -/
theorem Number.eq_of_equals {first second : Number} (equal : first.equals second)
    (left : first.isUnsigned) (right : second.isUnsigned)
    : first = second := by
  cases first with
  | nan =>
      cases second with
      | nan => rfl
      | signed => simp [equals, order?] at equal
  | signed negative magnitude =>
      cases second with
      | nan => simp [equals, order?] at equal
      | signed =>
          simp only [isUnsigned, Bool.not_eq_true'] at left right
          subst left right
          simp only [equals, order?, Bool.false_eq_true, if_false, beq_iff_eq, Option.some.injEq,
            Int.ofNat_inj] at equal
          rw [Fin.ext equal]

namespace Form

mutual

/-- Equal forms without negative numbers are the same, by recursion on the first one. -/
theorem eq_of_equals (first second : Form) (equal : first.equals second) (left : first.Unsigned)
    (right : second.Unsigned)
    : first = second := by
  cases first <;> cases second <;> first | cases equal; done | skip
  case nil => rfl
  case atom => simpa [equals] using equal
  case string => simpa [equals] using equal
  case number => exact congrArg number (Number.eq_of_equals equal left right)
  case list items others => exact congrArg list (eq_of_equalsItems items others equal left right)

theorem eq_of_equalsItems (items others : List Form) (equal : equalsItems items others)
    (left : AllUnsigned items) (right : AllUnsigned others)
    : items = others := by
  cases items <;> cases others
  case nil.nil => rfl
  case nil.cons => cases equal
  case cons.nil => cases equal
  case cons.cons item items other others =>
      rw [equalsItems, Bool.and_eq_true] at equal
      rw [eq_of_equals item other equal.1 left.1 right.1,
        eq_of_equalsItems items others equal.2 left.2 right.2]

end

-----------------------------------------------------------------------------------------
-- The numbers of a form
-----------------------------------------------------------------------------------------

/-- Anything but a negative number. -/
def IsUnsigned : Form → Prop
  | number value => value.isUnsigned
  | _ => True

mutual

/-- A form has no negative number if no leaf is one, by recursion on the form. -/
theorem unsigned_of_leaves (form : Form) (leaves : form.Leaves IsUnsigned) : form.Unsigned := by
  cases form with
  | list items => exact allUnsigned_of_leaves items leaves
  | nil | atom | string | number => exact leaves

theorem allUnsigned_of_leaves (items : List Form) (leaves : AllLeaves IsUnsigned items)
    : AllUnsigned items := by
  cases items with
  | nil => trivial
  | cons item items =>
      exact ⟨unsigned_of_leaves item leaves.1, allUnsigned_of_leaves items leaves.2⟩

end

/-- Tags and texts are no numbers. -/
theorem closed_isUnsigned : Closed IsUnsigned where
  nil := trivial
  string _ := trivial
  tag _ := trivial

/-- Statements that were parsed are written without negative numbers, as literals have no sign. -/
theorem unsigned_ofStmts (statements : List Stmt)
    (spelled : ∀ statement ∈ statements, (Node.statement statement).Each Expr.Spelled)
    : AllUnsigned (ofStmts statements) := by
  refine allUnsigned_of_leaves _ (leaves_ofStmts closed_isUnsigned statements ?_)
  intro statement member inner within
  cases inner with
  | expression value =>
      have spelled := spelled statement member value within
      cases value <;> first | exact spelled | trivial
  | declaration inner => exact fun _ _ => trivial
  | _ => trivial

end Form

-----------------------------------------------------------------------------------------
-- Trees that were parsed
-----------------------------------------------------------------------------------------

variable {script : Script} {offset : Nat} {tokens : List Token}

/-- A number literal denotes a number without sign. -/
theorem Script.isUnsigned_of_numberOf? {mode : LexMode} {token : Token} {value : Number}
    (read : script.Reads mode offset token) (isNumber : token.kind = .literalNumber)
    (denotes : script.numberOf? token = some value)
    : value.isUnsigned := by
  obtain ⟨magnitude, valued⟩ := read.exists_number isNumber
  rw [valued] at denotes
  cases denotes
  rfl

namespace Grammar

/-- Binary operators that tokens open have tags of their own. -/
theorem isTagged_of_infixOperator? {kind : Kind} {operator : Operator}
    (opens : kind.infixOperator? = some operator) (isBinary : operator.isBinary)
    : operator.isTagged := by
  cases kind <;> cases opens <;> first | rfl | cases isBinary

/-- Operators in front of an operand have tags of their own, apart from the updates. -/
theorem isTagged_of_prefixOperator? {kind : Kind} {operator : Operator}
    (opens : kind.prefixOperator? = some operator)
    : operator.isTagged ∨ operator = .prefixIncrement ∨ operator = .prefixDecrement := by
  cases kind <;> cases opens <;> simp [Operator.isTagged]

/-- An expression that parses is spelled as its form can tell. -/
theorem Chains.spelled {inAllowed : Bool} {value : Expr}
    (chains : Chains script inAllowed offset tokens value)
    : value.Spelled := by
  cases chains with
  | operand operand =>
      obtain ⟨items, rfl, rule, components⟩ := operand.expression_components rfl
      cases rule with
      | operandPrefixed opens => exact isTagged_of_prefixOperator? opens
      | operandPlain =>
          obtain ⟨items, rfl, rule, inner⟩ := components.1.expression_components rfl
          cases rule with
          | number opens denotes => exact Script.isUnsigned_of_numberOf? inner.1 opens denotes
          | _ => trivial
  | update _ _ updates => exact eq_postfix_of_updateOperator? updates
  | more _ _ _ _ continuation =>
      obtain ⟨items, rfl, rule, components⟩ := continuation.expression_components rfl
      cases rule with
      | continuationCall | continuationConditional => trivial
      | continuationBinary opens isBinary => exact isTagged_of_infixOperator? opens isBinary
      | continuationAccess =>
          obtain ⟨items, rfl, rule, components⟩ := components.1.expression_components rfl
          cases rule <;> trivial

end Grammar

namespace Program

variable {source other : List Char} {dialect otherDialect : Dialect} {first second : Program}

/-- In a parsed program every operator stands where operators of its kind do, and no number has a sign. -/
theorem spelled_of_parse (parsed : parse source dialect = .ok first)
    : (Node.program first).Each Expr.Spelled := by
  intro value within
  cases located_of_parse parsed within with
  | parsed derived =>
      cases derived with
      | expression chains => exact chains.spelled

/-- The canonical form is unambiguous: programs that are parsed from any texts, in any dialects, and have
equal forms are the same but for the places of their nodes.
-/
theorem placeless_eq_of_equals (parsed : parse source dialect = .ok first)
    (otherParsed : parse other otherDialect = .ok second)
    (equal : (Form.ofProgram first).equals (Form.ofProgram second))
    : Placeless.ofStmts first.body = Placeless.ofStmts second.body := by
  have spelled := fun statement (member : statement ∈ first.body) =>
    (spelled_of_parse parsed).child (List.mem_map_of_mem (f := Node.statement) member)
  have otherSpelled := fun statement (member : statement ∈ second.body) =>
    (spelled_of_parse otherParsed).child (List.mem_map_of_mem (f := Node.statement) member)
  have same : ofStmts first.body = ofStmts second.body :=
    eq_of_equalsItems _ _ equal (unsigned_ofStmts _ spelled) (unsigned_ofStmts _ otherSpelled)
  have read := toStmts?_ofStmts first.body spelled
  rw [same, toStmts?_ofStmts second.body otherSpelled] at read
  exact (Option.some.inj read).symm

/-- Layout, semicolons and the spelling of numbers leave no trace in the form. -/
theorem placeless_eq_of_equals_loop
    : ∃ first second,
        parse "for (var i = 16 in a) f(new b)".toList .ecma = .ok first
        ∧ parse "for(var i=0x10 in a)\nf(new b());".toList .js = .ok second
        ∧ (Form.ofProgram first).equals (Form.ofProgram second)
        ∧ Placeless.ofStmts first.body = Placeless.ofStmts second.body := by
  have compared
      : (parse "for (var i = 16 in a) f(new b)".toList .ecma).toOption.bind
            (fun first =>
              (parse "for(var i=0x10 in a)\nf(new b());".toList .js).toOption.map
                fun second => (Form.ofProgram first).equals (Form.ofProgram second))
          = some true := by
    decide +kernel
  cases parsed : parse "for (var i = 16 in a) f(new b)".toList .ecma with
  | error failure =>
      rw [parsed] at compared
      cases compared
  | ok first =>
      rw [parsed] at compared
      cases otherParsed : parse "for(var i=0x10 in a)\nf(new b());".toList .js with
      | error failure =>
          rw [otherParsed] at compared
          cases compared
      | ok second =>
          rw [otherParsed] at compared
          have equal := Option.some.inj compared
          exact ⟨first, second, rfl, rfl, equal, placeless_eq_of_equals parsed otherParsed equal⟩

end Program

end EcmaSyntax
