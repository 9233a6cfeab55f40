import EcmaSyntax.Proofs.Grammar.Completeness.Program
import EcmaSyntax.Proofs.Printing.Reparsing

/-! Printing and parsing. The text of a printable expression is accepted in every dialect, both as an
expression and as a program, and gives the expression back up to the places of its nodes.
-/

namespace EcmaSyntax

open EcmaSyntax.Grammar

variable {script : Script} {value result : Expr} {tokens : List Token}

/-- An expression without a label, in front of the end of the input, is a statement. -/
theorem Grammar.statement_of_expression {words : List Word}
    (parses : Parses script (.phrase (.expression true 1 result)) 0 tokens)
    (spells : script.Spells 0 tokens words)
    (opens : ∃ word rest, words = word :: rest ∧ word.kind.opensPrinted)
    (noLabel : Word.NoLabel words) {last : Token}
    (read : script.Reads .standard (Token.endOf 0 tokens) last) (ends : last.kind = .endOfInput)
    : ∃ span,
        Parses script (.phrase (.statement true (.expression span result))) 0 tokens := by
  obtain ⟨word, rest, rfl, opens⟩ := opens
  obtain ⟨first, behind, rfl, readFirst, kind_eq, _, _, spelled⟩ := Script.spells_cons spells
  rw [← kind_eq] at opens
  have close : Parses script (.phrase .statementEnd) (Token.endOf 0 (first :: behind)) [] :=
    .intro (.statement (.statementEndImplied (by rw [ends]; decide) (by simp [endsStatement, ends])))
      (.ahead ⟨read, trivial⟩ .nil) rfl
  by_cases named : first.kind = .identifier
  · obtain ⟨second, readSecond, noColon⟩
        : ∃ second,
            script.Reads .standard first.span.stop second ∧ second.kind ≠ .colon := by
      cases rest with
      | nil =>
          obtain rfl := Script.spells_nil spelled
          exact ⟨last, read, by rw [ends]; decide⟩
      | cons next rest =>
          obtain ⟨second, _, rfl, readSecond, second_eq, _⟩ := Script.spells_cons spelled
          exact ⟨second, readSecond, second_eq ▸ noLabel _ _ _ rfl (kind_eq ▸ named)⟩
    exact ⟨_, .intro (.statement (.expressionNamed named noColon))
      (.ahead ⟨readFirst, readSecond, trivial⟩ (.part parses (.part close .nil)))
      (by simp [Item.tokensOf])⟩
  · have plain : opensStatement first.kind = false := by
      revert opens
      generalize first.kind = kind
      cases kind <;> decide
    exact ⟨_, .intro (.statement (.expression plain named))
      (.ahead ⟨readFirst, trivial⟩ (.part parses (.part close .nil)))
      (by simp [Item.tokensOf])⟩

/-- A single statement in front of the end of the input is a program. -/
theorem Script.holds_single {statement : Stmt} {first last : Token}
    (parses : Parses script (.phrase (.statement true statement)) 0 tokens)
    (readFirst : script.Reads .standard 0 first) (goesOn : first.kind ≠ .endOfInput)
    (read : script.Reads .standard (Token.endOf 0 tokens) last) (ends : last.kind = .endOfInput)
    : script.Holds [statement] tokens last where
  statements := by
    have none
        : Parses script (.repeated (goesUntil .endOfInput) []) (Token.endOf 0 tokens) [] :=
      .intro (.repetition (.repeatedNone (by simp [goesUntil, ends]))) (.ahead ⟨read, trivial⟩ .nil)
        rfl
    exact .intro (.repetition (.repeatedMore (by simp [goesUntil, goesOn])))
      (.ahead ⟨readFirst, trivial⟩ (.part parses (.part none .nil))) (by simp [Item.tokensOf])
  read := read
  ends := ends

/-- A printable expression is parsed back from its text in every dialect, up to the places of its nodes:
as an expression, which takes up the whole text, and as the only statement of a program.
-/
theorem Expr.parse_print (printable : value.Printable) (dialect : Dialect)
    : (∃ result after last state,
        withRules (fun rules => Grammar.expression rules true)
            (ParserState.ofSource value.print dialect)
          = .ok result after
        ∧ Placeless.ofExpr result = Placeless.ofExpr value
        ∧ Parser.peek .standard after = .ok last state
        ∧ last.kind = .endOfInput)
      ∧ ∃ program,
          Program.parse value.print dialect = .ok program
          ∧ Placeless.ofStmts program.body
            = [.expression .nowhere (Placeless.ofExpr value)] := by
  obtain ⟨script, source_eq, shows⟩
      : ∃ script : Script,
          script.source = value.print
          ∧ (ParserState.ofSource value.print dialect).Shows script [] :=
    ⟨_, rfl, ParserState.shows_ofSource value.print dialect⟩
  obtain ⟨tokens, spells, last, read, ends, _⟩ :=
    Script.spells_spaced (Printed.wellFormed_ofExpr printable) source_eq
  have stops : StopsOperators true 1 last :=
    stopsOperators_of_endsOperand (by rw [ends]; rfl)
  obtain ⟨result, alike, parses⟩ :=
    printable.reparses.expression (one_le_level value) (by decide) spells read stops
  constructor
  · obtain ⟨after, ran, shown⟩ := expression_complete shows parses
    obtain ⟨next, state, peeked, readNext, _⟩ := Parser.peek_shows shown .standard
    obtain rfl := readNext.unique read
    exact ⟨result, after, next, state, ran, alike, peeked, ends⟩
  · obtain ⟨span, statement⟩ := statement_of_expression parses spells (Printed.opens printable)
      (Printed.noLabel printable) read ends
    obtain ⟨word, rest, words_eq, opens⟩ := Printed.opens printable
    have holds : script.Holds [.expression span result] tokens last := by
      rw [words_eq] at spells
      obtain ⟨first, _, _, readFirst, kind_eq, _⟩ := Script.spells_cons spells
      have goesOn : first.kind ≠ .endOfInput := by
        intro ended
        rw [← kind_eq, ended] at opens
        cases opens
      exact Script.holds_single statement readFirst goesOn read ends
    obtain ⟨after, ran, _⟩ := program_complete shows holds
    refine ⟨_, Program.parse_eq_ok.mpr ⟨after, ran⟩, ?_⟩
    simp only [Placeless.ofStmts, Placeless.ofStmt]
    rw [alike]

/-- The assignment `a = new b . in ( ! this )`, without places. -/
def Expr.sampleAssignment : Expr :=
  .binary .nowhere .assignment (.identifier .nowhere "a")
    (.construct .nowhere (.member .nowhere (.identifier .nowhere "b") "in")
      {
        span := .nowhere
        values := [.unary .nowhere .logicalNot (.this .nowhere)]
      })

/-- The assignment with `new`, a reserved name of a property and parentheses is read back. -/
theorem Expr.parse_print_assignment
    : ∃ program,
        Program.parse "a = new b . in ( ! this )".toList .ecma = .ok program
        ∧ Placeless.ofStmts program.body
          = [.expression .nowhere (Placeless.ofExpr sampleAssignment)] := by
  have object : (identifier .nowhere "b").Printable :=
    .identifier ⟨'b', [], by decide, by decide, by simp⟩ (by decide)
  have constructor : (member .nowhere (identifier .nowhere "b") "in").Printable :=
    .member object (by decide) ⟨'i', ['n'], by decide, by decide, List.forall_mem_singleton.mpr (by decide)⟩
  have argument : (unary .nowhere .logicalNot (this .nowhere)).Printable :=
    .unary .this (by decide) (by decide) (by simp)
  have printable : sampleAssignment.Printable :=
    .binary (.identifier ⟨'a', [], by decide, by decide, by simp⟩ (by decide))
      (.construct constructor (by decide) (by simpa using argument) (by simp [level]))
      (by decide) (by decide)
  have printed : sampleAssignment.print = "a = new b . in ( ! this )".toList := by decide
  exact printed ▸ (parse_print printable .ecma).2

end EcmaSyntax
