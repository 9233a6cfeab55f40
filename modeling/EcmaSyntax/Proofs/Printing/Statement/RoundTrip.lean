import EcmaSyntax.Proofs.Grammar.Consumed
import EcmaSyntax.Proofs.Printing.Statement.Reparsing

/-! Printing and parsing programs. The text of printable statements is accepted, and gives the statements
back up to the places of their nodes, if every declaration declares something. A declaration of nothing
has a text too, which is no program.
-/

namespace EcmaSyntax

open EcmaSyntax.Grammar

namespace Program

variable {script : Script} {program : Program}

/-- The text of a complete program holds statements that differ from the program in places only. -/
theorem holds_of_print (isJs : script.dialect = .js) (source_eq : script.source = program.print)
    (complete : (Node.program program).Everywhere Node.Complete)
    : ∃ statements tokens last,
        script.Holds statements tokens last
        ∧ Placeless.ofStmts statements = Placeless.ofStmts program.body := by
  have printable : (Node.program program).Everywhere Node.Printable :=
    complete.mono fun _ complete => complete.1
  have completeBody : Stmt.AllComplete program.body :=
    fun _ listed => complete.child (List.mem_map_of_mem listed)
  obtain ⟨tokens, spells, last, read, ends, _⟩ :=
    Script.spells_spaced (Node.allWellFormed (.program program) printable) source_eq
  have goesOn (kind : Kind) (opens : kind.opensPrintedStatement)
      : goesUntil .endOfInput kind = true :=
    goesUntil_of_opens (by decide) opens
  obtain ⟨statements, alike, parses⟩ :=
    reparses_statements completeBody
      (fun _ listed => Node.reparses isJs (.statement _) (completeBody _ listed)) goesOn spells read
      (by simp [goesUntil, ends]) (by simp [ends]) (by simp [ends])
  exact ⟨statements, tokens, last, ⟨parses, read, ends⟩, alike⟩

/-- A program of printable statements is parsed back from its text, up to the places of its nodes, if
every declaration in it declares something.
-/
theorem parse_of_print (printable : (Node.program program).Everywhere Node.Printable)
    (declares : (Node.program program).Everywhere Node.Declares)
    : ∃ result,
        parse program.print .js = .ok result
        ∧ Placeless.ofStmts result.body = Placeless.ofStmts program.body := by
  have complete : (Node.program program).Everywhere Node.Complete :=
    fun node within => ⟨printable node within, declares node within⟩
  obtain ⟨statements, _, _, holds, alike⟩ :=
    @holds_of_print { source := program.print, dialect := .js } program rfl rfl complete
  exact ⟨_, parse_of_holds holds, alike⟩

/-- The program `for ( var a in b ) if ( a ) ; else c : break c ;`, without places. -/
def sampleLoop : Program :=
  {
    span := .nowhere
    body := [
      .forIn .nowhere
        (.declaration
          {
            span := .nowhere
            mode := .vars
            declarators := [{ name := "a", initializer := none }]
          })
        (.identifier .nowhere "b")
        (.ifElse .nowhere (.identifier .nowhere "a") (.empty .nowhere)
          (some (.labelled .nowhere "c" (.breakTo .nowhere (some "c")))))
    ]
  }

/-- The loop over properties around an `if` is read back. -/
theorem parse_of_print_loop
    : ∃ result,
        parse "for ( var a in b ) if ( a ) ; else c : break c ;".toList .js = .ok result
        ∧ Placeless.ofStmts result.body = Placeless.ofStmts sampleLoop.body := by
  have a : IsFreeName "a" := ⟨⟨'a', [], by decide, by decide, by simp⟩, by decide⟩
  have b : IsFreeName "b" := ⟨⟨'b', [], by decide, by decide, by simp⟩, by decide⟩
  have c : IsFreeName "c" := ⟨⟨'c', [], by decide, by decide, by simp⟩, by decide⟩
  have leaf {node : Node} (none : node.children = []) (printable : node.Printable)
      (declares : node.Declares)
      : node.Everywhere Node.Complete :=
    .intro ⟨printable, declares⟩ (by simp [none])
  have named {name : String} (isFree : IsFreeName name)
      : (Node.expression (.identifier .nowhere name)).Everywhere Node.Complete :=
    leaf rfl ⟨List.forall_mem_singleton.mpr isFree, _, _, rfl⟩ trivial
  have empty : (Node.statement (.empty .nowhere)).Everywhere Node.Complete :=
    leaf rfl ⟨by simp [Node.names, Stmt.names], trivial⟩ trivial
  have jump : (Node.statement (.breakTo .nowhere (some "c"))).Everywhere Node.Complete :=
    leaf rfl ⟨List.forall_mem_singleton.mpr c, trivial⟩ trivial
  have label
      : (Node.statement (.labelled .nowhere "c" (.breakTo .nowhere (some "c")))).Everywhere
          Node.Complete :=
    .intro ⟨⟨List.forall_mem_singleton.mpr c, trivial⟩, trivial⟩
      (List.forall_mem_singleton.mpr jump)
  have choice
      : (Node.statement
            (.ifElse .nowhere (.identifier .nowhere "a") (.empty .nowhere)
              (some (.labelled .nowhere "c" (.breakTo .nowhere (some "c")))))).Everywhere
          Node.Complete :=
    .intro ⟨⟨by simp [Node.names, Stmt.names], rfl⟩, trivial⟩
      (by simpa [Node.children, Stmt.children] using ⟨named a, empty, label⟩)
  have target
      : (Node.declaration
            {
              span := .nowhere
              mode := .vars
              declarators := [{ name := "a", initializer := none }]
            }).Everywhere
          Node.Complete :=
    leaf rfl ⟨List.forall_mem_singleton.mpr a, trivial⟩ (by simp [Node.Declares])
  have loop : ∀ statement ∈ sampleLoop.body, (Node.statement statement).Everywhere Node.Complete :=
    List.forall_mem_singleton.mpr
      (.intro ⟨⟨by simp [Node.names, Stmt.names], rfl⟩, trivial⟩
        (by simpa [Node.children, Stmt.children, ForInTarget.children]
          using ⟨target, named b, choice⟩))
  have complete : (Node.program sampleLoop).Everywhere Node.Complete :=
    .intro ⟨⟨by simp [Node.names], trivial⟩, trivial⟩ (List.forall_mem_map.mpr loop)
  have printed : sampleLoop.print = "for ( var a in b ) if ( a ) ; else c : break c ;".toList := by
    decide
  rw [← printed]
  exact parse_of_print (complete.mono fun _ complete => complete.1)
    (complete.mono fun _ complete => complete.2)

/-- The program `var ;`, without places: a declaration of nothing. -/
def emptyDeclaration : Program :=
  {
    span := .nowhere
    body := [.declaration { span := .nowhere, mode := .vars, declarators := [] }]
  }

/-- A declaration of nothing is not parsed back. -/
theorem emptyDeclaration_not_parsed
    : (Node.program emptyDeclaration).Everywhere Node.Printable
      ∧ emptyDeclaration.print = "var ;".toList
      ∧ ∀ result, parse emptyDeclaration.print .js ≠ .ok result := by
  refine ⟨?_, by decide, ?_⟩
  · have declaration
        : (Node.declaration { span := .nowhere, mode := .vars, declarators := [] }).Everywhere
            Node.Printable :=
      .intro ⟨by simp [Node.names], trivial⟩ (by simp [Node.children])
    have statement : ∀ statement ∈ emptyDeclaration.body,
        (Node.statement statement).Everywhere Node.Printable :=
      List.forall_mem_singleton.mpr
        (.intro ⟨by simp [Node.names, Stmt.names], trivial⟩
          (List.forall_mem_singleton.mpr declaration))
    exact .intro ⟨by simp [Node.names], trivial⟩ (List.forall_mem_map.mpr statement)
  · intro result parsed
    have rejected : (parse emptyDeclaration.print .js).toOption = none := by decide +kernel
    rw [parsed] at rejected
    cases rejected

end Program

end EcmaSyntax
