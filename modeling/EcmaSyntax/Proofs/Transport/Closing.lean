import EcmaSyntax.Proofs.Transport.Enclosing
import EcmaSyntax.Proofs.Transport.Sealing

/-! The ways in which statements end agree. What ends at the end of the input ends in front of a closing brace,
and in front of a semicolon, which is taken up where one has been missing and is an empty statement
otherwise.
-/

namespace EcmaSyntax

open EcmaSyntax.Grammar

variable {script other : Script} {relocation : Relocation} {mark : Token} {offset : Nat}
variable {tokens : List Token} {statements : List Stmt}

/-- The forms of statements in two parts are those of the parts. -/
theorem Form.ofStmts_append (front back : List Stmt)
    : Form.ofStmts (front ++ back) = Form.ofStmts front ++ Form.ofStmts back := by
  induction front with
  | nil => rfl
  | cons statement front ih => simp [Form.ofStmts, ih]

/-- The last of the statements, or the one at its very end, is one that a semicolon ends, and none does. -/
def Stmt.endOpen (statements : List Stmt) (tokens : List Token) : Bool :=
  statements.getLast?.any Stmt.needsMark && !Token.endsInMark tokens

/-- A semicolon alone is an empty statement. -/
theorem Script.MarkedAt.row (marked : script.MarkedAt offset mark)
    : script.Row offset [mark] [.empty mark.span] :=
  .single (.of_rule (.statement (.empty marked.isMark)) (.token marked.read .nil))

/-- Statements in a row in front of a semicolon can be had in the other text. The semicolon is part of the last
statement if that is open, and a statement of its own otherwise.
-/
theorem Script.Row.sealed (row : script.Row offset tokens statements)
    (dialect_eq : other.dialect = script.dialect)
    (carries : relocation.Carries script other false offset tokens)
    (marked : other.MarkedAt (relocation.stop (Token.endOf offset tokens)) mark)
    : ∃ results,
        other.Row (relocation.stop offset) (tokens.map relocation.token ++ [mark]) results
        ∧ Form.ofStmts results
          = Form.ofStmts statements
            ++ if Stmt.endOpen statements tokens then [] else [Form.tagged "empty" []] := by
  have consumes := row.consumes
  rcases List.eq_nil_or_concat' statements with rfl | ⟨front, last, rfl⟩
  · cases row
    exact ⟨_, marked.row, rfl⟩
  · obtain ⟨before, after, rfl, inFront, derivation⟩ := row.exists_last
    have some_tokens := derivation.ne_nil rfl
    have behind := carries.later
    have follows
        : relocation.Follows script other Kind.endsBlock (Token.endOf offset before) := by
      obtain ⟨token, rest, rfl⟩ := List.exists_cons_of_ne_nil some_tokens
      exact behind.1.shows.follows
    have first := inFront.moved dialect_eq carries.left follows
    have markedLast := marked
    rw [Token.endOf_append] at markedLast
    obtain ⟨result, same, parsed⟩ := derivation.seals dialect_eq behind markedLast
    rw [← Relocation.endOf_map inFront.consumes] at parsed
    have whole := first.append (.single parsed)
    have forms
        : Form.ofStmts (Moved.ofStmts relocation.span front ++ [result])
          = Form.ofStmts (front ++ [last]) := by
      simp [Form.ofStmts_append, Form.ofStmts_moved, Form.ofStmts, same]
    have is_open
        : Stmt.endOpen (front ++ [last]) (before ++ after)
          = (last.needsMark && !Token.endsInMark after) := by
      simp [Stmt.endOpen, Token.endsInMark_append some_tokens]
    rw [Token.due, ← is_open, ← List.append_assoc, ← List.map_append] at whole
    split_ifs at whole ⊢
    · rw [List.append_nil, ← forms]
      exact ⟨_, whole, rfl⟩
    · rw [← Relocation.endOf_map consumes] at marked
      rw [List.append_nil] at whole
      refine ⟨_, whole.append marked.row, ?_⟩
      rw [Form.ofStmts_append, forms, Form.ofStmts, Form.ofStmts, Form.ofStmt]

namespace Program

variable {source : List Char} {dialect : Dialect} {program : Program}

/-- In front of a semicolon on a new line, a program is the same if its end is open, and goes on with an empty
statement otherwise.
-/
theorem exists_sealed (parsed : parse source dialect = .ok program)
    : ∃ other,
        parse (source ++ ['\n', ';']) dialect = .ok other
        ∧ Form.ofStmts other.body
          = Form.ofStmts program.body
            ++ if Stmt.endOpen program.body (Program.tokens source dialect) then []
              else [Form.tagged "empty" []] := by
  let other : Script := { source := source ++ ['\n', ';'], dialect }
  have whole : other.source = [] ++ (source ++ ['\n', ';']) := rfl
  obtain ⟨⟨last, holds⟩, _⟩ := holds_of_parse parsed
  have consumes := holds.statements.consumes
  obtain ⟨mark, final, read, isMark, readFinal, ends⟩ :=
    Relocation.exists_reads_mark whole holds.read holds.ends (fun _ => rfl) rfl
  have carries := Relocation.carries_shift whole consumes holds.statements.valid
  have marked : other.MarkedAt _ mark := ⟨read, isMark, final, readFinal, ends⟩
  obtain ⟨results, row, same⟩ := holds.statements.row.sealed (by rfl) carries marked
  have begins : (Relocation.shift (Text.size [])).stop 0 = 0 := rfl
  rw [begins] at row
  exact ⟨_, parse_of_holds (row.holds (by simpa using readFinal) ends), same⟩

/-- The ways in which statements end agree. A program that is accepted is accepted in the braces of a block and
in those of a function, on a line of which the closing brace is the first token, and has the same forms
there. In front of a semicolon on a new line its forms are the same if the last statement, or the one at
its very end, has been ended by the end of the input; otherwise an empty statement follows.
-/
theorem endings_agree_of_parse (parsed : parse source dialect = .ok program)
    : (∃ other,
        parse ('\x7b' :: (source ++ ['\n', '\x7d'])) dialect = .ok other
        ∧ Form.ofStmts other.body
            = [Form.tagged "block" [Form.list (Form.ofStmts program.body)]])
      ∧ (∃ other,
          parse ("function f()\x7b".toList ++ (source ++ ['\n', '\x7d'])) dialect = .ok other
          ∧ Form.ofStmts other.body
              = [
                  Form.tagged "func_decl"
                    [
                      Form.string "f",
                      Form.list [],
                      Form.tagged "func_body" [Form.bodyContent (Form.ofStmts program.body)]
                    ]
                ])
      ∧ ∃ other,
          parse (source ++ ['\n', ';']) dialect = .ok other
          ∧ Form.ofStmts other.body
              = if Stmt.endOpen program.body (Program.tokens source dialect) then
                  Form.ofStmts program.body
                else
                  Form.ofStmts program.body ++ [Form.tagged "empty" []] := by
  obtain ⟨other, parsedOther, same⟩ := exists_sealed parsed
  refine ⟨exists_block parsed, exists_function parsed, other, parsedOther, ?_⟩
  rw [same]
  split_ifs
  · exact List.append_nil _
  · rfl

/-- An `if` at the end of the input ends in front of a brace, and of a semicolon. -/
theorem endings_agree_of_parse_if
    : ∃ program,
        parse "if (a) b".toList .ecma = .ok program
        ∧ (∃ other,
            parse "\x7bif (a) b\n\x7d".toList .ecma = .ok other
            ∧ Form.ofStmts other.body
                = [Form.tagged "block" [Form.list (Form.ofStmts program.body)]])
        ∧ ∃ other,
            parse "if (a) b\n;".toList .ecma = .ok other
            ∧ Form.ofStmts other.body = Form.ofStmts program.body := by
  have opened
      : (parse "if (a) b".toList .ecma).toOption.map
            (fun program => Stmt.endOpen program.body (Program.tokens "if (a) b".toList .ecma))
          = some true := by
    decide +kernel
  cases parsed : parse "if (a) b".toList .ecma with
  | error failure =>
      rw [parsed] at opened
      cases opened
  | ok program =>
      rw [parsed] at opened
      obtain ⟨block, _, other, parsedOther, same⟩ := endings_agree_of_parse parsed
      rw [if_pos (Option.some.inj opened)] at same
      exact ⟨program, rfl, block, other, parsedOther, same⟩

end Program

end EcmaSyntax
