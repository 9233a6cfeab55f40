import EcmaSyntax.Proofs.Form.Moved
import EcmaSyntax.Proofs.Grammar.Consumed
import EcmaSyntax.Proofs.Grammar.Rows
import EcmaSyntax.Proofs.Transport.Carrying

/-! The statements of a program inside of something else. They stand behind another text and in front of a new
line with a mark on it; in front of a closing brace they parse as they did in front of the end of the
input.
-/

namespace EcmaSyntax

open EcmaSyntax.Grammar

variable {script other : Script} {offset : Nat} {tokens : List Token} {statements : List Stmt}

-----------------------------------------------------------------------------------------
-- Texts around a program
-----------------------------------------------------------------------------------------

/-- A token is read where its text stands behind trivia. -/
theorem Script.exists_reads (mode : LexMode) {kind : Kind} {front gap text rest : List Char}
    (source_eq : script.source = front ++ (gap ++ (text ++ rest))) {newline : Bool}
    (skipped : Trivia.skip .gap false (gap ++ (text ++ rest)) = .ended newline (text ++ rest))
    (scanned : Scan.token mode (text ++ rest) = .found kind rest)
    : ∃ token,
        script.Reads mode (Text.size front) token
        ∧ token.kind = kind
        ∧ token.span.stop = Text.size (front ++ (gap ++ text))
        ∧ script.textOf token.span = text := by
  have read := Token.read?_of_scan front skipped scanned
  rw [← source_eq] at read
  refine ⟨_, read, rfl, by simp [Nat.add_assoc], ?_⟩
  rw [Script.textOf, Text.slice?_eq_some.mpr, Option.getD_some]
  exact ⟨front ++ gap, rest, by simp [source_eq], by simp, rfl⟩

namespace Relocation

/-- What covers two spans is shifted with them. -/
theorem cover_shift (distance : Nat) (first second : Span)
    : Span.shift distance (first.cover second)
      = (Span.shift distance first).cover (Span.shift distance second) := by
  simp only [Span.shift, Span.cover, Span.mk.injEq]
  omega

/-- The whole text stands further on. -/
def shift (distance : Nat) : Relocation where
  span := Span.shift distance
  stop offset := offset + distance
  newline token := token.afterNewline
  stop_span _ _ := rfl
  span_cover first second _ _ := cover_shift distance first second
  span_point _ _ := rfl

section Shift

variable {before after : List Char} {token : Token}

/-- Inside of another text, in front of a new line, a token lies at its distance. -/
theorem placesWithin_shift (other_eq : other.source = before ++ (script.source ++ '\n' :: after))
    : (shift (Text.size before)).PlacesWithin script other offset token := by
  intro mode next front gap text rest stands size_eq _ _
  have starts := stands.lies.start_eq
  have stops := stands.lies.stop_eq
  have follows : Text.MayFollow rest (rest ++ '\n' :: after) := by
    cases rest with
    | nil =>
        refine .inl ?_
        rintro c tail same
        obtain rfl := (List.cons.inj same).1
        decide
    | cons c rest => exact .inr rfl
  refine ⟨before ++ front, gap, rest ++ '\n' :: after, ?_, stands.skip_eq follows, follows, ?_, ?_⟩
  · simp [other_eq, stands.lies.source_eq]
  · simp only [shift, Text.size_append, size_eq]
    omega
  · simp only [shift, Span.shift, starts, stops, Text.size_append, Span.mk.injEq]
    omega

/-- All tokens are carried over to a text in which a new line follows. -/
theorem carries_shift (other_eq : other.source = before ++ (script.source ++ '\n' :: after))
    (consumes : script.Consumes offset tokens) (valid : ∀ token ∈ tokens, token.kind ≠ .invalid)
    : (shift (Text.size before)).Carries script other false offset tokens := by
  refine carries_of fun front token back row => ?_
  rw [row] at consumes
  obtain ⟨_, read, present, _⟩ := Script.consumes_append.mp consumes
  exact PlacesWithin.carriesToken (placesWithin_shift other_eq) read present
    (valid token (by simp [row])) fun _ _ _ => rfl

/-- Where the input ended, the mark on the new line is read, and behind it the input ends. -/
theorem exists_reads_mark {last : Token} {character : Char} {kind : Kind}
    (other_eq : other.source = before ++ (script.source ++ ['\n', character]))
    (read : script.Reads .standard offset last) (ends : last.kind = .endOfInput)
    (stops : Trivia.Stops [character])
    (scanned : Scan.token .standard [character] = .found kind [])
    : ∃ mark final,
        other.Reads .standard ((shift (Text.size before)).stop offset) mark
        ∧ mark.kind = kind
        ∧ other.Reads .standard mark.span.stop final
        ∧ final.kind = .endOfInput := by
  obtain ⟨front, gap, rfl, source_eq, skipped⟩ := read.gap_of_ends ends
  have split : other.source = (before ++ front) ++ ((gap ++ ['\n']) ++ ([character] ++ [])) := by
    simp [other_eq, source_eq]
  have passed
      : Trivia.skip .gap false ((gap ++ ['\n']) ++ ([character] ++ []))
          = .ended true ([character] ++ []) := by
    have onto := Trivia.skip_onto_line skipped [] [character]
    rw [stops] at onto
    simpa [TriviaPlace.keeping] using onto
  obtain ⟨mark, readMark, kind_eq, stop_eq, _⟩ := Script.exists_reads .standard split passed scanned
  have whole : other.source = (before ++ front ++ (gap ++ ['\n'] ++ [character])) ++ [] := by
    simp [other_eq, source_eq]
  obtain ⟨final, readFinal, endsFinal, _⟩ := Script.exists_reads_end .standard whole rfl
  refine ⟨mark, final, ?_, kind_eq, stop_eq ▸ readFinal, endsFinal⟩
  rw [Text.size_append, Nat.add_comm] at readMark
  exact readMark

end Shift

end Relocation

/-- Statements in a row can be had in the other text where their tokens are carried over. -/
theorem Script.Row.moved {relocation : Relocation} {ignoresLine : Bool}
    (row : script.Row offset tokens statements) (dialect_eq : other.dialect = script.dialect)
    (carries : relocation.Carries script other ignoresLine offset tokens)
    (follows : relocation.Follows script other Kind.endsBlock (Token.endOf offset tokens))
    : other.Row (relocation.stop offset) (tokens.map relocation.token)
        (Moved.ofStmts relocation.span statements) := by
  induction row generalizing ignoresLine with
  | nil => exact .nil
  | @cons offset front back statement statements first rest ih =>
      have behind := carries.right fun _ => first.ne_nil rfl
      rw [Token.endOf_append] at follows
      have between
          : relocation.Follows script other Kind.endsBlock (Token.endOf offset front) := by
        cases back with
        | nil => exact follows
        | cons => exact behind.1.shows.follows
      have there := first.moves dialect_eq ignoresLine (fun _ => rfl) carries.left between trivial
      have further := ih behind follows
      rw [← Relocation.endOf_map first.consumes] at further
      rw [List.map_append]
      exact .cons there further

-----------------------------------------------------------------------------------------
-- Programs in braces
-----------------------------------------------------------------------------------------

namespace Program

variable {source before : List Char} {dialect : Dialect} {program : Program}

/-- Behind an opening brace the statements of a program parse up to the closing one. -/
theorem exists_enclosed (parsed : parse source dialect = .ok program)
    (dialect_eq : other.dialect = dialect)
    (other_eq : other.source = before ++ (source ++ ['\n', '\x7d']))
    : ∃ statements tokens close last,
        Form.ofStmts statements = Form.ofStmts program.body
        ∧ Parses other (.repeated (goesUntil .braceClose) (statements.map (.statement true)))
            (Text.size before) tokens
        ∧ other.Reads .standard (Token.endOf (Text.size before) tokens) close
        ∧ close.kind = .braceClose
        ∧ other.Reads .standard close.span.stop last
        ∧ last.kind = .endOfInput := by
  obtain ⟨⟨last, holds⟩, _⟩ := holds_of_parse parsed
  have consumes := holds.statements.consumes
  obtain ⟨close, final, read, closes, readFinal, ends⟩ :=
    Relocation.exists_reads_mark other_eq holds.read holds.ends (fun _ => rfl) rfl
  have carries := Relocation.carries_shift other_eq consumes holds.statements.valid
  have moved := holds.statements.row.moved dialect_eq carries fun _ _ =>
    ⟨close, read, .inr (by rw [closes]; rfl)⟩
  have begins : (Relocation.shift (Text.size before)).stop 0 = Text.size before := Nat.zero_add _
  rw [← Relocation.endOf_map consumes] at read
  rw [begins] at moved read
  have inner := moved.parses read closes (.inl rfl)
  exact ⟨_, _, close, final, Form.ofStmts_moved _ _, inner, read, closes, readFinal, ends⟩

/-- In braces, a program is a block. -/
theorem exists_block (parsed : parse source dialect = .ok program)
    : ∃ other,
        parse ('\x7b' :: (source ++ ['\n', '\x7d'])) dialect = .ok other
        ∧ Form.ofStmts other.body
            = [Form.tagged "block" [Form.list (Form.ofStmts program.body)]] := by
  let other : Script := { source := '\x7b' :: (source ++ ['\n', '\x7d']), dialect }
  have whole : other.source = ['\x7b'] ++ (source ++ ['\n', '\x7d']) := rfl
  obtain ⟨statements, tokens, close, last, same, inner, readClose, closes, read, ends⟩ :=
    exists_enclosed parsed (by rfl) whole
  have begins : other.source = [] ++ ([] ++ (['\x7b'] ++ (source ++ ['\n', '\x7d']))) := rfl
  obtain ⟨brace, readBrace, opens, stop_eq, _⟩ :=
    Script.exists_reads .standard begins rfl rfl
  rw [List.nil_append, List.nil_append] at stop_eq
  rw [← stop_eq] at inner readClose
  have block := Parses.of_rule (.statement (.blockOf opens closes))
    (.token readBrace (.part inner (.token readClose .nil)))
  have row := Script.Row.single (.of_rule (.statement .block) (.part block .nil))
  have holds := row.holds (by simpa [Item.tokensOf] using read) ends
  refine ⟨_, parse_of_holds holds, ?_⟩
  simp [Form.ofStmts, Form.ofStmt, Form.ofBlock, same]

/-- The header of a function without parameters, up to the opening brace. -/
theorem exists_header {inside : List Char}
    (source_eq : other.source = "function f()\x7b".toList ++ inside)
    : ∃ keyword name opening closing brace,
        other.Reads .standard 0 keyword
        ∧ keyword.kind = .keywordFunction
        ∧ other.Reads .standard keyword.span.stop name
        ∧ name.kind = .identifier
        ∧ other.nameOf name = "f"
        ∧ other.Reads .standard name.span.stop opening
        ∧ opening.kind = .parenthesisOpen
        ∧ other.Reads .standard opening.span.stop closing
        ∧ closing.kind = .parenthesisClose
        ∧ other.Reads .standard closing.span.stop brace
        ∧ brace.kind = .braceOpen
        ∧ brace.span.stop = Text.size "function f()\x7b".toList := by
  have atKeyword
      : other.source = [] ++ ([] ++ ("function".toList ++ (" f()\x7b".toList ++ inside))) :=
    source_eq
  have atName
      : other.source = "function".toList ++ ([' '] ++ (['f'] ++ ("()\x7b".toList ++ inside))) :=
    source_eq
  have atOpening
      : other.source = "function f".toList ++ ([] ++ (['('] ++ (")\x7b".toList ++ inside))) :=
    source_eq
  have atClosing : other.source = "function f(".toList ++ ([] ++ ([')'] ++ ('\x7b' :: inside))) :=
    source_eq
  have atBrace : other.source = "function f()".toList ++ ([] ++ (['\x7b'] ++ inside)) := source_eq
  obtain ⟨keyword, readKeyword, isFunction, stopKeyword, _⟩ :=
    Script.exists_reads .standard atKeyword rfl rfl
  obtain ⟨name, readName, isName, stopName, text_eq⟩ :=
    Script.exists_reads .standard atName rfl rfl
  obtain ⟨opening, readOpening, isOpening, stopOpening, _⟩ :=
    Script.exists_reads .standard atOpening rfl rfl
  obtain ⟨closing, readClosing, isClosing, stopClosing, _⟩ :=
    Script.exists_reads .standard atClosing rfl rfl
  obtain ⟨brace, readBrace, isBrace, stopBrace, _⟩ :=
    Script.exists_reads .standard atBrace rfl rfl
  refine ⟨keyword, name, opening, closing, brace, readKeyword, isFunction, ?_, isName, ?_, ?_,
    isOpening, ?_, isClosing, ?_, isBrace, stopBrace⟩
  · rw [stopKeyword]
    exact readName
  · rw [Script.nameOf, text_eq]
    decide
  · rw [stopName]
    exact readOpening
  · rw [stopOpening]
    exact readClosing
  · rw [stopClosing]
    exact readBrace

/-- In the braces of a function, a program is its body. -/
theorem exists_function (parsed : parse source dialect = .ok program)
    : ∃ other,
        parse ("function f()\x7b".toList ++ (source ++ ['\n', '\x7d'])) dialect = .ok other
        ∧ Form.ofStmts other.body
            = [
                Form.tagged "func_decl"
                  [
                    Form.string "f",
                    Form.list [],
                    Form.tagged "func_body" [Form.bodyContent (Form.ofStmts program.body)]
                  ]
              ] := by
  let inside := source ++ ['\n', '\x7d']
  let other : Script := { source := "function f()\x7b".toList ++ inside, dialect }
  have whole : other.source = "function f()\x7b".toList ++ inside := rfl
  obtain ⟨statements, tokens, close, last, same, inner, readClose, closes, read, ends⟩ :=
    exists_enclosed parsed (by rfl) whole
  obtain ⟨keyword, name, opening, closing, brace, readKeyword, isFunction, readName, isName, name_eq,
    readOpening, isOpening, readClosing, isClosing, readBrace, isBrace, stop_eq⟩ :=
    exists_header whole
  rw [← stop_eq] at inner readClose
  have parameters
      : Parses other (.list .parenthesisClose ([].map .parameter)) opening.span.stop [closing] :=
    .of_rule (.repetition (.listNone isClosing rfl)) (.token readClosing .nil)
  have body := Parses.of_rule (.expression (.body isBrace closes))
    (.token readBrace (.part inner (.token readClose .nil)))
  have function := Parses.of_rule (.expression (.function isOpening))
    (.token readOpening (.part parameters (.part body .nil)))
  have row := Script.Row.single (.of_rule (.statement (.function isFunction isName))
    (.token readKeyword (.token readName (.part function .nil))))
  have holds := row.holds (by simpa [Item.tokensOf] using read) ends
  refine ⟨_, parse_of_holds holds, ?_⟩
  simp [Form.ofStmts, Form.ofStmt, Form.ofFunc, Form.ofBody, Form.parameters, same, name_eq]

end Program

end EcmaSyntax
