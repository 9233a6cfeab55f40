import EcmaSyntax.Proofs.Transport.Closing
import EcmaSyntax.Proofs.Transport.Ended

/-! Two programs, one behind the other. The first one is ended by a semicolon, so it stays what it is; the
second one is moved behind it, and its first token begins a line then.
-/

namespace EcmaSyntax

open EcmaSyntax.Grammar

variable {script other : Script} {offset : Nat} {tokens : List Token} {statements : List Stmt}

-----------------------------------------------------------------------------------------
-- The first program
-----------------------------------------------------------------------------------------

/-- Statements that a semicolon ends stay in a row where their tokens are carried over, whatever follows. -/
theorem Script.Row.stays {relocation : Relocation} (row : script.Row offset tokens statements)
    (ends : Token.endsInMark tokens) (dialect_eq : other.dialect = script.dialect)
    (carries : relocation.Carries script other false offset tokens)
    (follows : other.ShowsNoElse (relocation.stop (Token.endOf offset tokens)))
    : other.Row (relocation.stop offset) (tokens.map relocation.token)
        (Moved.ofStmts relocation.span statements) := by
  rcases List.eq_nil_or_concat' statements with rfl | ⟨front, last, rfl⟩
  · cases row
    cases ends
  · obtain ⟨before, after, rfl, row, parses⟩ := row.exists_last
    have some_tokens := parses.ne_nil rfl
    have onward : relocation.Carries script other false (Token.endOf offset before) after :=
      carries.later
    rw [Token.endsInMark_append some_tokens] at ends
    rw [Token.endOf_append] at follows
    have there := parses.stays dialect_eq rfl ends onward follows
    have rows := row.moved dialect_eq carries.left ?_
    · rw [← Relocation.endOf_map row.consumes] at there
      rw [List.map_append, Moved.ofStmts_eq_map, List.map_append, ← Moved.ofStmts_eq_map]
      exact rows.append (.single there)
    · obtain ⟨token, rest, rfl⟩ := List.exists_cons_of_ne_nil some_tokens
      exact onward.1.shows.follows

/-- Tokens that are moved by nothing stay where they are. -/
theorem Relocation.map_shift_zero (tokens : List Token) : tokens.map (shift 0).token = tokens :=
  List.map_id tokens

/-- At no distance, statements are where they are. -/
theorem Script.Row.shift_zero {last : Token} (row : script.Row 0 tokens statements)
    (read : script.Reads .standard (Token.endOf 0 tokens) last) (ends : last.kind = .endOfInput)
    : Moved.ofStmts (Relocation.shift 0).span statements = statements := by
  have carries : (Relocation.shift 0).Carries script script false 0 tokens := by
    refine Relocation.carries_of fun front token back same => ?_
    have consumes := row.consumes
    rw [same] at consumes
    obtain ⟨_, read, _⟩ := Script.consumes_append.mp consumes
    exact ⟨read, rfl, fun _ => rfl, fun next read => ⟨next, read, rfl, fun _ => rfl⟩⟩
  have moved := row.moved rfl carries fun next read => ⟨next, read, .inl ⟨rfl, fun _ => rfl⟩⟩
  rw [Relocation.map_shift_zero] at moved
  have same := (Program.parse_of_holds (row.holds read ends)).symm.trans
    (Program.parse_of_holds (moved.holds read ends))
  injection same with same
  injection same with _ same
  exact same.symm

/-- The statements of a program that a semicolon ends stand in front of a new line as they are. -/
theorem Script.Holds.stays {last : Token} {behind : List Char}
    (holds : script.Holds statements tokens last) (ends : Token.endsInMark tokens)
    (source_eq : other.source = script.source ++ '\n' :: behind)
    (dialect_eq : other.dialect = script.dialect)
    (follows : other.ShowsNoElse (Token.endOf 0 tokens))
    : other.Row 0 tokens statements := by
  have row := holds.statements.row
  have source_eq : other.source = [] ++ (script.source ++ '\n' :: behind) := source_eq
  have carries := Relocation.carries_shift source_eq row.consumes holds.statements.valid
  have moved := row.stays ends dialect_eq carries follows
  rwa [Text.size_nil, row.shift_zero holds.read holds.ends, Relocation.map_shift_zero] at moved

-----------------------------------------------------------------------------------------
-- The second program
-----------------------------------------------------------------------------------------

/-- What is read where statements begin does not go on with a conditional statement. -/
theorem Script.Row.showsNoElse {last : Token} (row : script.Row offset tokens statements)
    (read : script.Reads .standard (Token.endOf offset tokens) last) (ends : last.kind = .endOfInput)
    : script.ShowsNoElse offset := by
  cases row with
  | nil => exact ⟨last, read, by simp [ends]⟩
  | cons first rest =>
      obtain ⟨next, readNext, _, opens⟩ := first.exists_next
      refine ⟨next, readNext, fun same => ?_⟩
      rw [same] at opens
      cases opens

namespace Relocation

/-- Another program is put in front. The beginning of the text is then where the last token of that program
ends, and the first token, with its beginning at `opening`, stands on a line of its own.
-/
def behind (place opening distance : Nat) : Relocation where
  span := Span.shift distance
  stop offset := if offset = 0 then place else offset + distance
  newline token := token.afterNewline || token.span.start = opening
  stop_span inner nonempty := by
    rw [if_neg (Nat.ne_zero_of_lt nonempty)]
    rfl
  span_cover first second _ _ := cover_shift distance first second
  span_point offset later := by
    rw [if_neg (Nat.ne_zero_of_lt later)]
    rfl

/-- Behind the beginning of the text, every end is moved by the distance. -/
theorem stop_behind {place opening distance : Nat} (later : 0 < offset)
    : (behind place opening distance).stop offset = offset + distance :=
  if_neg (Nat.ne_zero_of_lt later)

section Behind

variable {before gap text rest : List Char} {token : Token} {newline after : Bool} {opening : Nat}

/-- Trivia at the end of a text, and those on the line behind it, are passed over. -/
theorem skip_through_line (skipped : Trivia.skip .gap false gap = .ended newline [])
    (onward : Trivia.skip .gap false text = .ended after rest)
    : Trivia.skip .gap false (gap ++ '\n' :: text) = .ended true rest := by
  have fresh := Trivia.skip_newline true onward
  simp only [Bool.true_or] at fresh
  exact (Trivia.skip_onto_line skipped [] text).trans fresh

/-- Behind the trivia at the end of the other program, and a new line. -/
theorem placesWithin_opening
    (other_eq : other.source = before ++ (gap ++ '\n' :: script.source))
    (skipped : Trivia.skip .gap false gap = .ended newline [])
    : (behind (Text.size before) token.span.start (Text.size (before ++ gap) + 1)).PlacesWithin
        script other 0 token := by
  intro mode next front gap' text rest stands size_eq same _
  obtain rfl := Text.size_eq_zero.mp size_eq
  have starts := stands.lies.start_eq
  have stops := stands.lies.stop_eq
  have width : '\n'.utf8Size = 1 := rfl
  refine ⟨before, gap ++ '\n' :: gap', rest, ?_, ?_, .inr rfl, rfl, ?_⟩
  · simp [other_eq, stands.lies.source_eq]
  · simpa [behind, same] using skip_through_line skipped stands.skipped
  · simp only [behind, Span.shift, starts, stops, Text.size_append, Text.size_nil, Text.size_cons,
      width, Span.mk.injEq]
    omega

/-- Further tokens, the places of which are only moved. -/
theorem placesWithin_further {place : Nat}
    (other_eq : other.source = before ++ '\n' :: script.source) (later : 0 < offset)
    (further : token.span.start ≠ opening)
    : (behind place opening (Text.size before + 1)).PlacesWithin script other offset token := by
  intro mode next front gap text rest stands size_eq same _
  have starts := stands.lies.start_eq
  have stops := stands.lies.stop_eq
  have width : '\n'.utf8Size = 1 := rfl
  refine ⟨before ++ '\n' :: front, gap, rest, ?_, ?_, .inr rfl, ?_, ?_⟩
  · simp [other_eq, stands.lies.source_eq]
  · simpa [behind, same, further] using stands.skipped
  · simp only [stop_behind later, Text.size_append, Text.size_cons, width, size_eq]
    omega
  · simp only [behind, Span.shift, starts, stops, Text.size_append, Text.size_cons, width,
      Span.mk.injEq]
    omega

/-- All tokens of the program are carried over, the first one onto a line of its own. -/
theorem carries_behind (opening : Nat)
    (other_eq : other.source = before ++ (gap ++ '\n' :: script.source))
    (skipped : Trivia.skip .gap false gap = .ended newline [])
    (consumes : script.Consumes 0 tokens) (valid : ∀ token ∈ tokens, token.kind ≠ .invalid)
    (opens : ∀ token ∈ tokens.head?, token.span.start = opening)
    : (behind (Text.size before) opening (Text.size (before ++ gap) + 1)).Carries script other true
        0 tokens := by
  refine carries_of fun front token back row => ?_
  subst row
  obtain ⟨consumesFront, read, present, _⟩ := Script.consumes_append.mp consumes
  have isValid := valid token (by simp)
  cases front with
  | nil =>
      obtain rfl := opens token rfl
      have places := @placesWithin_opening script other before gap token newline other_eq skipped
      exact PlacesWithin.carriesToken places read present isValid nofun
  | cons first front =>
      obtain rfl := opens first rfl
      have inside := consumesFront.bounds first List.mem_cons_self
      have outside := read.start_lt_stop present
      have further : token.span.start ≠ first.span.start := by omega
      have later : 0 < Token.endOf 0 (first :: front) := by omega
      have moved_eq : other.source = (before ++ gap) ++ '\n' :: script.source := by simp [other_eq]
      refine PlacesWithin.carriesToken (placesWithin_further moved_eq later further) read present
        isValid fun _ next same => ?_
      simp [behind, same, further]

/-- The input ends where it ended. -/
theorem exists_reads_end_behind (opening : Nat) {last : Token}
    (other_eq : other.source = before ++ (gap ++ '\n' :: script.source))
    (skipped : Trivia.skip .gap false gap = .ended newline [])
    (read : script.Reads .standard offset last) (ends : last.kind = .endOfInput)
    : ∃ final,
        other.Reads .standard
          ((behind (Text.size before) opening (Text.size (before ++ gap) + 1)).stop offset) final
        ∧ final.kind = .endOfInput := by
  obtain ⟨front, left, rfl, source_eq, skippedLeft⟩ := read.gap_of_ends ends
  rcases Nat.eq_zero_or_pos (Text.size front) with begins | later
  · obtain rfl := Text.size_eq_zero.mp begins
    have whole : other.source = before ++ (gap ++ '\n' :: left) := by
      rw [other_eq, source_eq, List.nil_append]
    obtain ⟨final, read, ends, _⟩ :=
      Script.exists_reads_end .standard whole (skip_through_line skipped skippedLeft)
    exact ⟨final, read, ends⟩
  · have whole : other.source = (before ++ gap ++ '\n' :: front) ++ left := by
      simp [other_eq, source_eq]
    obtain ⟨final, read, ends, _⟩ := Script.exists_reads_end .standard whole skippedLeft
    refine ⟨final, ?_, ends⟩
    have width : '\n'.utf8Size = 1 := rfl
    rwa [stop_behind later, Nat.add_comm, Nat.add_assoc, ← width, ← Text.size_cons,
      ← Text.size_append]

end Behind

end Relocation

-----------------------------------------------------------------------------------------
-- Both programs
-----------------------------------------------------------------------------------------

/-- Behind a program that ends with a semicolon, and a new line, the statements of another one go on. -/
theorem Script.Holds.concatenated {first second both : Script} {further : List Stmt}
    {tokens' : List Token} {last last' : Token} (holds : first.Holds statements tokens last)
    (ends : Token.endsInMark tokens) (holds' : second.Holds further tokens' last')
    (source_eq : both.source = first.source ++ '\n' :: second.source)
    (dialect_eq : both.dialect = first.dialect) (dialect_eq' : both.dialect = second.dialect)
    : ∃ row final,
        both.Holds
          (statements ++ Moved.ofStmts (Span.shift (Text.size first.source + 1)) further)
          row final := by
  obtain ⟨before, gap, size_eq, split, skipped⟩ := holds.read.gap_of_ends holds.ends
  have split_eq := source_eq
  rw [split, List.append_assoc] at split_eq
  have row := holds'.statements.row
  obtain ⟨opening, opens⟩
      : ∃ opening, ∀ token ∈ tokens'.head?, token.span.start = opening := by
    cases tokens' <;> simp
  have carries := Relocation.carries_behind opening split_eq skipped row.consumes
    holds'.statements.valid opens
  obtain ⟨final, read, endsFinal⟩ :=
    Relocation.exists_reads_end_behind opening split_eq skipped holds'.read holds'.ends
  have moved := row.moved dialect_eq' carries fun _ _ =>
    ⟨final, read, .inr (by rw [endsFinal]; rfl)⟩
  rw [← Relocation.endOf_map row.consumes] at read
  have begins
      : (Relocation.behind (Text.size before) opening (Text.size (before ++ gap) + 1)).stop 0
        = Token.endOf 0 tokens := size_eq
  rw [begins] at moved read
  have first := holds.stays ends source_eq dialect_eq (moved.showsNoElse read endsFinal)
  rw [← Token.endOf_append] at read
  rw [split]
  exact ⟨_, final, (first.append moved).holds read endsFinal⟩

namespace Program

variable {source behind : List Char} {dialect : Dialect} {program next : Program}

/-- Behind a program that ends with a semicolon, and a new line, another program is parsed as its statements:
those of the first program are where they were, and those of the second one are moved by what stands in
front of them.
-/
theorem parse_concatenated (parsed : parse source dialect = .ok program)
    (ends : Token.endsInMark (Program.tokens source dialect))
    (parsedNext : parse behind dialect = .ok next)
    : ∃ joined,
        parse (source ++ '\n' :: behind) dialect = .ok joined
        ∧ joined.body
          = program.body ++ Moved.ofStmts (Span.shift (Text.size source + 1)) next.body
        ∧ Form.ofProgram joined
          = Form.list (Form.ofStmts program.body ++ Form.ofStmts next.body) := by
  obtain ⟨⟨last, holds⟩, _⟩ := holds_of_parse parsed
  obtain ⟨⟨lastNext, holdsNext⟩, _⟩ := holds_of_parse parsedNext
  obtain ⟨row, final, both⟩
      : ∃ row final,
          Script.Holds { source := source ++ '\n' :: behind, dialect }
            (program.body ++ Moved.ofStmts (Span.shift (Text.size source + 1)) next.body)
            row final :=
    holds.concatenated ends holdsNext rfl rfl rfl
  refine ⟨_, parse_of_holds both, rfl, ?_⟩
  simp [Form.ofProgram, Form.ofStmts_append, Form.ofStmts_moved]

/-- Without the semicolon, the parenthesis would be the arguments of a call. -/
theorem parse_concatenated_call
    : ∃ program next joined,
        parse "a; // b".toList .ecma = .ok program
        ∧ Token.endsInMark (Program.tokens "a; // b".toList .ecma)
        ∧ parse "(c)".toList .ecma = .ok next
        ∧ parse "a; // b\n(c)".toList .ecma = .ok joined
        ∧ joined.body = program.body ++ Moved.ofStmts (Span.shift 8) next.body
        ∧ Form.ofProgram joined
          = Form.list (Form.ofStmts program.body ++ Form.ofStmts next.body) := by
  have ends : Token.endsInMark (Program.tokens "a; // b".toList .ecma) := by decide +kernel
  have accepts : (parse "a; // b".toList .ecma).isOk ∧ (parse "(c)".toList .ecma).isOk := by
    decide +kernel
  cases parsed : parse "a; // b".toList .ecma with
  | error =>
      rw [parsed] at accepts
      cases accepts.1
  | ok program =>
      cases parsedNext : parse "(c)".toList .ecma with
      | error =>
          rw [parsedNext] at accepts
          cases accepts.2
      | ok next =>
          obtain ⟨joined, result⟩ := parse_concatenated parsed ends parsedNext
          exact ⟨program, next, joined, rfl, ends, rfl, result⟩

end Program

end EcmaSyntax
