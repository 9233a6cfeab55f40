import EcmaSyntax.Proofs.Bytes.LineBreaks
import EcmaSyntax.Proofs.Token.Tiling

/-! What tokens say of line breaks is what lines are counted by. The lexer looks at the line terminators in
front of one token, the positions at those of the whole text with their pairs; they agree since no token begins
with a line terminator, so that no pair reaches from the trivia into a token.
-/

namespace EcmaSyntax

open Text (size)

variable {source : List Char} {mode : LexMode} {offset : Nat}

-----------------------------------------------------------------------------------------
-- One token
-----------------------------------------------------------------------------------------

/-- No token begins with a line terminator, and neither does what follows the last one. -/
theorem Token.Origin.not_isLineTerminator {token : Token} {gap text rest : List Char}
    (origin : token.Origin mode gap text rest)
    : ∀ c ∈ (text ++ rest).head?, Text.isLineTerminator c = false := by
  cases origin with
  | unterminated _ _ rest_eq _ opens =>
      obtain ⟨comment, rfl⟩ := opens
      rintro c ⟨⟩
      decide
  | scanned skip_eq =>
      intro c first
      have stops := (Trivia.passes_of_skip_append skip_eq).stops
      obtain ⟨tail, body_eq⟩ := List.head?_eq_some_iff.mp first
      rw [body_eq] at stops
      exact (Bool.or_eq_false_iff.mp (Trivia.stops_cons.mp stops).1).2

/-- A line break ends within a part of a text if and only if a line terminator stands in it, since the text
behind the part begins with none.
-/
theorem Text.exists_breaksAt_iff {front gap rest : List Char}
    (ends : ∀ c ∈ rest.head?, isLineTerminator c = false)
    : (∃ stop,
          BreaksAt (front ++ (gap ++ rest)) stop
          ∧ size front < stop
          ∧ stop ≤ size front + size gap)
      ↔ gap.any isLineTerminator := by
  constructor
  · rintro ⟨stop, breaks, above, within⟩
    obtain ⟨before, c, after, same, rfl, terminator, _⟩ := breaksAt_iff.mp breaks
    have same : front ++ (gap ++ rest) = before ++ [c] ++ after := by simpa using same
    have width : size (before ++ [c]) = size before + c.utf8Size := by simp
    obtain ⟨part, part_eq, onward⟩ := exists_append_of_size_le same (by omega)
    rw [part_eq, size_append] at width
    have present : part ≠ [] := fun none => by simp [none] at width; omega
    obtain ⟨tail, rfl, _⟩ := exists_append_of_size_le onward.symm (by omega)
    have last : part.getLast? = some c := by
      simpa [List.getLast?_append, List.getLast?_eq_some_getLast present]
        using (congrArg List.getLast? part_eq).symm
    exact List.any_eq_true.mpr
      ⟨c, List.mem_append_left tail (List.mem_of_getLast? last), terminator⟩
  · have ends_behind {before after : List Char} {c : Char} (gap_eq : gap = before ++ c :: after)
        (terminator : isLineTerminator c) (whole : c = '\r' → (after ++ rest).head? ≠ some '\n')
        : ∃ stop,
            BreaksAt (front ++ (gap ++ rest)) stop
            ∧ size front < stop
            ∧ stop ≤ size front + size gap := by
      have positive := c.utf8Size_pos
      refine ⟨size (front ++ before) + c.utf8Size, breaksAt_iff.mpr ?_, ?_, ?_⟩
      · exact ⟨front ++ before, c, after ++ rest, by simp [gap_eq], rfl, terminator, whole⟩
      · rw [size_append]
        omega
      · simp only [gap_eq, size_append, size_cons]
        omega
    intro ended
    obtain ⟨c, member, terminator⟩ := List.any_eq_true.mp ended
    obtain ⟨before, after, gap_eq⟩ := List.append_of_mem member
    by_cases half : c = '\r' ∧ (after ++ rest).head? = some '\n'
    · -- The line feed of the pair stands in the part as well.
      obtain ⟨rfl, feed⟩ := half
      cases after with
      | nil => exact absurd (ends '\n' feed) (by decide)
      | cons d after =>
          obtain rfl : d = '\n' := by simpa using feed
          have further : gap = (before ++ ['\r']) ++ '\n' :: after := by simpa using gap_eq
          exact ends_behind further (by decide) fun same => absurd same (by decide)
    · exact ends_behind gap_eq terminator (by simpa using half)

/-- A token says that a line has ended if and only if it is on a later line than the offset from which it was
read.
-/
theorem Token.afterNewline_iff {token : Token}
    (read : Token.read? source mode offset = some token)
    : token.afterNewline = true
      ↔ (Position.ofOffset source offset).line
        < (Position.ofOffset source token.span.start).line := by
  obtain ⟨front, gap, text, rest, rfl, lies, origin⟩ := Token.read?_eq_some read
  have begins : Text.IsBoundary source (size front) :=
    ⟨_, Text.drop?_eq_some.mpr ⟨front, lies.source_eq, rfl⟩⟩
  have ends : Text.IsBoundary source token.span.start := ⟨_, lies.drop?_start⟩
  rw [Position.line_lt_iff begins ends (by rw [lies.start_eq]; omega), lies.start_eq,
    origin.isTrivia.2, lies.source_eq, Text.exists_breaksAt_iff origin.not_isLineTerminator]

-----------------------------------------------------------------------------------------
-- All tokens
-----------------------------------------------------------------------------------------

namespace Lexed

/-- Every token says whether it is on a later line than the end of the token before it. -/
def TellsLines (source : List Char) : Nat → List Lexed → Prop
  | _, [] => True
  | before, lexed :: tiles =>
      (lexed.token.afterNewline = true
        ↔ (Position.ofOffset source before).line
          < (Position.ofOffset source lexed.token.span.start).line)
      ∧ TellsLines source lexed.token.span.stop tiles

/-- Tokens of any run tell their lines, by induction on the modes. -/
theorem tellsLines_of_run? {modes : List LexMode} {tiles : List Lexed}
    (run : run? source offset modes = some tiles)
    : TellsLines source offset tiles := by
  induction modes generalizing offset tiles with
  | nil =>
      cases run
      trivial
  | cons mode modes ih =>
      obtain ⟨lexed, tiles, next, onward, rfl⟩ := run?_cons_eq_some.mp run
      obtain ⟨read, offset_eq⟩ := next?_eq_some.mp next
      rw [offset_eq] at onward
      exact ⟨Token.afterNewline_iff read, ih onward⟩

/-- Whatever the modes in which the tokens of a text are read one after the other, each of them says that a line
has ended before it exactly if it is on a later line than the end of the one before.
-/
theorem run?_tellsLines (source : List Char) (modes : List LexMode)
    : ∃ tiles,
        run? source 0 modes = some tiles
        ∧ tiles.length = modes.length
        ∧ TellsLines source 0 tiles := by
  have begins : Text.IsBoundary source 0 := ⟨source, by rw [Text.drop?]⟩
  obtain ⟨tiles, run, length, _⟩ := exists_tiling begins modes
  exact ⟨tiles, run, length, tellsLines_of_run? run⟩

/-- A string that a carriage return breaks off, a pair in front of the next one, and a comment with a separator of
lines.
-/
theorem run?_tellsLines_strings
    : ∃ tiles,
        run? "'a\r\n'\\\r\n'/*\u2028*/b".toList 0 [.standard, .regex, .standard, .regex] = some tiles
        ∧ tiles.map
            (fun lexed =>
              (lexed.token.kind, lexed.token.afterNewline, lexed.token.span.start,
                lexed.token.span.stop))
          = [(.invalid, false, 0, 2), (.literalString, true, 4, 9), (.identifier, true, 16, 17),
              (.endOfInput, false, 17, 17)]
        ∧ TellsLines "'a\r\n'\\\r\n'/*\u2028*/b".toList 0 tiles := by
  have read
      : (run? "'a\r\n'\\\r\n'/*\u2028*/b".toList 0 [.standard, .regex, .standard, .regex]).map
          (List.map fun lexed =>
            (lexed.token.kind, lexed.token.afterNewline, lexed.token.span.start,
              lexed.token.span.stop))
        = some
            [(.invalid, false, 0, 2), (.literalString, true, 4, 9), (.identifier, true, 16, 17),
              (.endOfInput, false, 17, 17)] := by
    decide +kernel
  obtain ⟨tiles, run, _, tells⟩ :=
    run?_tellsLines "'a\r\n'\\\r\n'/*\u2028*/b".toList [.standard, .regex, .standard, .regex]
  rw [run, Option.map_some, Option.some_inj] at read
  exact ⟨tiles, run, read, tells⟩

end Lexed

end EcmaSyntax
