import EcmaSyntax.Proofs.Token.InputEnd
import EcmaSyntax.Proofs.Token.Names

/-! The lexer tiles the source. Whatever the modes, each token lies right behind the trivia that follow the
one before, it ends where the lexer goes on, and as every token takes up characters, the end of the input
is reached and stays.
-/

namespace EcmaSyntax

-----------------------------------------------------------------------------------------
-- Trivia
-----------------------------------------------------------------------------------------

/-- Blanks, line terminators and complete comments in front of a text. A line comment reaches up to the
end of its line, which is the end of the text if nothing follows.
-/
inductive Text.IsTrivia (rest : List Char) : List Char → Prop
  | nil : IsTrivia rest []
  | spacing {c : Char} {gap : List Char} (spaces : isSpacing c) (more : IsTrivia rest gap)
    : IsTrivia rest (c :: gap)
  | lineComment {body gap : List Char} (inner : ∀ c ∈ body, isLineTerminator c = false)
    (ends : ∀ c ∈ (gap ++ rest).head?, isLineTerminator c) (more : IsTrivia rest gap)
    : IsTrivia rest ('/' :: '/' :: (body ++ gap))
  | blockComment {body gap : List Char} (noEnd : ¬['*', '/'] <:+: body) (more : IsTrivia rest gap)
    : IsTrivia rest ('/' :: '*' :: (body ++ '*' :: '/' :: gap))

/-- Trivia as they go on from a place: an open comment ends first. -/
def TriviaPlace.Continues (place : TriviaPlace) (rest front : List Char) : Prop :=
  match place with
  | gap => Text.IsTrivia rest front
  | lineComment =>
      ∃ body gap,
        front = body ++ gap
        ∧ (∀ c ∈ body, Text.isLineTerminator c = false)
        ∧ (∀ c ∈ (gap ++ rest).head?, Text.isLineTerminator c)
        ∧ Text.IsTrivia rest gap
  | blockComment _ _ =>
      ∃ body gap, front = body ++ '*' :: '/' :: gap ∧ ¬['*', '/'] <:+: body ∧ Text.IsTrivia rest gap

namespace Trivia

/-- The text that follows: that of a token, or that of a comment without end. -/
def rest : Trivia → List Char
  | ended _ rest => rest
  | unterminated _ comment => comment

/-- A line has ended before what follows. -/
def newline : Trivia → Bool
  | ended newline _ => newline
  | unterminated newline _ => newline

/-- The outcome follows a front of the text that is trivia, and tells whether a line ends in it. -/
def Follows (outcome : Trivia) (place : TriviaPlace) (newline : Bool) (text : List Char) : Prop :=
  ∃ front,
    text = front ++ outcome.rest
    ∧ place.Continues outcome.rest front
    ∧ outcome.newline = (newline || place.newline || front.any Text.isLineTerminator)

/-- A pass leaves either the block comment in which it began, for want of an end, or trivia. -/
theorem follows_skip (place : TriviaPlace) (newline : Bool) (text : List Char)
    : (∃ kept inside,
          place = .blockComment kept inside
          ∧ skip place newline text = .unterminated newline kept)
      ∨ (skip place newline text).Follows place newline text := by
  fun_induction skip place newline text with
  | case1 newline rest ih =>
      rcases ih with ⟨_, _, same, open_⟩ | ⟨_, same, ⟨body, gap, rfl, noEnd, more⟩, line⟩
      · cases same
        rw [open_]
        exact .inr ⟨[], rfl, .nil, by simp [Trivia.newline, TriviaPlace.newline]⟩
      · refine .inr ⟨_, congrArg ('/' :: '*' :: ·) same, .blockComment noEnd more, ?_⟩
        simpa [TriviaPlace.newline, Text.isLineTerminator] using line
  | case2 newline rest ih =>
      rcases ih with ⟨_, _, same, _⟩ | ⟨_, same, ⟨body, gap, rfl, inner, ends, more⟩, line⟩
      · cases same
      · refine .inr ⟨_, congrArg ('/' :: '/' :: ·) same, .lineComment inner ends more, ?_⟩
        simpa [TriviaPlace.newline, Text.isLineTerminator] using line
  | case3 newline c rest _ _ terminator ih =>
      rcases ih with ⟨_, _, same, _⟩ | ⟨front, same, more, line⟩
      · cases same
      · refine .inr ⟨c :: front, congrArg (c :: ·) same, ?_, ?_⟩
        · exact .spacing (by simp [Text.isSpacing, terminator]) more
        · simpa [TriviaPlace.newline, terminator] using line
  | case4 newline c rest _ _ terminator blank ih =>
      rcases ih with ⟨_, _, same, _⟩ | ⟨front, same, more, line⟩
      · cases same
      · refine .inr ⟨c :: front, congrArg (c :: ·) same, ?_, ?_⟩
        · exact .spacing (by simp [Text.isSpacing, blank]) more
        · simpa [TriviaPlace.newline, terminator] using line
  | case5 newline c rest =>
      exact .inr ⟨[], rfl, .nil, by simp [Trivia.newline, TriviaPlace.newline]⟩
  | case6 newline c rest terminator ih =>
      rcases ih with ⟨_, _, same, _⟩ | ⟨front, same, more, line⟩
      · cases same
      · refine .inr ⟨c :: front, congrArg (c :: ·) same, ⟨[], c :: front, rfl, List.forall_mem_nil _, ?_, ?_⟩, ?_⟩
        · simpa using terminator
        · exact .spacing (by simp [Text.isSpacing, terminator]) more
        · simpa [TriviaPlace.newline, terminator] using line
  | case7 newline c rest terminator ih =>
      rcases ih with ⟨_, _, same, _⟩ | ⟨_, same, ⟨body, gap, rfl, inner, ends, more⟩, line⟩
      · cases same
      · refine .inr ⟨_, congrArg (c :: ·) same, ⟨c :: body, gap, rfl, ?_, ends, more⟩, ?_⟩
        · exact List.forall_mem_cons.mpr ⟨by simpa using terminator, inner⟩
        · simpa [TriviaPlace.newline, terminator] using line
  | case8 kept inside newline rest ih =>
      rcases ih with ⟨_, _, same, _⟩ | ⟨front, same, more, line⟩
      · cases same
      · refine .inr ⟨'*' :: '/' :: front, congrArg ('*' :: '/' :: ·) same, ⟨[], front, rfl, ?_, more⟩, ?_⟩
        · simp
        · simpa [TriviaPlace.newline, Text.isLineTerminator] using line
  | case9 kept inside newline c rest inner ih =>
      rcases ih with ⟨_, _, same, open_⟩ | ⟨_, same, ⟨body, gap, rfl, noEnd, more⟩, line⟩
      · cases same
        exact .inl ⟨kept, inside, rfl, open_⟩
      · refine .inr ⟨_, congrArg (c :: ·) same, ⟨c :: body, gap, rfl, ?_, more⟩, ?_⟩
        · intro ended
          rcases List.infix_cons_iff.mp ended with opens | within
          · obtain ⟨tail, spelled⟩ := opens
            obtain ⟨rfl, rfl⟩ := List.cons.inj spelled
            exact inner _ rfl same
          · exact noEnd within
        · simpa [TriviaPlace.newline, Bool.or_assoc] using line
  | case10 kept inside newline => exact .inl ⟨kept, inside, rfl, rfl⟩
  | case11 place newline closed =>
      refine .inr ⟨[], rfl, ?_, ?_⟩
      · cases place with
        | gap => exact .nil
        | lineComment => exact ⟨[], [], rfl, List.forall_mem_nil _, by simp [Trivia.rest], .nil⟩
        | blockComment kept inside => exact (closed kept inside rfl).elim
      · cases place with
        | gap | lineComment => simp [Trivia.newline, TriviaPlace.newline]
        | blockComment kept inside => exact (closed kept inside rfl).elim

/-- What a pass leaves follows trivia, in which a line ends if the pass says so. -/
theorem isTrivia_of_skip {gap rest : List Char} {outcome : Trivia}
    (skipped : skip .gap false (gap ++ rest) = outcome) (rest_eq : outcome.rest = rest)
    : Text.IsTrivia rest gap ∧ outcome.newline = gap.any Text.isLineTerminator := by
  subst rest_eq
  rcases follows_skip .gap false (gap ++ outcome.rest) with ⟨_, _, same, _⟩ | ⟨front, same, trivia, line⟩
  · cases same
  · rw [skipped] at same trivia line
    obtain rfl := List.append_cancel_right same
    exact ⟨trivia, by simpa [TriviaPlace.newline] using line⟩

end Trivia

-----------------------------------------------------------------------------------------
-- The kinds of tokens
-----------------------------------------------------------------------------------------

/-- A kind that classifies text within the lexer. -/
def Kind.isInternal : Kind → Bool
  | commentMultiline | commentMultilineEnd | commentSingle | lineTerminator | literalNumberHex
  | whitespace => true
  | _ => false

/-- A kind that a scanner may find. -/
def Kind.isScanned (kind : Kind) : Bool :=
  kind ≠ .invalid && !kind.isInternal

namespace Scan

variable {mode : LexMode} {whole rest : List Char} {kind : Kind}

theorem isScanned_of_punctuator? : kind.punctuator?.isSome → kind.isScanned := by
  cases kind with
  | _ => first | exact fun _ => rfl | exact nofun

theorem isScanned_of_isWord : kind.isWord → kind.isScanned := by
  cases kind with
  | _ => first | exact fun _ => rfl | exact nofun

/-- No scanner finds a kind that is internal to the lexer, or the kind of text that is no token. -/
theorem isScanned_of_token (scanned : token mode whole = found kind rest) : kind.isScanned := by
  cases foundBy_of_token scanned with
  | nothing | hexNumber | number | escape | string | regex => rfl
  | word _ named =>
      rcases named with rfl | isWord
      · rfl
      · exact isScanned_of_isWord isWord
  | punctuator spelled => exact isScanned_of_punctuator? spelled

end Scan

namespace Token

variable {source : List Char} {mode : LexMode} {offset : Nat} {token : Token}
variable {gap text rest : List Char}

/-- What a token is after a scan: the kind that was found, or invalid with the reason why none was. -/
theorem Origin.kind (origin : token.Origin mode gap text rest)
    : token.kind.isInternal = false ∧ (token.lexical.isSome ↔ token.kind = .invalid) := by
  cases origin with
  | unterminated kind_eq lexical_eq => simp [kind_eq, lexical_eq, Kind.isInternal]
  | scanned _ _ kind_eq lexical_eq =>
      generalize scan_eq : Scan.token mode (text ++ rest) = scan at kind_eq lexical_eq
      obtain ⟨verdict, left⟩ := scan
      cases verdict with
      | error cause => simp [kind_eq, lexical_eq, Kind.isInternal]
      | ok found =>
          have isScanned := Scan.isScanned_of_token scan_eq
          simp only [Kind.isScanned, Bool.and_eq_true, decide_eq_true_eq, Bool.not_eq_true']
            at isScanned
          simp [kind_eq, lexical_eq, isScanned]

/-- A token stands behind trivia, in which a line ends if the token says so. -/
theorem Origin.isTrivia (origin : token.Origin mode gap text rest)
    : Text.IsTrivia (text ++ rest) gap ∧ token.afterNewline = gap.any Text.isLineTerminator := by
  cases origin with
  | unterminated _ _ rest_eq skip_eq =>
      subst rest_eq
      exact Trivia.isTrivia_of_skip skip_eq (by simp [Trivia.rest])
  | scanned skip_eq => exact Trivia.isTrivia_of_skip skip_eq rfl

end Token

-----------------------------------------------------------------------------------------
-- Tiles
-----------------------------------------------------------------------------------------

/-- A token, and the offset at which the lexer stands when it has read it. -/
structure Lexed where
  token : Token
  offset : Nat
  deriving DecidableEq, Repr

namespace Lexed

/-- The lexer reads the first token at or after the offset, and passes over its bytes and over those of
the trivia before it.
-/
def next? (source : List Char) (mode : LexMode) (offset : Nat) : Option Lexed :=
  (Text.drop? offset source).map fun text =>
    let lexeme := Lexeme.read mode text
    {
      token := lexeme.placedAt offset
      offset := offset + (lexeme.before + lexeme.width)
    }

/-- The lexer reads one token for each mode. -/
def run? (source : List Char) : Nat → List LexMode → Option (List Lexed)
  | _, [] => some []
  | offset, mode :: modes =>
      (next? source mode offset).bind fun lexed =>
        (run? source lexed.offset modes).map (lexed :: ·)

variable {source : List Char} {mode : LexMode} {offset : Nat} {lexed : Lexed}

/-- A run reads a token first and goes on from where the lexer stands behind it. -/
theorem run?_cons_eq_some {modes : List LexMode} {tiles : List Lexed}
    : run? source offset (mode :: modes) = some tiles
      ↔ ∃ lexed more,
          next? source mode offset = some lexed
          ∧ run? source lexed.offset modes = some more
          ∧ lexed :: more = tiles := by
  rw [run?, Option.bind_eq_some_iff]
  simp only [Option.map_eq_some_iff, exists_and_left]

/-- The lexer goes on at the end of the token. -/
theorem next?_eq_some
    : next? source mode offset = some lexed
      ↔ Token.read? source mode offset = some lexed.token
        ∧ lexed.offset = lexed.token.span.stop := by
  obtain ⟨token, stop⟩ := lexed
  simp only [next?, Token.read?, Option.map_eq_some_iff, Lexed.mk.injEq]
  constructor
  · rintro ⟨text, cut, rfl, rfl⟩
    exact ⟨⟨text, cut, rfl⟩, by simp [Lexeme.placedAt, Nat.add_assoc]⟩
  · rintro ⟨⟨text, cut, rfl⟩, rfl⟩
    exact ⟨text, cut, rfl, by simp [Lexeme.placedAt, Nat.add_assoc]⟩

/-- A token read at an offset leaves no gap and is well-formed in itself. -/
structure Tile (source : List Char) (offset : Nat) (lexed : Lexed) : Prop where
  trivia
    : ∃ gap rest,
        Text.slice? offset lexed.token.span.start source = some gap
        ∧ Text.drop? lexed.token.span.start source = some rest
        ∧ Text.IsTrivia rest gap
        ∧ lexed.token.afterNewline = gap.any Text.isLineTerminator
  stop_boundary : Text.IsBoundary source lexed.token.span.stop
  offset_eq : lexed.offset = lexed.token.span.stop
  kind_external : lexed.token.kind.isInternal = false
  lexical_iff : lexed.token.lexical.isSome ↔ lexed.token.kind = .invalid
  nonempty
    : lexed.token.kind ≠ .endOfInput → lexed.token.span.start < lexed.token.span.stop
  ends : lexed.token.kind = .endOfInput → lexed.token.span = .point (Text.size source)

/-- What the lexer reads is a tile. -/
theorem tile_of_next? (read : next? source mode offset = some lexed) : Tile source offset lexed := by
  obtain ⟨read, offset_eq⟩ := next?_eq_some.mp read
  have boundary := Token.isBoundary_stop read
  obtain ⟨front, gap, text, rest, size_eq, lies, origin⟩ := Token.read?_eq_some read
  have starts := lies.start_eq
  have stops := lies.stop_eq
  refine ⟨?_, boundary, offset_eq, origin.kind.1, origin.kind.2, ?_, ?_⟩
  · refine ⟨gap, text ++ rest, ?_, lies.drop?_start, origin.isTrivia⟩
    exact Text.slice?_eq_some.mpr ⟨front, text ++ rest, lies.source_eq, size_eq, by omega⟩
  · intro present
    have := Nat.pos_of_ne_zero (mt Text.size_eq_zero.mp (origin.text_ne_nil present))
    omega
  · intro ended
    obtain ⟨rfl, rfl⟩ := List.append_eq_nil_iff.mp (origin.nothing_of_ends ended)
    have whole := congrArg Text.size lies.source_eq
    simp only [List.append_nil, Text.size_append] at whole
    rw [Text.size_nil, Nat.add_zero] at stops
    generalize lexed.token.span = span at starts stops ⊢
    obtain ⟨start, stop⟩ := span
    simp only at starts stops
    rw [Span.point, starts, stops, whole]

/-- A token begins no earlier than it is looked for. -/
theorem Tile.offset_le (tile : Tile source offset lexed) : offset ≤ lexed.token.span.start := by
  obtain ⟨gap, _, slice, _⟩ := tile.trivia
  obtain ⟨_, _, _, rfl, sizes⟩ := Text.slice?_eq_some.mp slice
  omega

/-- The lexer never stands beyond the source. -/
theorem Tile.offset_le_size (tile : Tile source offset lexed)
    : lexed.offset ≤ Text.size source := by
  obtain ⟨rest, cut⟩ := tile.stop_boundary
  obtain ⟨front, rfl, size_eq⟩ := Text.drop?_eq_some.mp cut
  rw [tile.offset_eq, Text.size_append]
  omega

/-- At the end of the source, the end of the input is read. -/
theorem ends_of_next? (read : next? source mode (Text.size source) = some lexed)
    : lexed.token.kind = .endOfInput ∧ lexed.offset = Text.size source := by
  have tile := tile_of_next? read
  have beyond := tile.offset_le
  have within := tile.offset_le_size
  have ends : lexed.token.kind = .endOfInput := by
    by_contra present
    have := tile.nonempty present
    have := tile.offset_eq
    omega
  exact ⟨ends, by rw [tile.offset_eq, tile.ends ends, Span.point]⟩

/-- Tiles one after the other, each from where the lexer stands behind the one before. -/
inductive Tiling (source : List Char) : Nat → List Lexed → Prop
  | nil (offset : Nat) : Tiling source offset []
  | cons {offset : Nat} {lexed : Lexed} {tiles : List Lexed} (tile : Tile source offset lexed)
    (more : Tiling source lexed.offset tiles)
    : Tiling source offset (lexed :: tiles)

/-- The lexer never fails on a boundary, and what it reads is a tiling. -/
theorem exists_tiling {offset : Nat} (boundary : Text.IsBoundary source offset)
    (modes : List LexMode)
    : ∃ tiles,
        run? source offset modes = some tiles
        ∧ tiles.length = modes.length
        ∧ Tiling source offset tiles := by
  induction modes generalizing offset with
  | nil => exact ⟨[], rfl, rfl, .nil offset⟩
  | cons mode modes ih =>
      obtain ⟨token, read⟩ := Token.exists_read? mode boundary
      have next : next? source mode offset = some ⟨token, token.span.stop⟩ :=
        next?_eq_some.mpr ⟨read, rfl⟩
      obtain ⟨tiles, run, length, tiling⟩ := ih (Token.isBoundary_stop read)
      refine ⟨_, run?_cons_eq_some.mpr ⟨_, tiles, next, run, rfl⟩, ?_, .cons (tile_of_next? next) tiling⟩
      rw [List.length_cons, List.length_cons, length]

/-- Behind the end of the source nothing but the end of the input is read. -/
theorem ends_of_run? {modes : List LexMode} {tiles : List Lexed}
    (run : run? source (Text.size source) modes = some tiles)
    : ∀ lexed ∈ tiles, lexed.token.kind = .endOfInput := by
  induction modes generalizing tiles with
  | nil =>
      cases run
      simp
  | cons mode modes ih =>
      obtain ⟨lexed, tiles, read, onward, rfl⟩ := run?_cons_eq_some.mp run
      obtain ⟨ends, offset_eq⟩ := ends_of_next? read
      rw [offset_eq] at onward
      exact List.forall_mem_cons.mpr ⟨ends, ih onward⟩

/-- The tokens before the end of the input take up a byte each, and only the end of the input follows
it.
-/
theorem exists_split_of_run? {modes : List LexMode} {tiles : List Lexed}
    (within : offset ≤ Text.size source) (run : run? source offset modes = some tiles)
    : ∃ present ended,
        tiles = present ++ ended
        ∧ (∀ lexed ∈ present, lexed.token.kind ≠ .endOfInput)
        ∧ (∀ lexed ∈ ended, lexed.token.kind = .endOfInput)
        ∧ offset + present.length ≤ Text.size source := by
  induction modes generalizing offset tiles with
  | nil =>
      cases run
      exact ⟨[], [], rfl, by simp, by simp, by simpa using within⟩
  | cons mode modes ih =>
      obtain ⟨lexed, tiles, read, onward, rfl⟩ := run?_cons_eq_some.mp run
      have tile := tile_of_next? read
      by_cases ends : lexed.token.kind = .endOfInput
      · have whole : lexed.offset = Text.size source := by
          rw [tile.offset_eq, tile.ends ends, Span.point]
        rw [whole] at onward
        refine ⟨[], lexed :: tiles, rfl, by simp, ?_, by simpa using within⟩
        exact List.forall_mem_cons.mpr ⟨ends, ends_of_run? onward⟩
      · obtain ⟨present, ended, rfl, more, rest, room⟩ := ih tile.offset_le_size onward
        refine ⟨lexed :: present, ended, rfl, List.forall_mem_cons.mpr ⟨ends, more⟩, rest, ?_⟩
        have := tile.offset_le
        have := tile.nonempty ends
        have := tile.offset_eq
        rw [List.length_cons]
        omega

/-- From every boundary on, in every sequence of modes, the lexer reads one token for each mode. The
tokens tile the source; at most as many as there are bytes left come before the end of the input, and
nothing else comes behind it.
-/
theorem run?_tiles (source : List Char) (offset : Nat) (modes : List LexMode)
    (boundary : Text.IsBoundary source offset)
    : ∃ tiles,
        run? source offset modes = some tiles
        ∧ tiles.length = modes.length
        ∧ Tiling source offset tiles
        ∧ ∃ present ended,
            tiles = present ++ ended
            ∧ (∀ lexed ∈ present, lexed.token.kind ≠ .endOfInput)
            ∧ (∀ lexed ∈ ended, lexed.token.kind = .endOfInput)
            ∧ present.length ≤ Text.size source - offset := by
  obtain ⟨tiles, run, length, tiling⟩ := exists_tiling boundary modes
  have within : offset ≤ Text.size source := by
    obtain ⟨rest, cut⟩ := boundary
    obtain ⟨front, rfl, rfl⟩ := Text.drop?_eq_some.mp cut
    simp
  obtain ⟨present, ended, split, before, after, room⟩ := exists_split_of_run? within run
  exact ⟨tiles, run, length, tiling, present, ended, split, before, after, by omega⟩

/-- A comment before a name, a string without end, and twice the end of the input. -/
theorem run?_tiles_comment
    : Text.IsBoundary "é/*\n*/x '".toList 2
      ∧ ∃ tiles,
          run? "é/*\n*/x '".toList 2 [.standard, .regex, .standard, .regex] = some tiles
          ∧ tiles.map (fun lexed => (lexed.token.kind, lexed.token.afterNewline, lexed.offset))
            = [(.identifier, true, 8), (.invalid, false, 10), (.endOfInput, false, 10),
                (.endOfInput, false, 10)]
          ∧ Tiling "é/*\n*/x '".toList 2 tiles := by
  have boundary : Text.IsBoundary "é/*\n*/x '".toList 2 := ⟨_, rfl⟩
  have read
      : (run? "é/*\n*/x '".toList 2 [.standard, .regex, .standard, .regex]).map
          (List.map fun lexed => (lexed.token.kind, lexed.token.afterNewline, lexed.offset))
        = some [(.identifier, true, 8), (.invalid, false, 10), (.endOfInput, false, 10),
            (.endOfInput, false, 10)] := by
    decide +kernel
  obtain ⟨tiles, run, _, tiling, _⟩ :=
    run?_tiles "é/*\n*/x '".toList 2 [.standard, .regex, .standard, .regex] boundary
  rw [run, Option.map_some, Option.some_inj] at read
  exact ⟨boundary, tiles, run, read, tiling⟩

end Lexed

end EcmaSyntax
