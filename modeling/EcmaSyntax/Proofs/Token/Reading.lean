import EcmaSyntax.Proofs.Text.Cutting
import EcmaSyntax.Proofs.Token.Scanning
import EcmaSyntax.Proofs.Token.Trivia

/-! The first token at an offset, as a decomposition of the source text: what lies before the offset,
the trivia, the text of the token, and the rest. Tokens are read wherever a character begins, end where
one begins or the text ends, and depend on the mode only where they begin with a slash.
-/

namespace EcmaSyntax

/-- A character begins at the offset, or the text ends there. -/
def Text.IsBoundary (source : List Char) (offset : Nat) : Prop :=
  ∃ rest, Text.drop? offset source = some rest

namespace Token

/-- The token read at the end of `front` has the text `text`, after the trivia `gap`. -/
structure Lies (source : List Char) (token : Token) (front gap text rest : List Char) : Prop where
  source_eq : source = front ++ (gap ++ (text ++ rest))
  start_eq : token.span.start = Text.size front + Text.size gap
  stop_eq : token.span.stop = Text.size front + Text.size gap + Text.size text

/-- The source goes on with the text of a token where the token begins. -/
theorem Lies.drop?_start {source : List Char} {token : Token} {front gap text rest : List Char}
    (lies : token.Lies source front gap text rest)
    : Text.drop? token.span.start source = some (text ++ rest) :=
  Text.drop?_eq_some.mpr ⟨front ++ gap, by simp [lies.source_eq], by simp [lies.start_eq]⟩

/-- The source goes on with the rest where a token ends. -/
theorem Lies.drop?_stop {source : List Char} {token : Token} {front gap text rest : List Char}
    (lies : token.Lies source front gap text rest)
    : Text.drop? token.span.stop source = some rest :=
  Text.drop?_eq_some.mpr
    ⟨front ++ gap ++ text, by simp [lies.source_eq], by simp [lies.stop_eq, Nat.add_assoc]⟩

/-- How a token comes about: from a scan behind trivia, or from a comment that does not end. -/
inductive Origin (mode : LexMode) (token : Token) (gap text rest : List Char) : Prop
  | scanned
    (skip_eq
      : Trivia.skip .gap false (gap ++ (text ++ rest))
        = .ended token.afterNewline (text ++ rest))
    (rest_eq : (Scan.token mode (text ++ rest)).rest = rest)
    (kind_eq
      : token.kind
        = match (Scan.token mode (text ++ rest)).verdict with
          | .ok kind => kind
          | .error _ => .invalid)
    (lexical_eq
      : token.lexical
        = match (Scan.token mode (text ++ rest)).verdict with
          | .ok _ => none
          | .error cause => some cause)
  | unterminated (kind_eq : token.kind = .invalid)
    (lexical_eq : token.lexical = some .unterminatedComment)
    (rest_eq : rest = [])
    (skip_eq
      : Trivia.skip .gap false (gap ++ (text ++ rest)) = .unterminated token.afterNewline text)
    (opens : ∃ comment, text = '/' :: '*' :: comment)

/-- The kind of a valid token is the one that was found. -/
theorem Origin.scanned_of_valid {mode : LexMode} {token : Token} {gap text rest : List Char}
    (origin : token.Origin mode gap text rest) (valid : token.kind ≠ .invalid)
    : Scan.token mode (text ++ rest) = Scan.found token.kind rest := by
  cases origin with
  | unterminated kind_eq => exact absurd kind_eq valid
  | scanned _ rest_eq kind_eq =>
      generalize Scan.token mode (text ++ rest) = scan at rest_eq kind_eq
      obtain ⟨kind | cause, left⟩ := scan
      · exact absurd kind_eq valid
      · subst rest_eq kind_eq
        rfl

/-- Every token that is read lies in the source and comes about in one of the two ways. -/
theorem read?_eq_some {source : List Char} {mode : LexMode} {offset : Nat} {token : Token}
    (read : Token.read? source mode offset = some token)
    : ∃ front gap text rest,
        Text.size front = offset
        ∧ token.Lies source front gap text rest
        ∧ token.Origin mode gap text rest := by
  obtain ⟨tail, cut, rfl⟩ := Option.map_eq_some_iff.mp read
  obtain ⟨front, rfl, rfl⟩ := Text.drop?_eq_some.mp cut
  unfold Lexeme.read
  cases skipped : Trivia.skip .gap false tail with
  | ended newline body =>
      obtain ⟨gap, rfl, _⟩ := Trivia.passes_of_skip skipped
      obtain ⟨text, body_eq⟩ := Scan.token_suffix mode body
      generalize rest_eq : (Scan.token mode body).rest = rest at body_eq
      subst body_eq
      refine ⟨front, gap, text, rest, rfl, ⟨rfl, ?_, ?_⟩, .scanned skipped rest_eq rfl rfl⟩
      · simp [Lexeme.placedAt, Lexeme.ofScan]
      · simp [Lexeme.placedAt, Lexeme.ofScan, rest_eq]
  | unterminated newline comment =>
      rcases Trivia.unterminated_suffix skipped with ⟨_, same⟩ | ⟨gap, inner, rfl, opens⟩
      · cases same
      · refine ⟨front, gap, comment, [], rfl, ⟨by simp, ?_, ?_⟩,
          .unterminated rfl rfl rfl (by rw [List.append_nil, skipped]; rfl) ⟨inner, opens⟩⟩
        · simp [Lexeme.placedAt, Lexeme.ofScan]
        · simp [Lexeme.placedAt, Lexeme.ofScan]

/-- A token of a kind lies where a token of that kind was found. -/
theorem exists_found {source : List Char} {mode : LexMode} {offset : Nat} {token : Token}
    {kind : Kind} (read : Token.read? source mode offset = some token) (isKind : token.kind = kind)
    (valid : kind ≠ .invalid)
    : ∃ front gap text rest,
        token.Lies source front gap text rest
        ∧ Scan.token mode (text ++ rest) = Scan.found kind rest := by
  obtain ⟨front, gap, text, rest, _, lies, origin⟩ := read?_eq_some read
  subst isKind
  exact ⟨front, gap, text, rest, lies, origin.scanned_of_valid valid⟩

/-- A token is read from every text with trivia and a scanned text at the offset. -/
theorem read?_of_scan (front : List Char) {gap text rest : List Char} {mode : LexMode}
    {newline : Bool} {kind : Kind}
    (skipped : Trivia.skip .gap false (gap ++ (text ++ rest)) = .ended newline (text ++ rest))
    (scanned : Scan.token mode (text ++ rest) = Scan.found kind rest)
    : Token.read? (front ++ (gap ++ (text ++ rest))) mode (Text.size front)
      = some
          {
            kind
            span :=
              {
                start := Text.size front + Text.size gap
                stop := Text.size front + Text.size gap + Text.size text
              }
            afterNewline := newline
          } := by
  simp [Token.read?, Text.drop?_size_append, Lexeme.read, skipped, scanned, Lexeme.ofScan,
    Lexeme.placedAt, Scan.found]

/-- Without trivia at the offset, the token that is scanned there is read. -/
theorem read?_of_stops {source text rest : List Char} {offset : Nat} {mode : LexMode} {kind : Kind}
    (cut : Text.drop? offset source = some (text ++ rest)) (stops : Trivia.Stops (text ++ rest))
    (scanned : Scan.token mode (text ++ rest) = Scan.found kind rest)
    : Token.read? source mode offset
      = some
          {
            kind
            span :=
              {
                start := offset
                stop := offset + Text.size text
              }
            afterNewline := false
          } := by
  obtain ⟨front, rfl, rfl⟩ := Text.drop?_eq_some.mp cut
  simpa using @read?_of_scan front [] text rest mode false kind (stops false) scanned

/-- Without trivia at the offset, what no token is scanned from is read as an invalid one. -/
theorem read?_of_failed {source text rest : List Char} {offset : Nat} {mode : LexMode}
    {cause : Cause} (cut : Text.drop? offset source = some (text ++ rest))
    (stops : Trivia.Stops (text ++ rest))
    (scanned : Scan.token mode (text ++ rest) = Scan.failed cause rest)
    : Token.read? source mode offset
      = some
          {
            kind := .invalid
            span :=
              {
                start := offset
                stop := offset + Text.size text
              }
            afterNewline := false
            lexical := some cause
          } := by
  simp [Token.read?, cut, Lexeme.read, stops false, scanned, Lexeme.ofScan, Lexeme.placedAt,
    Scan.failed]

/-- A token is read wherever a character begins. -/
theorem exists_read? {source : List Char} {offset : Nat} (mode : LexMode)
    (boundary : Text.IsBoundary source offset)
    : ∃ token, Token.read? source mode offset = some token := by
  obtain ⟨rest, cut⟩ := boundary
  exact ⟨_, by rw [Token.read?, cut, Option.map_some]⟩

/-- Tokens end where a character begins or the text ends. -/
theorem isBoundary_stop {source : List Char} {mode : LexMode} {offset : Nat} {token : Token}
    (read : Token.read? source mode offset = some token)
    : Text.IsBoundary source token.span.stop := by
  obtain ⟨front, gap, text, rest, _, lies, _⟩ := read?_eq_some read
  exact ⟨rest, lies.drop?_stop⟩

/-- Before the end of the input, tokens take up characters. -/
theorem Origin.text_ne_nil {mode : LexMode} {token : Token} {gap text rest : List Char}
    (origin : token.Origin mode gap text rest) (present : token.kind ≠ .endOfInput)
    : text ≠ [] := by
  rintro rfl
  cases origin with
  | scanned _ rest_eq kind_eq =>
      cases rest with
      | nil => exact present kind_eq
      | cons c rest =>
          have shorter := (Scan.token_suffix_tail mode c rest).length_le
          rw [List.nil_append] at rest_eq
          rw [rest_eq, List.length_cons] at shorter
          omega
  | unterminated _ _ _ _ opens =>
      obtain ⟨_, impossible⟩ := opens
      cases impossible

/-- Less text is left after a token than before it. -/
theorem length_rest_lt {source : List Char} {mode : LexMode} {offset : Nat} {token : Token}
    {before : List Char} (read : Token.read? source mode offset = some token)
    (present : token.kind ≠ .endOfInput) (cut : Text.drop? offset source = some before)
    : ∃ after, Text.drop? token.span.stop source = some after ∧ after.length < before.length := by
  obtain ⟨front, gap, text, rest, rfl, lies, origin⟩ := read?_eq_some read
  have same : before = gap ++ (text ++ rest) := by
    rw [lies.source_eq, Text.drop?_size_append] at cut
    exact (Option.some.inj cut).symm
  refine ⟨rest, lies.drop?_stop, ?_⟩
  have := List.length_pos_iff.mpr (origin.text_ne_nil present)
  simp only [same, List.length_append]
  omega

/-- A token that does not begin with a slash is the same in both modes. -/
theorem read?_mode {source : List Char} {mode : LexMode} (other : LexMode) {offset : Nat}
    {token : Token} (read : Token.read? source mode offset = some token)
    (noSlash : ∀ rest, Text.drop? token.span.start source ≠ some ('/' :: rest))
    : Token.read? source other offset = some token := by
  obtain ⟨front, gap, text, rest, rfl, lies, origin⟩ := read?_eq_some read
  have plain : (text ++ rest).head? ≠ some '/' := by
    intro slash
    obtain ⟨tail, body⟩ := List.head?_eq_some_iff.mp slash
    exact noSlash tail (body ▸ lies.drop?_start)
  have cut : Text.drop? (Text.size front) source = some (gap ++ (text ++ rest)) :=
    lies.source_eq ▸ Text.drop?_size_append _ _
  rw [Token.read?, cut, Option.map_some] at read ⊢
  rw [← read]
  unfold Lexeme.read
  cases origin with
  | scanned skip_eq => simp only [skip_eq, Scan.token_mode other mode plain]
  | unterminated _ _ _ skip_eq => rw [skip_eq]

end Token

end EcmaSyntax
