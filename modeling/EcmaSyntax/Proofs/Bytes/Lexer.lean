import EcmaSyntax.Proofs.Bytes.Dispatch
import EcmaSyntax.Proofs.Bytes.Trivia
import EcmaSyntax.Token.Lexeme

/-! The lexer by byte offsets. From every offset at which a character begins it reads the same token as
the lexer on characters, without ever looking outside of the source.
-/

namespace EcmaSyntax.Bytes

open Text (size)

/-- The token between two offsets, given how its scanner came out. -/
def tokenOfVerdict (newline : Bool) (start stop : Nat) (verdict : Except Cause Kind) : Token :=
  {
    kind :=
      match verdict with
      | .ok kind => kind
      | .error _ => .invalid
    span :=
      {
        start
        stop
      }
    afterNewline := newline
    lexical :=
      match verdict with
      | .ok _ => none
      | .error cause => some cause
  }

namespace Lexing

/-- Passes over a character if nothing has been passed over since the offset. -/
def leave (start : Nat) : Lexing Unit := do
  if (← offset) = start then
    match ← peek with
    | some c => advance c.utf8Size
    | none => return
  else
    return

/-- The token that the action finds after trivia. One that it does not find takes up a character at
least. -/
def drive (newline : Bool) (action : Lexing Kind) : Lexing Token := do
  let start ← offset
  let verdict ← attempt action
  leave start
  let stop ← offset
  return tokenOfVerdict newline start stop verdict

/-- The next token, after trivia. -/
def lexNext (mode : LexMode) : Lexing Token := do
  match ← repeating gapStep false with
  | (newline, some (start, cause)) => do
      let stop ← offset
      return tokenOfVerdict newline start stop (.error cause)
  | (newline, none) => do
      let stop := size (← source)
      if stop ≤ (← offset) then
        return tokenOfVerdict newline stop stop (.ok .endOfInput)
      else
        drive newline (token mode)

end Lexing

variable {source text rest : List Char}

/-- A character is passed over where nothing has been since the offset. -/
theorem Gives.leave_same (source : List Char) (c : Char) (rest : List Char)
    : Gives source (Lexing.leave (offsetOf source (c :: rest))) (c :: rest) (.ok ⟨⟩) rest := by
  refine (Gives.offset _).bind ?_
  rw [if_pos rfl]
  exact (Gives.peek _).bind (.advance_char c rest)

/-- Nothing more is passed over where something has been. -/
theorem Gives.leave_other (other : offsetOf source rest ≠ offsetOf source text)
    : Gives source (Lexing.leave (offsetOf source text)) rest (.ok ⟨⟩) rest := by
  refine (Gives.offset _).bind ?_
  rw [if_neg other]
  exact .pure _ rest

/-- A text that is longer by some characters begins earlier. -/
theorem offsetOf_ne (inner : rest <:+ text) (shorter : rest.length < text.length)
    (within : text <:+ source)
    : offsetOf source rest ≠ offsetOf source text := by
  obtain ⟨used, rfl⟩ := inner
  have sizes := offsetOf_of_append within
  have present : size used ≠ 0 := by
    rw [ne_eq, Text.size_eq_zero]
    rintro rfl
    exact absurd shorter (Nat.lt_irrefl _)
  omega

/-- Where a token begins, one is found that takes up what its scanner takes. -/
theorem Gives.drive (source : List Char) (newline : Bool) (mode : LexMode) (c : Char)
    (rest : List Char)
    : Gives source (Lexing.drive newline (Lexing.token mode)) (c :: rest)
        (.ok (tokenOfVerdict newline (offsetOf source (c :: rest))
          (offsetOf source (Scan.token mode (c :: rest)).rest)
          (Scan.token mode (c :: rest)).verdict))
        (Scan.token mode (c :: rest)).rest := by
  have inner := Scan.token_suffix_tail mode c rest
  have stopped {start : Nat} {verdict : Except Cause Kind} {rest : List Char}
      : Gives source (Lexing.offset >>= fun stop => pure (tokenOfVerdict newline start stop verdict))
          rest (.ok (tokenOfVerdict newline start (offsetOf source rest) verdict)) rest :=
    (Gives.offset rest).bind (.pure _ rest)
  rcases Gives.token source mode c rest with gives | ⟨scanned, gives⟩
  · generalize Scan.token mode (c :: rest) = scan at gives inner ⊢
    intro within
    have shorter : scan.rest.length < (c :: rest).length := Nat.lt_succ_of_le inner.length_le
    have other := offsetOf_ne (inner.trans (List.suffix_cons c rest)) shorter within
    exact ((Gives.offset _).bind (gives.attempt.bind ((Gives.leave_other other).bind stopped))) within
  · rw [scanned]
    exact (Gives.offset _).bind (gives.attempt.bind ((Gives.leave_same source c rest).bind stopped))

/-- What is left behind the first lexeme. -/
def afterLexeme (mode : LexMode) (text : List Char) : List Char :=
  match Trivia.skip .gap false text with
  | .ended _ body => (Scan.token mode body).rest
  | .unterminated _ _ => []

/-- The bytes of a text up to a part at its end. -/
theorem offsetOf_add_sub (inner : rest <:+ text) (within : text <:+ source)
    : offsetOf source text + (size text - size rest) = offsetOf source rest := by
  obtain ⟨used, rfl⟩ := inner
  rw [offsetOf_of_append within, Text.size_append]
  omega

/-- A token that a scanner finds lies between the offsets where the scanner begins and ends. -/
theorem placedAt_ofScan {body : List Char} {newline : Bool} {scan : Scan}
    (gap : body <:+ text) (inner : scan.rest <:+ body) (within : text <:+ source)
    : (Lexeme.ofScan text body newline scan).placedAt (offsetOf source text)
      = tokenOfVerdict newline (offsetOf source body) (offsetOf source scan.rest) scan.verdict := by
  have start := offsetOf_add_sub gap within
  have stop := offsetOf_add_sub inner (gap.trans within)
  cases verdict_eq : scan.verdict <;>
    simp only [Lexeme.placedAt, Lexeme.ofScan, tokenOfVerdict, start, stop, verdict_eq]

/-- A comment that does not end is the rest of the text. -/
theorem comment_suffix {newline : Bool} {comment : List Char}
    (skipped : Trivia.skip .gap false text = .unterminated newline comment)
    : comment <:+ text := by
  rcases Trivia.unterminated_suffix skipped with ⟨_, same⟩ | ⟨front, _, same, _⟩
  · cases same
  · exact ⟨front, same.symm⟩

/-- The lexer by bytes finds the next lexeme of the characters, by cases on how trivia end. -/
theorem Gives.lexNext (source : List Char) (mode : LexMode) (text : List Char)
    : Gives source (Lexing.lexNext mode) text
        (.ok ((Lexeme.read mode text).placedAt (offsetOf source text))) (afterLexeme mode text) := by
  intro within
  have gap := (gap_loops source false text).gives
  unfold Lexeme.read afterLexeme
  cases skipped : Trivia.skip .gap false text with
  | ended newline body =>
      rw [skipped] at gap
      replace gap : Gives source (Lexing.repeating Lexing.gapStep false) text _ body := gap
      have inner := (gap within).1
      rw [placedAt_ofScan inner (Scan.token_suffix mode body) within]
      refine (gap.bind ((Gives.source_ _).bind ((Gives.offset _).bind ?_))) within
      have sizes := offsetOf_add_size (inner.trans within)
      cases body with
      | nil =>
          have ended : offsetOf source [] = size source := by simpa using sizes
          rw [if_pos (Nat.le_of_eq ended.symm), ← ended]
          exact .pure _ []
      | cons c rest =>
          have positive := c.utf8Size_pos
          rw [Text.size_cons] at sizes
          rw [if_neg (by omega)]
          exact .drive source newline mode c rest
  | unterminated newline comment =>
      rw [skipped] at gap
      rw [placedAt_ofScan (comment_suffix skipped) List.nil_suffix within]
      have stopped
          : Gives source
              (Lexing.offset >>= fun stop =>
                pure (tokenOfVerdict newline (offsetOf source comment) stop
                  (.error .unterminatedComment)))
              [] _ [] :=
        (Gives.offset []).bind (.pure _ [])
      exact (gap.bind stopped) within

/-- What is left behind a token begins where the token stops. -/
theorem stop_placedAt (mode : LexMode) (within : text <:+ source)
    : ((Lexeme.read mode text).placedAt (offsetOf source text)).span.stop
      = offsetOf source (afterLexeme mode text) := by
  have gap := ((gap_loops source false text).gives within).1
  unfold Lexeme.read afterLexeme
  cases skipped : Trivia.skip .gap false text with
  | ended newline body =>
      rw [skipped] at gap
      exact congrArg (·.span.stop) (placedAt_ofScan gap (Scan.token_suffix mode body) within)
  | unterminated newline comment =>
      have inner : (Scan.failed .unterminatedComment []).rest <:+ comment := List.nil_suffix
      exact congrArg (·.span.stop) (placedAt_ofScan (comment_suffix skipped) inner within)

/-- Within a character there is nothing to be read. -/
theorem lexNext_of_none {offset : Nat} (mode : LexMode) (cut : Text.drop? offset source = none)
    : Lexing.lexNext mode source offset = none := by
  have rest_eq : Lexing.rest source offset = none := by
    simp [Lexing.rest, bind, Lexing.offset, Lexing.source, cut, Lexing.present, Lexing.outside]
  have gap : Lexing.gapStep false source offset = none :=
    Lexing.bind_of_none (Lexing.bind_of_none rest_eq _) _
  exact Lexing.bind_of_none (Lexing.bind_of_none gap _) _

/-- From every offset the lexer reads the token that is read from the characters. It looks outside of the
source only if no character begins at the offset. -/
theorem lexNext_eq_read? (source : List Char) (mode : LexMode) (offset : Nat)
    : Lexing.lexNext mode source offset
      = (Token.read? source mode offset).map fun token => (.ok token, token.span.stop) := by
  unfold Token.read?
  cases cut : Text.drop? offset source with
  | none => exact lexNext_of_none mode cut
  | some text =>
      obtain ⟨front, rfl, rfl⟩ := Text.drop?_eq_some.mp cut
      have within := List.suffix_append front text
      have gives := (Gives.lexNext (front ++ text) mode text within).2
      rw [← stop_placedAt mode within, offsetOf_append] at gives
      exact gives

end EcmaSyntax.Bytes
