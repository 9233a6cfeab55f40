import EcmaSyntax.Proofs.Token.Cursor
import EcmaSyntax.Proofs.Token.Replacing

/-! Tokens in another place. A valid token is read again wherever its text stands behind trivia, in front of
what may follow it; whether a line ended before it is told by the trivia.
-/

namespace EcmaSyntax

-----------------------------------------------------------------------------------------
-- Trivia
-----------------------------------------------------------------------------------------

namespace Trivia

variable {place : TriviaPlace} {newline after : Bool} {text rest : List Char}

/-- A line that ended before a pass is noted, whatever the pass goes over. -/
theorem skip_newline (extra : Bool) (skipped : skip place newline text = .ended after rest)
    : skip place (extra || newline) text = .ended (extra || after) rest := by
  fun_induction skip place newline text with
  | case1 newline tail ih | case2 newline tail ih => simpa [skip] using ih skipped
  | case3 newline c tail noBlock noLine terminator ih =>
      rw [skip, if_pos terminator]
      · simpa using ih skipped
      · exact noBlock
      · exact noLine
  | case4 newline c tail noBlock noLine terminator blank ih =>
      rw [skip, if_neg terminator, if_pos blank]
      · exact ih skipped
      · exact noBlock
      · exact noLine
  | case5 newline c tail noBlock noLine terminator blank =>
      obtain ⟨rfl, rfl⟩ := Trivia.ended.inj skipped
      rw [skip, if_neg terminator, if_neg blank]
      · exact noBlock
      · exact noLine
  | case6 newline c tail terminator ih | case7 newline c tail terminator ih =>
      simpa [skip, terminator] using ih skipped
  | case8 comment inside newline tail ih => simpa [skip, Bool.or_assoc] using ih skipped
  | case9 comment inside newline c tail noEnd ih =>
      rw [skip]
      · exact ih skipped
      · exact noEnd
  | case10 => cases skipped
  | case11 place newline closed =>
      obtain ⟨rfl, rfl⟩ := Trivia.ended.inj skipped
      rw [skip]
      exact closed

/-- Where a pass reaches the end of the text, a new line may follow, which ends a line comment, too. -/
theorem skip_onto_line (skipped : skip place newline text = .ended after []) (kept other : List Char)
    : skip (place.keeping kept) newline (text ++ '\n' :: other) = skip .gap true other := by
  have terminates : Text.isLineTerminator '\n' = true := by decide
  have skip_line (newline : Bool) (rest : List Char)
      : skip .gap newline ('\n' :: rest) = skip .gap true rest := by
    rw [skip_blank newline rest (by decide), terminates, Bool.or_true]
  fun_induction skip place newline text generalizing kept with
  | case1 newline tail ih =>
      rw [← ih skipped ('/' :: '*' :: (tail ++ '\n' :: other))]
      simp [TriviaPlace.keeping, skip]
  | case2 newline tail ih =>
      rw [← ih skipped kept]
      simp [TriviaPlace.keeping, skip]
  | case3 newline c tail noBlock noLine terminator ih =>
      rw [← ih skipped kept]
      simpa [TriviaPlace.keeping, terminator]
        using skip_blank (c := c) newline (tail ++ '\n' :: other) (by simp [terminator])
  | case4 newline c tail noBlock noLine terminator blank ih =>
      rw [← ih skipped kept]
      simpa [TriviaPlace.keeping, terminator]
        using skip_blank (c := c) newline (tail ++ '\n' :: other) (by simp [blank])
  | case5 => cases skipped
  | case6 newline c tail terminator ih | case7 newline c tail terminator ih =>
      rw [← ih skipped kept]
      simp [TriviaPlace.keeping, skip, terminator]
  | case8 comment inside newline tail ih =>
      rw [← ih skipped kept]
      simp [TriviaPlace.keeping, skip]
  | case9 comment inside newline c tail noEnd ih =>
      rw [← ih skipped kept]
      refine skip_inBlock kept inside newline (tail ++ '\n' :: other) ?_
      rintro rfl head
      cases tail with
      | nil => cases head
      | cons d tail =>
          obtain rfl := Option.some.inj head
          exact noEnd tail rfl rfl
  | case10 => cases skipped
  | case11 place newline closed =>
      cases place with
      | blockComment comment inside => exact (closed comment inside rfl).elim
      | gap => exact skip_line newline other
      | lineComment => simp [TriviaPlace.keeping, skip, terminates]

end Trivia

-----------------------------------------------------------------------------------------
-- Tokens with the texts around them
-----------------------------------------------------------------------------------------

/-- A token with a text, and what makes it that token: the trivia in front of it, its text, and that the
text goes on with what may stand behind the token.
-/
structure Token.Stands (script : Script) (mode : LexMode) (token : Token)
    (front gap text rest : List Char)
    : Prop where
  lies : token.Lies script.source front gap text rest
  skipped
    : Trivia.skip .gap false (gap ++ (text ++ rest)) = .ended token.afterNewline (text ++ rest)
  present : text ≠ []
  finds : Scan.Finds (Scan.token mode) token.kind text rest
  lexical_eq : token.lexical = none

namespace Script

variable {script other : Script} {mode : LexMode} {offset : Nat} {token : Token}

/-- A valid token that was read stands in the text. -/
theorem Reads.stands (read : script.Reads mode offset token) (present : token.kind ≠ .endOfInput)
    (valid : token.kind ≠ .invalid)
    : ∃ front gap text rest,
        Text.size front = offset ∧ token.Stands script mode front gap text rest := by
  obtain ⟨front, gap, text, rest, size_eq, lies, origin⟩ := Token.read?_eq_some read
  have some_text := origin.text_ne_nil present
  have scanned := origin.scanned_of_valid valid
  cases origin with
  | unterminated kind_eq => exact absurd kind_eq valid
  | scanned skipped _ _ lexical_eq =>
      obtain ⟨text', _, same, finds⟩ := Scan.token_replace scanned (by simp [some_text])
      obtain rfl := List.append_cancel_right same
      rw [scanned] at lexical_eq
      exact ⟨front, gap, text, rest, size_eq, lies, skipped, some_text, finds, lexical_eq⟩

end Script

namespace Token.Stands

variable {script other : Script} {mode : LexMode} {token : Token} {newline : Bool}
variable {front gap text rest front' gap' rest' : List Char}

/-- A token takes up characters. -/
theorem start_lt_stop (stands : token.Stands script mode front gap text rest)
    : token.span.start < token.span.stop := by
  have bound := Text.length_le_size text
  have length := List.length_pos_iff.mpr stands.present
  have starts := stands.lies.start_eq
  have stops := stands.lies.stop_eq
  omega

/-- A line ended before the token if there is a line terminator among the trivia. -/
theorem afterNewline_eq (stands : token.Stands script mode front gap text rest)
    : token.afterNewline = gap.any Text.isLineTerminator := by
  simpa [TriviaPlace.newline] using (Trivia.passes_of_skip_append stands.skipped).newline_eq

theorem stops (stands : token.Stands script mode front gap text rest)
    : Trivia.Stops (text ++ rest) := by
  obtain ⟨front, same, passes⟩ := Trivia.passes_of_skip stands.skipped
  exact passes.stops

/-- A token is read wherever its text stands behind trivia, in front of what may follow it. -/
theorem reads (stands : token.Stands script mode front gap text rest)
    (source_eq : other.source = front' ++ (gap' ++ (text ++ rest')))
    (skipped : Trivia.skip .gap false (gap' ++ (text ++ rest')) = .ended newline (text ++ rest'))
    (follows : Text.MayFollow rest rest')
    : other.Reads mode (Text.size front')
        {
          token with
          span :=
            {
              start := Text.size front' + Text.size gap'
              stop := Text.size front' + Text.size gap' + Text.size text
            }
          afterNewline := newline
        } := by
  have read := Token.read?_of_scan front' skipped (stands.finds rest' follows)
  rw [← source_eq] at read
  rw [Script.Reads, read, ← stands.lexical_eq]

/-- The text of the token stands at its new place. -/
theorem textOf_eq (stands : token.Stands script mode front gap text rest)
    (source_eq : other.source = front' ++ (gap' ++ (text ++ rest')))
    : other.textOf
          {
            start := Text.size front' + Text.size gap'
            stop := Text.size front' + Text.size gap' + Text.size text
          }
        = script.textOf token.span := by
  rw [Script.textOf_of_lies stands.lies, Script.textOf, Text.slice?_eq_some.mpr, Option.getD_some]
  exact ⟨front' ++ gap', rest', by simp [source_eq], by simp, rfl⟩

/-- Trivia that are the same pass over the same lines when something else follows the token. -/
theorem skip_eq (stands : token.Stands script mode front gap text rest)
    (follows : Text.MayFollow rest rest')
    : Trivia.skip .gap false (gap ++ (text ++ rest'))
        = .ended token.afterNewline (text ++ rest') := by
  have passes := Trivia.passes_of_skip_append stands.skipped
  have onward := passes.onward (by simp [stands.present]) [] (text ++ rest')
  exact onward.trans (stands.stops.replace stands.present follows _)

end Token.Stands

end EcmaSyntax
