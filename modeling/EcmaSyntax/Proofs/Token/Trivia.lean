import EcmaSyntax.Token.Trivia

/-! How trivia are passed over: a pass stops at a suffix of the text, notes a line break exactly if it
has passed over a line terminator, and goes on unchanged when the text behind it is replaced.
-/

namespace EcmaSyntax

namespace TriviaPlace

/-- A line has ended within the comment that is open at the place. -/
def newline : TriviaPlace → Bool
  | blockComment _ inside => inside
  | _ => false

/-- A block comment is open at the place. -/
def inBlock : TriviaPlace → Bool
  | blockComment _ _ => true
  | _ => false

/-- The place with another text kept for the open block comment. -/
def keeping (comment : List Char) : TriviaPlace → TriviaPlace
  | blockComment _ inside => blockComment comment inside
  | place => place

end TriviaPlace

namespace Trivia

/-- A blank or line terminator is passed over. -/
theorem skip_blank {c : Char} (newline : Bool) (rest : List Char)
    (blank : (Text.isBlank c || Text.isLineTerminator c) = true)
    : skip .gap newline (c :: rest) = skip .gap (newline || Text.isLineTerminator c) rest := by
  have notSlash : c ≠ '/' := by
    rintro rfl
    exact absurd blank (by decide)
  have step
      : skip .gap newline (c :: rest)
        = if Text.isLineTerminator c then skip .gap true rest
          else if Text.isBlank c then skip .gap newline rest
          else ended newline (c :: rest) := by
    rw [skip]
    · intro _ same
      exact absurd same notSlash
    · intro _ same
      exact absurd same notSlash
  rw [step]
  cases terminator : Text.isLineTerminator c with
  | true => simp
  | false =>
      rw [terminator, Bool.or_false] at blank
      simp [blank]

/-- A character of a block comment is passed over, unless it opens the end of the comment. -/
theorem skip_inBlock {c : Char} (kept : List Char) (inside newline : Bool) (rest : List Char)
    (inner : c = '*' → rest.head? ≠ some '/')
    : skip (.blockComment kept inside) newline (c :: rest)
      = skip (.blockComment kept (inside || Text.isLineTerminator c)) newline rest := by
  rw [skip]
  rintro tail rfl rfl
  exact inner rfl rfl

/-- The text begins with no blank, line terminator or comment. -/
def Stops (text : List Char) : Prop :=
  ∀ newline, skip .gap newline text = ended newline text

/-- A pass over a front of the text that stops behind it. Unless nothing follows, which also ends a
line comment, the pass over the front is the same whatever follows.
-/
structure Passes (place : TriviaPlace) (newline after : Bool) (front rest : List Char) : Prop where
  stops : Stops rest
  newline_eq : after = (newline || place.newline || front.any Text.isLineTerminator)
  opened : place.inBlock → front ≠ []
  onward
    : rest ≠ []
      → ∀ kept other, skip (place.keeping kept) newline (front ++ other) = skip .gap after other

/-- A pass that ends has passed over a front of the text. Within a block comment the front is never
empty, so a star in front of it ends the comment only where it did before.
-/
theorem passes_of_skip {place : TriviaPlace} {newline after : Bool} {text rest : List Char}
    (ended : skip place newline text = .ended after rest)
    : ∃ front, text = front ++ rest ∧ Passes place newline after front rest := by
  fun_induction skip place newline text with
  | case1 newline rest' ih =>
      obtain ⟨front, rfl, passes⟩ := ih ended
      refine ⟨'/' :: '*' :: front, rfl, passes.stops, ?_, nofun, ?_⟩
      · simpa [TriviaPlace.newline, Text.isLineTerminator] using passes.newline_eq
      · intro more kept other
        rw [← passes.onward more ('/' :: '*' :: (front ++ other)) other]
        simp [TriviaPlace.keeping, skip]
  | case2 newline rest' ih =>
      obtain ⟨front, rfl, passes⟩ := ih ended
      refine ⟨'/' :: '/' :: front, rfl, passes.stops, ?_, nofun, ?_⟩
      · simpa [TriviaPlace.newline, Text.isLineTerminator] using passes.newline_eq
      · intro more kept other
        rw [← passes.onward more kept other]
        simp [TriviaPlace.keeping, skip]
  | case3 newline c rest' _ _ terminator ih =>
      obtain ⟨front, rfl, passes⟩ := ih ended
      refine ⟨c :: front, rfl, passes.stops, ?_, nofun, ?_⟩
      · simpa [TriviaPlace.newline, terminator] using passes.newline_eq
      · intro more kept other
        rw [← passes.onward more kept other]
        simpa [TriviaPlace.keeping, terminator]
          using skip_blank (c := c) newline (front ++ other) (by simp [terminator])
  | case4 newline c rest' _ _ terminator blank ih =>
      obtain ⟨front, rfl, passes⟩ := ih ended
      refine ⟨c :: front, rfl, passes.stops, ?_, nofun, ?_⟩
      · simpa [TriviaPlace.newline, terminator] using passes.newline_eq
      · intro more kept other
        rw [← passes.onward more kept other]
        simpa [TriviaPlace.keeping, terminator]
          using skip_blank (c := c) newline (front ++ other) (by simp [blank])
  | case5 newline c rest' noBlock noLine terminator blank =>
      simp only [Trivia.ended.injEq] at ended
      obtain ⟨rfl, rfl⟩ := ended
      refine ⟨[], rfl, ?_, by simp [TriviaPlace.newline], nofun, by simp [TriviaPlace.keeping]⟩
      intro newline'
      rw [skip, if_neg terminator, if_neg blank]
      · exact noBlock
      · exact noLine
  | case6 newline c rest' terminator ih =>
      obtain ⟨front, rfl, passes⟩ := ih ended
      refine ⟨c :: front, rfl, passes.stops, ?_, nofun, ?_⟩
      · simpa [TriviaPlace.newline, terminator] using passes.newline_eq
      · intro more kept other
        rw [← passes.onward more kept other]
        simp [TriviaPlace.keeping, skip, terminator]
  | case7 newline c rest' terminator ih =>
      obtain ⟨front, rfl, passes⟩ := ih ended
      refine ⟨c :: front, rfl, passes.stops, ?_, nofun, ?_⟩
      · simpa [TriviaPlace.newline, terminator] using passes.newline_eq
      · intro more kept other
        rw [← passes.onward more kept other]
        simp [TriviaPlace.keeping, skip, terminator]
  | case8 comment inside newline rest' ih =>
      obtain ⟨front, rfl, passes⟩ := ih ended
      refine ⟨'*' :: '/' :: front, rfl, passes.stops, ?_, by simp, ?_⟩
      · simpa [TriviaPlace.newline, Text.isLineTerminator] using passes.newline_eq
      · intro more kept other
        rw [← passes.onward more kept other]
        simp [TriviaPlace.keeping, skip]
  | case9 comment inside newline c rest' inner ih =>
      obtain ⟨front, rfl, passes⟩ := ih ended
      have nonempty := passes.opened rfl
      refine ⟨c :: front, rfl, passes.stops, ?_, by simp, ?_⟩
      · simpa [TriviaPlace.newline, Bool.or_assoc] using passes.newline_eq
      · intro more kept other
        rw [← passes.onward more kept other]
        refine skip_inBlock kept inside newline (front ++ other) ?_
        obtain ⟨d, tail, rfl⟩ := List.exists_cons_of_ne_nil nonempty
        rintro rfl head
        simp only [List.cons_append, List.head?_cons, Option.some.injEq] at head
        subst head
        exact inner _ rfl rfl
  | case10 => cases ended
  | case11 place newline closed =>
      simp only [Trivia.ended.injEq] at ended
      obtain ⟨rfl, rfl⟩ := ended
      have none : place.newline = false ∧ place.inBlock = false := by
        cases place with
        | blockComment comment inside => exact (closed comment inside rfl).elim
        | gap | lineComment => exact ⟨rfl, rfl⟩
      exact ⟨[], rfl, fun newline' => by simp [skip], by simp [none.1], by simp [none.2], by simp⟩

/-- The front that a pass has passed over is what lies before the rest. -/
theorem passes_of_skip_append {place : TriviaPlace} {newline after : Bool} {front rest : List Char}
    (ended : skip place newline (front ++ rest) = .ended after rest)
    : Passes place newline after front rest := by
  obtain ⟨front', same, passes⟩ := passes_of_skip ended
  rw [List.append_cancel_right same]
  exact passes

/-- A pass that does not end keeps the text of the comment that is open where it stops. -/
theorem unterminated_suffix {place : TriviaPlace} {newline after : Bool} {text comment : List Char}
    (open_ : skip place newline text = .unterminated after comment)
    : (∃ inside, place = .blockComment comment inside)
      ∨ ∃ front rest, text = front ++ comment ∧ comment = '/' :: '*' :: rest := by
  fun_induction skip place newline text with
  | case1 newline rest ih =>
      rcases ih open_ with ⟨inside, same⟩ | ⟨front, rest', rfl, opens⟩
      · cases same
        exact .inr ⟨[], rest, rfl, rfl⟩
      · exact .inr ⟨'/' :: '*' :: front, rest', rfl, opens⟩
  | case2 newline rest ih =>
      rcases ih open_ with ⟨inside, same⟩ | ⟨front, rest', rfl, opens⟩
      · cases same
      · exact .inr ⟨'/' :: '/' :: front, rest', rfl, opens⟩
  | case3 newline c rest _ _ _ ih | case4 newline c rest _ _ _ _ ih | case6 newline c rest _ ih
  | case7 newline c rest _ ih =>
      rcases ih open_ with ⟨inside, same⟩ | ⟨front, rest', rfl, opens⟩
      · cases same
      · exact .inr ⟨c :: front, rest', rfl, opens⟩
  | case5 => cases open_
  | case8 kept inside newline rest ih =>
      rcases ih open_ with ⟨inside', same⟩ | ⟨front, rest', rfl, opens⟩
      · cases same
      · exact .inr ⟨'*' :: '/' :: front, rest', rfl, opens⟩
  | case9 kept inside newline c rest _ ih =>
      rcases ih open_ with ⟨inside', same⟩ | ⟨front, rest', rfl, opens⟩
      · cases same
        exact .inl ⟨inside, rfl⟩
      · exact .inr ⟨c :: front, rest', rfl, opens⟩
  | case10 kept inside newline =>
      cases open_
      exact .inl ⟨inside, rfl⟩
  | case11 => cases open_

-----------------------------------------------------------------------------------------
-- Where trivia end
-----------------------------------------------------------------------------------------

/-- Trivia end in front of a text whose first two characters say so. -/
theorem stops_cons {c : Char} {rest : List Char}
    : Stops (c :: rest)
      ↔ (Text.isBlank c || Text.isLineTerminator c) = false
        ∧ (c = '/' → rest.head? ≠ some '/' ∧ rest.head? ≠ some '*') := by
  have suffix {place : TriviaPlace} {newline after : Bool} {text : List Char}
      (ended : skip place newline text = .ended after (c :: rest)) : rest.length < text.length := by
    obtain ⟨front, rfl, _⟩ := passes_of_skip ended
    simp only [List.length_append, List.length_cons]
    omega
  constructor
  · intro stops
    constructor
    · rw [← Bool.not_eq_true]
      intro blank
      have ended := stops false
      rw [skip_blank false rest blank] at ended
      exact absurd (suffix ended) (Nat.lt_irrefl _)
    · rintro rfl
      constructor
      · intro head
        obtain ⟨tail, rfl⟩ := List.head?_eq_some_iff.mp head
        have shorter := suffix (stops false)
        have ended := stops false
        rw [skip] at ended
        have := suffix ended
        simp only [List.length_cons] at this
        omega
      · intro head
        obtain ⟨tail, rfl⟩ := List.head?_eq_some_iff.mp head
        have ended := stops false
        rw [skip] at ended
        have := suffix ended
        simp only [List.length_cons] at this
        omega
  · rintro ⟨plain, noComment⟩ newline
    rw [Bool.or_eq_false_iff] at plain
    rw [skip, if_neg (by simp [plain.2]), if_neg (by simp [plain.1])]
    · rintro tail rfl rfl
      exact (noComment rfl).2 rfl
    · rintro tail rfl rfl
      exact (noComment rfl).1 rfl

end Trivia

end EcmaSyntax
