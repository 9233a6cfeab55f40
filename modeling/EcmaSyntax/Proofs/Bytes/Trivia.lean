import EcmaSyntax.Proofs.Bytes.Search
import EcmaSyntax.Proofs.Token.Trivia
import Mathlib.Data.List.TakeWhile

/-! Trivia, passed over by byte offsets. Patterns tell the trivia at the beginning of the text, and
within a comment the place of its end or of a line terminator.
-/

namespace EcmaSyntax.Bytes

open Text (size)

/-- What trivia begin with. -/
def gapPatterns : Patterns Kind :=
  [
    (.lineTerminator, ['\r']), (.lineTerminator, ['\n']), (.lineTerminator, ['\u2028']),
    (.lineTerminator, ['\u2029']), (.commentMultiline, ['/', '*']), (.commentSingle, ['/', '/'])
  ]
  ++ Text.blanks.map fun c => (.whitespace, [c])

/-- What matters within a block comment. -/
def commentPatterns : Patterns Kind :=
  [
    (.commentMultilineEnd, ['*', '/']), (.lineTerminator, ['\r']), (.lineTerminator, ['\n']),
    (.lineTerminator, ['\u2028']), (.lineTerminator, ['\u2029'])
  ]

namespace Lexing

/-- The bytes of the rest of the line. -/
def widthOfLine : Lexing Nat := do
  let text ← rest
  let line ← present (Text.take? ((indexOfEither '\n' '\r' (ofText text)).getD (size text)) text)
  return size (line.takeWhile fun c => c ≠ '\u2028' && c ≠ '\u2029')

/-- Goes on to the next line terminator of a block comment, or to its end. -/
def blockCommentStep (newline : Bool) : Lexing (Bool ⊕ Bool) := do
  match firstMatch commentPatterns (ofText (← rest)) with
  | none => do
      toEnd
      fail .unterminatedComment
  | some (.commentMultilineEnd, stop) => do
      advance stop
      return .inr newline
  | some (.lineTerminator, stop) => do
      advance stop
      return .inl true
  | some _ => outside

/-- Passes over a block comment and says whether it contains a line terminator. -/
def blockComment : Lexing Bool := do
  advance 2
  repeating blockCommentStep false

/-- Passes over a line comment. -/
def lineComment : Lexing Unit := do
  advance 2
  let width ← widthOfLine
  advance width

/-- Passes over one piece of trivia. At the end of the trivia it says whether a line has ended, and where
a comment begins that does not end. -/
def gapStep (newline : Bool) : Lexing (Bool ⊕ Bool × Option (Nat × Cause)) := do
  match ← opening gapPatterns with
  | none => return .inr (newline, none)
  | some (.lineTerminator, width) => do
      advance width
      return .inl true
  | some (.whitespace, width) => do
      advance width
      return .inl newline
  | some (.commentMultiline, _) => do
      let start ← offset
      match ← attempt blockComment with
      | .ok inside => return .inl (newline || inside)
      | .error cause => return .inr (newline, some (start, cause))
  | some (.commentSingle, _) => do
      lineComment
      return .inl newline
  | some _ => outside

end Lexing

variable {source text rest : List Char} {c : Char}

-----------------------------------------------------------------------------------------
-- Patterns of trivia
-----------------------------------------------------------------------------------------

theorem mem_gapPatterns {entry : Kind × List Char}
    : entry ∈ gapPatterns
      ↔ entry = (.commentMultiline, ['/', '*'])
        ∨ entry = (.commentSingle, ['/', '/'])
        ∨ ∃ c,
            (Text.isLineTerminator c ∧ entry = (.lineTerminator, [c]))
            ∨ Text.isBlank c ∧ entry = (.whitespace, [c]) := by
  simp only [gapPatterns, List.mem_append, List.mem_cons, List.mem_map, List.not_mem_nil, or_false,
    Text.isLineTerminator, Text.isBlank, List.contains_iff_mem, Bool.or_eq_true, decide_eq_true_eq]
  aesop

/-- The pattern of trivia that a text begins with. -/
def gapOf : List Char → Option (Kind × List Char)
  | '/' :: '*' :: _ => some (.commentMultiline, ['/', '*'])
  | '/' :: '/' :: _ => some (.commentSingle, ['/', '/'])
  | c :: _ =>
      if Text.isLineTerminator c then some (.lineTerminator, [c])
      else if Text.isBlank c then some (.whitespace, [c])
      else none
  | [] => none

/-- No two pieces of trivia open one text, so the longest pattern is the only one. -/
theorem gapPatterns_apart : Patterns.Apart gapPatterns := by
  unfold Patterns.Apart
  decide

/-- The pattern that opens a text tells what piece of trivia it begins with. -/
theorem longestAt_gapPatterns (text : List Char) : longestAt gapPatterns (ofText text) = gapOf text := by
  fun_cases gapOf text with
  | case1 rest =>
      exact gapPatterns_apart.longestAt_eq_some (mem_gapPatterns.mpr (.inl rfl)) ⟨rest, rfl⟩
  | case2 rest =>
      exact gapPatterns_apart.longestAt_eq_some (mem_gapPatterns.mpr (.inr (.inl rfl))) ⟨rest, rfl⟩
  | case3 c rest noBlock noLine terminator =>
      exact gapPatterns_apart.longestAt_eq_some
        (mem_gapPatterns.mpr (.inr (.inr ⟨c, .inl ⟨terminator, rfl⟩⟩))) ⟨rest, rfl⟩
  | case4 c rest noBlock noLine _ blank =>
      exact gapPatterns_apart.longestAt_eq_some
        (mem_gapPatterns.mpr (.inr (.inr ⟨c, .inr ⟨blank, rfl⟩⟩))) ⟨rest, rfl⟩
  | case5 c rest noBlock noLine noTerminator noBlank =>
      refine longestAt_eq_none.mpr fun entry member opens => ?_
      rcases mem_gapPatterns.mp member with rfl | rfl | ⟨d, ⟨terminator, rfl⟩ | ⟨blank, rfl⟩⟩
      · obtain ⟨tail, same⟩ := opens
        injection same with same tail_eq
        exact noBlock tail same.symm tail_eq.symm
      · obtain ⟨tail, same⟩ := opens
        injection same with same tail_eq
        exact noLine tail same.symm tail_eq.symm
      · exact noTerminator (singleton_prefix_cons.mp opens ▸ terminator)
      · exact noBlank (singleton_prefix_cons.mp opens ▸ blank)
  | case6 =>
      refine longestAt_eq_none.mpr fun entry member opens => ?_
      have present : ∀ entry ∈ gapPatterns, entry.2 ≠ [] := by decide
      exact present entry member (List.prefix_nil.mp opens)

/-- The end of a comment and line terminators do not open one text. -/
theorem commentPatterns_apart : Patterns.Apart commentPatterns := by
  unfold Patterns.Apart
  decide

theorem mem_commentPatterns {entry : Kind × List Char}
    : entry ∈ commentPatterns
      ↔ entry = (.commentMultilineEnd, ['*', '/'])
        ∨ ∃ c, Text.isLineTerminator c ∧ entry = (.lineTerminator, [c]) := by
  simp only [commentPatterns, List.mem_cons, List.not_mem_nil, or_false, Text.isLineTerminator,
    Bool.or_eq_true, decide_eq_true_eq]
  aesop

-----------------------------------------------------------------------------------------
-- Comments
-----------------------------------------------------------------------------------------

/-- How a block comment ends after its opening, with whether it contains a line terminator. -/
def commentRest : Bool → List Char → Except Cause Bool × List Char
  | inside, '*' :: '/' :: rest => (.ok inside, rest)
  | inside, c :: rest => commentRest (inside || Text.isLineTerminator c) rest
  | _, [] => (.error .unterminatedComment, [])

/-- Trivia go on behind a block comment that ends. -/
theorem skip_blockComment (kept : List Char) (inside newline : Bool) (text : List Char)
    : Trivia.skip (.blockComment kept inside) newline text
      = match commentRest inside text with
        | (.ok after, rest) => Trivia.skip .gap (newline || after) rest
        | (.error _, _) => .unterminated newline kept := by
  fun_induction commentRest inside text with
  | case1 inside rest => rw [Trivia.skip]
  | case2 inside c rest noEnd ih => rw [Trivia.skip_inBlock kept inside newline rest (by
      rintro rfl opens
      cases rest with
      | nil => cases opens
      | cons d tail => cases opens; exact noEnd tail rfl rfl), ih]
  | case3 => rw [Trivia.skip]

/-- The matches in a text that goes on with `text`, if there are none before. -/
theorem blockComment_loops {run : List Char} {inside : Bool}
    (before
      : firstMatch commentPatterns (ofText (run ++ text))
        = (firstMatch commentPatterns (ofText text)).map fun (found, stop) =>
            (found, stop + size run))
    : Loops source Lexing.blockCommentStep inside (run ++ text) (commentRest inside text).1
        (commentRest inside text).2 := by
  have present : ∀ entry ∈ commentPatterns, entry.2 ≠ [] := by decide
  fun_induction commentRest inside text generalizing run with
  | case1 inside rest =>
      have opens := commentPatterns_apart.longestAt_eq_some (mem_commentPatterns.mpr (.inl rfl))
        (⟨rest, rfl⟩ : ['*', '/'] <+: '*' :: '/' :: rest)
      rw [firstMatch_cons present, opens] at before
      refine .stop ((Gives.rest_ _).bind ?_)
      rw [before]
      have passed
          : Gives source (Lexing.advance (size ['*', '/'] + size run)) (run ++ '*' :: '/' :: rest)
              (.ok ⟨⟩) rest := by
        simpa [Nat.add_comm] using Gives.advance (run ++ ['*', '/']) rest
      exact passed.bind (.pure _ rest)
  | case2 inside c rest noEnd ih =>
      by_cases terminator : Text.isLineTerminator c
      · have opens := commentPatterns_apart.longestAt_eq_some
          (mem_commentPatterns.mpr (.inr ⟨c, terminator, rfl⟩)) (⟨rest, rfl⟩ : [c] <+: c :: rest)
        rw [firstMatch_cons present, opens] at before
        have passed
            : Gives source (Lexing.advance (size [c] + size run)) (run ++ c :: rest) (.ok ⟨⟩) rest := by
          simpa [Nat.add_comm] using Gives.advance (run ++ [c]) rest
        have step
            : Gives source (Lexing.blockCommentStep inside) (run ++ c :: rest) (.ok (.inl true)) rest := by
          refine (Gives.rest_ _).bind ?_
          rw [before]
          exact passed.bind (.pure _ rest)
        have onward := @ih [] (by simp)
        rw [terminator, Bool.or_true] at onward ⊢
        exact .more step (by simp; omega) onward
      · have closed : longestAt commentPatterns (ofText (c :: rest)) = none := by
          refine longestAt_eq_none.mpr fun entry member opens => ?_
          rcases mem_commentPatterns.mp member with rfl | ⟨d, isTerminator, rfl⟩
          · obtain ⟨tail, same⟩ := opens
            injection same with same tail_eq
            exact noEnd tail same.symm tail_eq.symm
          · exact terminator (singleton_prefix_cons.mp opens ▸ isTerminator)
        rw [firstMatch_cons present, closed] at before
        have onward := @ih (run ++ [c]) (by
          rw [List.append_assoc, List.singleton_append, before, Option.map_map]
          congr 1
          funext ⟨found, stop⟩
          simp [Nat.add_assoc, Nat.add_comm])
        simpa [Bool.not_eq_true _ ▸ terminator] using onward
  | case3 inside =>
      refine .fail ((Gives.rest_ _).bind ?_)
      rw [before]
      exact (Gives.toEnd _).bind (.fail _ [])

/-- A block comment is searched for its end and for line terminators, which come in the order of the
text.
-/
theorem Gives.blockComment (text : List Char)
    : Gives source Lexing.blockComment ('/' :: '*' :: text) (commentRest false text).1
        (commentRest false text).2 := by
  have loops : Loops source Lexing.blockCommentStep false ([] ++ text) _ _ :=
    blockComment_loops (by simp)
  exact (Gives.advance ['/', '*'] text).bind loops.gives

/-- The rest of the line is as wide as its characters are. -/
theorem Gives.widthOfLine (text : List Char)
    : Gives source Lexing.widthOfLine text
        (.ok (size (text.takeWhile fun c => !Text.isLineTerminator c))) text := by
  refine (Gives.rest_ text).bind ?_
  have line {among : Char → Bool}
      : Text.take? (size (text.takeWhile among)) text = some (text.takeWhile among) :=
    Text.take?_eq_some.mpr ⟨_, List.takeWhile_append_dropWhile.symm, rfl⟩
  rw [indexOfEither_getD text (by decide), line]
  refine (Gives.pure _ text).bind ?_
  rw [List.takeWhile_takeWhile]
  have classes
      : (fun c =>
          decide ((decide (c ≠ '\u2028') && decide (c ≠ '\u2029')) = true
            ∧ (decide (c ≠ '\n') && decide (c ≠ '\r')) = true))
        = fun c => !Text.isLineTerminator c := by
    funext c
    simp [Text.isLineTerminator]
    grind
  rw [classes]
  exact .pure _ text

/-- A line comment ends in front of the next line terminator. -/
theorem Gives.lineComment (text : List Char)
    : Gives source Lexing.lineComment ('/' :: '/' :: text) (.ok ⟨⟩)
        (text.dropWhile fun c => !Text.isLineTerminator c) :=
  (Gives.advance ['/', '/'] text).bind ((Gives.widthOfLine text).bind (.advance_takeWhile _ text))

/-- A line comment ends before a line terminator, which is trivia again. -/
theorem skip_lineComment (newline : Bool) (text : List Char)
    : Trivia.skip .lineComment newline text
      = Trivia.skip .gap newline (text.dropWhile fun c => !Text.isLineTerminator c) := by
  induction text with
  | nil => simp [Trivia.skip]
  | cons c rest ih =>
      rw [Trivia.skip]
      split
      next terminator =>
        have blank : (Text.isBlank c || Text.isLineTerminator c) = true := by simp [terminator]
        simp [terminator, Trivia.skip_blank newline rest blank]
      next inner => simp [inner, ih]

/-- What is left behind a block comment is no longer than what it began with. -/
theorem length_le_of_commentRest {inside : Bool} {result : Except Cause Bool}
    (ends : commentRest inside text = (result, rest))
    : rest.length ≤ text.length := by
  fun_induction commentRest inside text with
  | case1 =>
      cases ends
      simp only [List.length_cons]
      omega
  | case2 inside c tail noEnd ih => exact Nat.le_succ_of_le (ih ends)
  | case3 =>
      cases ends
      exact Nat.le_refl _

/-- A block comment fails in one way, at the end of the text. -/
theorem of_commentRest_error {inside : Bool} {cause : Cause}
    (ends : commentRest inside text = (.error cause, rest))
    : cause = .unterminatedComment ∧ rest = [] := by
  fun_induction commentRest inside text with
  | case1 => cases ends
  | case2 inside c tail noEnd ih => exact ih ends
  | case3 =>
      cases ends
      exact ⟨rfl, rfl⟩

-----------------------------------------------------------------------------------------
-- All trivia
-----------------------------------------------------------------------------------------

/-- How trivia end, as byte offsets tell it, and what follows: nothing after an open comment. -/
def gapEnd (source : List Char) : Trivia → (Bool × Option (Nat × Cause)) × List Char
  | .ended newline rest => ((newline, none), rest)
  | .unterminated newline comment =>
      ((newline, some (offsetOf source comment, .unterminatedComment)), [])

/-- The loop over trivia ends where the trivia do, by induction on their length. -/
theorem gap_loops (source : List Char) (newline : Bool) (text : List Char)
    : Loops source Lexing.gapStep newline text
        (.ok (gapEnd source (Trivia.skip .gap newline text)).1)
        (gapEnd source (Trivia.skip .gap newline text)).2 := by
  induction length_eq : text.length using Nat.strong_induction_on generalizing newline text with
  | h length ih =>
  subst length_eq
  have opening := Gives.opening source gapPatterns text
  rw [longestAt_gapPatterns] at opening
  revert opening
  fun_cases gapOf text with
  | case1 rest =>
      intro opening
      rw [Trivia.skip, skip_blockComment]
      have comment : Gives source _ _ _ _ := (Gives.blockComment rest).attempt
      cases ends : commentRest false rest with
      | mk result after =>
          rw [ends] at comment
          cases result with
          | ok inside =>
              have shorter : after.length < ('/' :: '*' :: rest).length :=
                Nat.lt_succ_of_le (Nat.le_succ_of_le (length_le_of_commentRest ends))
              exact .more (opening.bind ((Gives.offset _).bind (comment.bind (.pure _ _)))) shorter
                (ih _ shorter _ _ rfl)
          | error cause =>
              obtain ⟨rfl, rfl⟩ := of_commentRest_error ends
              exact .stop (opening.bind ((Gives.offset _).bind (comment.bind (.pure _ _))))
  | case2 rest =>
      intro opening
      rw [Trivia.skip, skip_lineComment]
      have shorter
          : (rest.dropWhile fun c => !Text.isLineTerminator c).length < ('/' :: '/' :: rest).length :=
        Nat.lt_succ_of_le (Nat.le_succ_of_le (List.length_dropWhile_le _ rest))
      exact .more (opening.bind ((Gives.lineComment rest).bind (.pure _ _))) shorter
        (ih _ shorter _ _ rfl)
  | case3 c rest noBlock noLine terminator =>
      intro opening
      have blank : (Text.isBlank c || Text.isLineTerminator c) = true := by simp [terminator]
      rw [Trivia.skip_blank newline rest blank, terminator, Bool.or_true]
      exact .more (opening.bind ((Gives.advance [c] rest).bind (.pure _ _))) (Nat.lt_succ_self _)
        (ih _ (Nat.lt_succ_self _) _ _ rfl)
  | case4 c rest noBlock noLine noTerminator blank =>
      intro opening
      rw [Bool.not_eq_true] at noTerminator
      have spacing : (Text.isBlank c || Text.isLineTerminator c) = true := by simp [blank]
      rw [Trivia.skip_blank newline rest spacing, noTerminator, Bool.or_false]
      exact .more (opening.bind ((Gives.advance [c] rest).bind (.pure _ _))) (Nat.lt_succ_self _)
        (ih _ (Nat.lt_succ_self _) _ _ rfl)
  | case5 c rest noBlock noLine noTerminator noBlank =>
      intro opening
      have stops : Trivia.Stops (c :: rest) := by
        refine Trivia.stops_cons.mpr ⟨by simp [noTerminator, noBlank], fun slash => ?_⟩
        constructor
        · intro head
          exact noLine rest.tail slash (List.eq_cons_of_mem_head? head)
        · intro head
          exact noBlock rest.tail slash (List.eq_cons_of_mem_head? head)
      rw [stops newline]
      exact .stop (opening.bind (.pure _ _))
  | case6 =>
      intro opening
      have ended : Trivia.skip .gap newline [] = .ended newline [] := by simp [Trivia.skip]
      rw [ended]
      exact .stop (opening.bind (.pure _ _))

end EcmaSyntax.Bytes
