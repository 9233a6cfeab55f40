import EcmaSyntax.Proofs.Form.Moved
import EcmaSyntax.Proofs.Grammar.Consumed
import EcmaSyntax.Proofs.Transport.Carrying

/-! Layout does not change the form. Blanks and comments put in front of a token or behind it leave all tokens
as they are, those further on at a later place; line terminators among them tell nothing where a line ended
before.
-/

namespace EcmaSyntax

open EcmaSyntax.Grammar

-----------------------------------------------------------------------------------------
-- Layout
-----------------------------------------------------------------------------------------

/-- Blanks, line terminators and complete block comments. -/
inductive Text.Layout : List Char → Prop
  | nil : Layout []
  | spacing {c : Char} {rest : List Char} (spaces : isSpacing c) (more : Layout rest)
    : Layout (c :: rest)
  | comment {body rest : List Char} (noEnd : ¬['*', '/'] <:+: body) (more : Layout rest)
    : Layout ('/' :: '*' :: (body ++ '*' :: '/' :: rest))

namespace Trivia

/-- A block comment is passed over up to its end. -/
theorem skip_comment (kept : List Char) (inside newline : Bool) {body : List Char}
    (noEnd : ¬['*', '/'] <:+: body) (rest : List Char)
    : skip (.blockComment kept inside) newline (body ++ '*' :: '/' :: rest)
        = skip .gap (newline || (inside || body.any Text.isLineTerminator)) rest := by
  induction body generalizing inside with
  | nil => simp [skip]
  | cons c body ih =>
      have noEndBody : ¬['*', '/'] <:+: body := fun within =>
        noEnd (within.trans (List.suffix_cons c body).isInfix)
      rw [List.cons_append, skip_inBlock, ih _ noEndBody, List.any_cons, Bool.or_assoc]
      rintro rfl head
      cases body with
      | nil => cases head
      | cons d body =>
          obtain rfl := Option.some.inj head
          exact noEnd ⟨[], body, rfl⟩

/-- Layout is passed over, and its line terminators are noted. -/
theorem skip_layout {layout : List Char} (isLayout : Text.Layout layout) (newline : Bool)
    (rest : List Char)
    : skip .gap newline (layout ++ rest)
        = skip .gap (newline || layout.any Text.isLineTerminator) rest := by
  induction isLayout generalizing newline with
  | nil => simp
  | spacing spaces _ ih =>
      rw [List.cons_append, skip_blank _ _ spaces, ih, List.any_cons, Bool.or_assoc]
  | @comment body inner noEnd _ ih =>
      have open_ : skip .gap newline ('/' :: '*' :: (body ++ '*' :: '/' :: (inner ++ rest)))
          = skip (.blockComment ('/' :: '*' :: (body ++ '*' :: '/' :: (inner ++ rest))) false) newline
              (body ++ '*' :: '/' :: (inner ++ rest)) := by
        rw [skip]
      have plain : ∀ c ∈ ['/', '*'], Text.isLineTerminator c = false := by
        simp [Text.isLineTerminator]
      simp only [List.cons_append, List.append_assoc]
      rw [open_, skip_comment _ _ _ noEnd, ih]
      simp [plain, Bool.or_assoc]

end Trivia

-----------------------------------------------------------------------------------------
-- Insertion
-----------------------------------------------------------------------------------------

namespace Relocation

/-- Of two beginnings the lower one stays the lower one when both are moved. -/
theorem start_min (place distance first second : Nat)
    : (if min first second < place then min first second else min first second + distance)
      = min (if first < place then first else first + distance)
          (if second < place then second else second + distance) := by
  grind

/-- Of two ends the higher one stays the higher one when both are moved. -/
theorem stop_max (place distance first second : Nat)
    : (if max first second ≤ place then max first second else max first second + distance)
      = max (if first ≤ place then first else first + distance)
          (if second ≤ place then second else second + distance) := by
  grind

/-- What lies at or behind a place is moved by a distance. A token that ends at the place stays. -/
def insertion (place distance : Nat) : Relocation where
  span inner :=
    if inner.start < inner.stop then
      {
        start := if inner.start < place then inner.start else inner.start + distance
        stop := if inner.stop ≤ place then inner.stop else inner.stop + distance
      }
    else
      .point (if inner.stop ≤ place then inner.stop else inner.stop + distance)
  stop offset := if offset ≤ place then offset else offset + distance
  newline token := token.afterNewline
  stop_span inner nonempty := congrArg Span.stop (if_pos nonempty)
  span_cover first second left right := by
    have nonempty : min first.start second.start < max first.stop second.stop :=
      Nat.lt_of_le_of_lt (Nat.min_le_left ..) (Nat.lt_of_lt_of_le left (Nat.le_max_left ..))
    simp only [Span.cover, left, right, nonempty, if_true, Span.mk.injEq]
    exact ⟨start_min .., stop_max ..⟩
  span_point offset _ := if_neg (Nat.lt_irrefl offset)

section Insertion

variable {script other : Script} {mode : LexMode} {before after layout : List Char} {token : Token}
variable {offset : Nat}

/-- An end behind the place is moved by the distance. -/
theorem stop_insertion (place distance offset : Nat)
    : (insertion place distance).stop offset
        = if offset ≤ place then offset else offset + distance :=
  rfl

/-- The ends of a span are moved apart if the place lies in it. -/
theorem span_insertion {place distance : Nat} {inner : Span} (nonempty : inner.start < inner.stop)
    : (insertion place distance).span inner
        = {
            start := if inner.start < place then inner.start else inner.start + distance
            stop := if inner.stop ≤ place then inner.stop else inner.stop + distance
          } :=
  if_pos nonempty

/-- Tokens in front of the place stay where they are. -/
theorem placesWithin_insertion_of_stop_le (source_eq : script.source = before ++ after)
    (other_eq : other.source = before ++ (layout ++ after)) (spaced : Text.Spaced (layout ++ after))
    (reaches : token.span.stop ≤ Text.size before)
    : (insertion (Text.size before) (Text.size layout)).PlacesWithin script other offset token := by
  intro mode next front gap text rest stands size_eq _ within
  have starts := stands.lies.start_eq
  have stops := stands.lies.stop_eq
  have nonempty := stands.start_lt_stop
  obtain ⟨middle, rfl, rfl⟩
      : ∃ middle, before = front ++ gap ++ text ++ middle ∧ rest = middle ++ after := by
    refine Text.exists_append_of_size_le ?_ (by simp only [Text.size_append]; omega)
    rw [← source_eq, stands.lies.source_eq]
    simp
  have follows : Text.MayFollow (middle ++ after) (middle ++ (layout ++ after)) := by
    cases middle with
    | nil => exact .inl spaced
    | cons c middle => exact .inr rfl
  refine ⟨front, gap, middle ++ (layout ++ after), ?_, stands.skip_eq follows, follows, ?_, ?_⟩
  · simp [other_eq]
  · rw [stop_insertion, if_pos (by simp only [Text.size_append]; omega), size_eq]
  · rw [span_insertion nonempty, if_pos (by omega), if_pos (by omega), starts, stops]

/-- Tokens behind the place move. -/
theorem placesWithin_insertion_of_lt (source_eq : script.source = before ++ after)
    (other_eq : other.source = before ++ (layout ++ after)) (beyond : Text.size before < offset)
    : (insertion (Text.size before) (Text.size layout)).PlacesWithin script other offset token := by
  intro mode next front gap text rest stands size_eq _ _
  have starts := stands.lies.start_eq
  have stops := stands.lies.stop_eq
  have nonempty := stands.start_lt_stop
  obtain ⟨middle, rfl, rfl⟩
      : ∃ middle, front = before ++ middle ∧ after = middle ++ (gap ++ (text ++ rest)) :=
    Text.exists_append_of_size_le (source_eq.symm.trans stands.lies.source_eq) (by omega)
  refine ⟨before ++ (layout ++ middle), gap, rest, ?_, stands.skipped, .inr rfl, ?_, ?_⟩
  · simp [other_eq]
  · rw [stop_insertion, if_neg (by omega), ← size_eq]
    simp only [Text.size_append]
    omega
  · rw [span_insertion nonempty, if_neg (by omega), if_neg (by omega), starts, stops]
    simp only [Text.size_append, Span.mk.injEq]
    omega

/-- The token in front of which layout is inserted moves, and keeps its line. -/
theorem placesWithin_insertion_of_between (source_eq : script.source = before ++ after)
    (other_eq : other.source = before ++ (layout ++ after)) (isLayout : Text.Layout layout)
    (edge : Text.size before = offset ∨ Text.size before = token.span.start)
    (lines
      : layout.any Text.isLineTerminator
        → (script.textOf { start := offset, stop := token.span.start }).any Text.isLineTerminator)
    : (insertion (Text.size before) (Text.size layout)).PlacesWithin script other offset token := by
  intro mode next front gap text rest stands size_eq same _
  have starts := stands.lies.start_eq
  have stops := stands.lies.stop_eq
  have nonempty := stands.start_lt_stop
  have gap_eq : script.textOf { start := offset, stop := token.span.start } = gap := by
    rw [Script.textOf, Text.slice?_eq_some.mpr, Option.getD_some]
    have sizes : offset + Text.size gap = token.span.start := by omega
    exact ⟨front, text ++ rest, stands.lies.source_eq, size_eq, sizes⟩
  have line : (layout.any Text.isLineTerminator || next.afterNewline) = next.afterNewline := by
    rw [gap_eq, ← stands.afterNewline_eq] at lines
    cases any : layout.any Text.isLineTerminator with
    | false => rfl
    | true => rw [lines any, Bool.or_true]
  rcases edge with edge | edge
  · obtain ⟨rfl, rfl⟩ := Text.append_inj_size (source_eq.symm.trans stands.lies.source_eq) (by omega)
    refine ⟨before, layout ++ gap, rest, ?_, ?_, .inr rfl, ?_, ?_⟩
    · simp [other_eq]
    · rw [List.append_assoc, Trivia.skip_layout isLayout, Bool.false_or, ← Bool.or_false (layout.any _),
        Trivia.skip_newline _ stands.skipped]
      exact congrArg (Trivia.ended · _) line
    · rw [stop_insertion, if_pos (by omega), size_eq]
    · rw [span_insertion nonempty, if_neg (by omega), if_neg (by omega), starts, stops]
      simp only [Text.size_append, Span.mk.injEq]
      omega
  · obtain ⟨rfl, rfl⟩
        : before = front ++ gap ∧ after = text ++ rest := by
      refine Text.append_inj_size ?_ (by simp only [Text.size_append]; omega)
      rw [← source_eq, stands.lies.source_eq, List.append_assoc]
    refine ⟨front, gap ++ layout, rest, ?_, ?_, .inr rfl, ?_, ?_⟩
    · simp [other_eq]
    · have passes := Trivia.passes_of_skip_append stands.skipped
      have onward := passes.onward (by simp [stands.present]) [] (layout ++ (text ++ rest))
      rw [List.append_assoc]
      refine onward.trans ?_
      rw [Trivia.skip_layout isLayout, stands.stops, Bool.or_comm]
      exact congrArg (Trivia.ended · _) line
    · rw [stop_insertion, if_pos (by simp only [Text.size_append] at edge ⊢; omega), size_eq]
    · rw [span_insertion nonempty, if_neg (by omega), if_neg (by omega), starts, stops]
      simp only [Text.size_append, Span.mk.injEq]
      omega

/-- An offset next to a token is in front of it, behind it, or neither behind its beginning nor in front of
the end of the token before.
-/
theorem edge_of_between {tokens front back : List Token} {place : Nat}
    (consumes : script.Consumes offset tokens) (row : tokens = front ++ token :: back)
    (edge : ∃ token ∈ tokens, place = token.span.start ∨ place = token.span.stop)
    (behind : Token.endOf offset front ≤ place) (within : place < token.span.stop)
    : place = Token.endOf offset front ∨ place = token.span.start := by
  subst row
  obtain ⟨consumesFront, _, _, consumesBack⟩ := Script.consumes_append.mp consumes
  obtain ⟨other, member, edge⟩ := edge
  rcases List.mem_append.mp member with inFront | inBack
  · have bounds := consumesFront.bounds other inFront
    omega
  · rcases List.mem_cons.mp inBack with rfl | inBack
    · omega
    · have bounds := consumesBack.bounds other inBack
      omega

/-- Tokens are carried over when layout is inserted next to one of them. -/
theorem carries_insertion {tokens : List Token} (source_eq : script.source = before ++ after)
    (other_eq : other.source = before ++ (layout ++ after)) (isLayout : Text.Layout layout)
    (spaced : Text.Spaced (layout ++ after)) (consumes : script.Consumes offset tokens)
    (valid : ∀ token ∈ tokens, token.kind ≠ .invalid)
    (edge
      : ∃ token ∈ tokens,
          Text.size before = token.span.start ∨ Text.size before = token.span.stop)
    (lines
      : ∀ front token back,
          tokens = front ++ token :: back →
          Token.endOf offset front ≤ Text.size before →
          Text.size before ≤ token.span.start →
          layout.any Text.isLineTerminator →
          (script.textOf
            {
              start := Token.endOf offset front
              stop := token.span.start
            }).any Text.isLineTerminator)
    : (insertion (Text.size before) (Text.size layout)).Carries script other false offset tokens := by
  refine carries_of fun front token back row => ?_
  have whole := consumes
  rw [row] at whole
  obtain ⟨_, read, present, _⟩ := Script.consumes_append.mp whole
  have bounds := read.start_lt_stop present
  refine PlacesWithin.carriesToken ?_ read present (valid token (by simp [row])) fun _ _ _ => rfl
  by_cases stays : token.span.stop ≤ Text.size before
  · exact placesWithin_insertion_of_stop_le source_eq other_eq spaced stays
  by_cases moves : Text.size before < Token.endOf offset front
  · exact placesWithin_insertion_of_lt source_eq other_eq moves
  · have near := edge_of_between consumes row edge (by omega) (by omega)
    exact placesWithin_insertion_of_between source_eq other_eq isLayout near
      (lines front token back row (by omega) (by omega))

/-- The end of the input is read behind layout, too. -/
theorem shows_insertion_of_ends {last : Token} (source_eq : script.source = before ++ after)
    (other_eq : other.source = before ++ (layout ++ after)) (isLayout : Text.Layout layout)
    (read : script.Reads .standard offset last) (ends : last.kind = .endOfInput)
    (behind : Text.size before ≤ offset)
    (lines
      : Text.size before = offset
        → layout.any Text.isLineTerminator
        → (script.textOf
            {
              start := offset
              stop := Text.size script.source
            }).any Text.isLineTerminator)
    : ∃ shown,
        other.Reads .standard ((insertion (Text.size before) (Text.size layout)).stop offset) shown
        ∧ last.Resembles false shown := by
  obtain ⟨front, gap, size_eq, source_eq', skipped⟩ := read.gap_of_ends ends
  rcases Nat.eq_or_lt_of_le behind with edge | beyond
  · obtain ⟨rfl, rfl⟩ := Text.append_inj_size (source_eq.symm.trans source_eq') (by omega)
    have passes : Trivia.Passes .gap false last.afterNewline after [] :=
      Trivia.passes_of_skip_append (by simpa using skipped)
    have line : after.any Text.isLineTerminator = last.afterNewline := by
      simpa [TriviaPlace.newline] using passes.newline_eq.symm
    have gap_eq
        : script.textOf { start := offset, stop := Text.size script.source } = after := by
      rw [Script.textOf, Text.slice?_eq_some.mpr, Option.getD_some]
      exact ⟨before, [], by simp [source_eq], size_eq, by simp [source_eq, ← size_eq]⟩
    have same : (layout.any Text.isLineTerminator || last.afterNewline) = last.afterNewline := by
      rw [gap_eq, line] at lines
      cases any : layout.any Text.isLineTerminator with
      | false => rfl
      | true => rw [lines edge any, Bool.or_true]
    have passed : Trivia.skip .gap false (layout ++ after) = .ended last.afterNewline [] := by
      rw [Trivia.skip_layout isLayout, Bool.false_or, ← Bool.or_false (layout.any _),
        Trivia.skip_newline _ skipped, same]
    obtain ⟨shown, readShown, endsShown, newline⟩ :=
      Script.exists_reads_end .standard other_eq passed
    refine ⟨shown, ?_, endsShown.trans ends.symm, fun _ => newline⟩
    rwa [stop_insertion, if_pos (by omega), ← edge]
  · obtain ⟨middle, rfl, rfl⟩ : ∃ middle, front = before ++ middle ∧ after = middle ++ gap :=
      Text.exists_append_of_size_le (source_eq.symm.trans source_eq') (by omega)
    have split : other.source = before ++ (layout ++ middle) ++ gap := by simp [other_eq]
    obtain ⟨shown, readShown, endsShown, line⟩ :=
      Script.exists_reads_end .standard split skipped
    refine ⟨shown, ?_, endsShown.trans ends.symm, fun _ => line⟩
    have stop_eq : Text.size (before ++ (layout ++ middle)) = offset + Text.size layout := by
      simp only [← size_eq, Text.size_append]
      omega
    rwa [stop_insertion, if_neg (by omega), ← stop_eq]

end Insertion

end Relocation

-----------------------------------------------------------------------------------------
-- Programs
-----------------------------------------------------------------------------------------

/-- A program that is carried over is one in the other text. -/
theorem Script.Holds.moved {script other : Script} {relocation : Relocation} {statements : List Stmt}
    {tokens : List Token} {last shown : Token} (holds : script.Holds statements tokens last)
    (dialect_eq : other.dialect = script.dialect)
    (carries : relocation.Carries script other false 0 tokens) (begins : relocation.stop 0 = 0)
    (read : other.Reads .standard (relocation.stop (Token.endOf 0 tokens)) shown)
    (resembles : last.Resembles false shown)
    : other.Holds (Moved.ofStmts relocation.span statements) (tokens.map relocation.token) shown := by
  have ends
      : Token.endOf (relocation.stop 0) (tokens.map relocation.token)
          = relocation.stop (Token.endOf 0 tokens) :=
    Relocation.endOf_map holds.statements.consumes
  have moved := holds.statements.moves dialect_eq false nofun carries (fun next readNext => by
    obtain rfl := readNext.unique holds.read
    exact ⟨shown, read, .inl resembles⟩) (by simp [Nonterminal.Attached, Phrase.Attached])
  rw [begins] at ends moved
  rw [Nonterminal.moved, map_moved_statement] at moved
  exact ⟨moved, by rwa [ends], resembles.kind_eq.trans holds.ends⟩

namespace Program

variable {source before after layout : List Char} {dialect : Dialect} {program : Program}

/-- The text between the tokens next to the offset, or between a token and an end of the source. -/
def gapAt (source : List Char) (dialect : Dialect) (offset : Nat) : List Char :=
  let tokens := tokens source dialect
  let start := Token.endOf 0 (tokens.takeWhile fun token => token.span.stop ≤ offset)
  let next := tokens.find? fun token => offset ≤ token.span.start
  let stop := (next.map fun token => token.span.start).getD (Text.size source)
  (Text.slice? start stop source).getD []

section Gaps

variable {script : Script} {front : List Token} {start place : Nat}

/-- The tokens in front of an offset. -/
theorem takeWhile_stop_le (consumes : script.Consumes start front)
    (behind : Token.endOf start front ≤ place) (back : List Token)
    : (front ++ back).takeWhile (fun token => token.span.stop ≤ place)
        = front ++ back.takeWhile fun token => token.span.stop ≤ place := by
  refine List.takeWhile_append_of_pos fun token member => ?_
  have := consumes.bounds token member
  simp only [decide_eq_true_eq]
  omega

/-- A search for the first token behind a place passes over the tokens that end in front of it. -/
theorem find?_le_start (consumes : script.Consumes start front)
    (behind : Token.endOf start front ≤ place) (back : List Token)
    : (front ++ back).find? (fun token => place ≤ token.span.start)
        = back.find? fun token => place ≤ token.span.start := by
  rw [List.find?_append, List.find?_eq_none.mpr, Option.none_or]
  intro token member
  have := consumes.bounds token member
  simp only [decide_eq_true_eq]
  omega

end Gaps

/-- Between two tokens, the gap reaches from the one to the other. -/
theorem gapAt_of_between {front back : List Token} {token : Token} {place : Nat}
    (consumes : Script.Consumes { source, dialect } 0 (tokens source dialect))
    (row : tokens source dialect = front ++ token :: back)
    (behind : Token.endOf 0 front ≤ place) (before : place ≤ token.span.start)
    : gapAt source dialect place
        = Script.textOf { source, dialect }
            {
              start := Token.endOf 0 front
              stop := token.span.start
            } := by
  rw [row] at consumes
  obtain ⟨consumesFront, read, present, _⟩ := Script.consumes_append.mp consumes
  have bounds := read.start_lt_stop present
  have ends : ¬token.span.stop ≤ place := by omega
  simp only [gapAt, row]
  rw [takeWhile_stop_le consumesFront behind, find?_le_start consumesFront behind]
  simp [ends, before, Script.textOf]

/-- Behind all tokens, the gap reaches up to the end of the source. -/
theorem gapAt_of_ends {place : Nat}
    (consumes : Script.Consumes { source, dialect } 0 (tokens source dialect))
    (behind : Token.endOf 0 (tokens source dialect) ≤ place)
    : gapAt source dialect place
        = Script.textOf { source, dialect }
            {
              start := Token.endOf 0 (tokens source dialect)
              stop := Text.size source
            } := by
  have all := takeWhile_stop_le consumes behind []
  have none := find?_le_start consumes behind []
  simp only [List.append_nil, List.takeWhile_nil, List.find?_nil] at all none
  simp only [gapAt, all, none]
  rfl

/-- Layout that is inserted next to a token does not change what a program means: the program is accepted and
has the same form. The layout begins with a space, whatever it ends with, and ends lines only where a line
ended before.
-/
theorem form_eq_of_layout (parsed : parse source dialect = .ok program) {token : Token}
    (consumed : token ∈ tokens source dialect) (split : source = before ++ after)
    (edge : Text.size before = token.span.start ∨ Text.size before = token.span.stop)
    (isLayout : Text.Layout layout) (opens : layout.head? = some ' ')
    (lines
      : layout.any Text.isLineTerminator
        → (gapAt source dialect (Text.size before)).any Text.isLineTerminator)
    : ∃ other,
        parse (before ++ (layout ++ after)) dialect = .ok other
        ∧ Form.ofProgram other = Form.ofProgram program := by
  obtain ⟨⟨last, holds⟩, _⟩ := holds_of_parse parsed
  have consumes := holds.statements.consumes
  have behind := (consumes.bounds token consumed)
  have spaced : Text.Spaced (layout ++ after) := by
    obtain ⟨rest, rfl⟩ := List.head?_eq_some_iff.mp opens
    rintro c tail same
    obtain rfl := (List.cons.inj same).1
    decide
  have carries
      : (Relocation.insertion (Text.size before) (Text.size layout)).Carries { source, dialect }
          { source := before ++ (layout ++ after), dialect } false 0 (tokens source dialect) := by
    refine Relocation.carries_insertion split rfl isLayout spaced consumes holds.statements.valid
      ⟨token, consumed, edge⟩ fun front next back row behind before any => ?_
    rw [← gapAt_of_between consumes row behind before]
    exact lines any
  obtain ⟨shown, readShown, resembles⟩
      : ∃ shown,
          Script.Reads { source := before ++ (layout ++ after), dialect } .standard
            ((Relocation.insertion (Text.size before) (Text.size layout)).stop
              (Token.endOf 0 (tokens source dialect)))
            shown
          ∧ last.Resembles false shown := by
    refine Relocation.shows_insertion_of_ends split rfl isLayout holds.read holds.ends (by omega)
      fun near any => ?_
    rw [near] at lines
    rw [← gapAt_of_ends consumes (Nat.le_refl _)]
    exact lines any
  have begins : (Relocation.insertion (Text.size before) (Text.size layout)).stop 0 = 0 := by
    rw [Relocation.stop_insertion, if_pos (Nat.zero_le _)]
  have moved := holds.moved (by rfl) carries begins readShown resembles
  exact ⟨_, parse_of_holds moved, congrArg Form.list (Form.ofStmts_moved _ _)⟩

/-- A comment of two lines behind a line terminator leaves the form as it is. -/
theorem form_eq_of_layout_comment
    : ∃ program other,
        parse "a\nb".toList .ecma = .ok program
        ∧ parse "a\n /*\n*/ b".toList .ecma = .ok other
        ∧ Form.ofProgram other = Form.ofProgram program := by
  have accepted : (parse "a\nb".toList .ecma).isOk := by decide +kernel
  obtain ⟨token, consumed, starts⟩
      : ∃ token ∈ tokens "a\nb".toList .ecma, Text.size ['a', '\n'] = token.span.start := by
    decide +kernel
  have comment : Text.Layout ('/' :: '*' :: (['\n'] ++ '*' :: '/' :: [' '])) :=
    .comment (by decide) (.spacing rfl .nil)
  have isLayout : Text.Layout [' ', '/', '*', '\n', '*', '/', ' '] := .spacing rfl comment
  have lines
      : [' ', '/', '*', '\n', '*', '/', ' '].any Text.isLineTerminator
        → (gapAt "a\nb".toList .ecma (Text.size ['a', '\n'])).any Text.isLineTerminator := by
    decide +kernel
  cases parsed : parse "a\nb".toList .ecma with
  | error failure =>
      rw [parsed] at accepted
      cases accepted
  | ok program =>
      obtain ⟨other, parsedOther, same⟩ :=
        form_eq_of_layout parsed consumed rfl (.inl starts) isLayout rfl lines
      exact ⟨program, other, rfl, parsedOther, same⟩

end Program

end EcmaSyntax
