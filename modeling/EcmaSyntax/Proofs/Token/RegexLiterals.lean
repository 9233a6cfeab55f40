import EcmaSyntax.Proofs.Token.Cursor
import EcmaSyntax.Proofs.Token.Replacing

/-! Regular expression literals. The scanner goes by two states, the grammar by pieces: plain characters,
escapes and bracketed classes. Both delimit the same literals, and a text begins with at most one.
-/

namespace EcmaSyntax

-----------------------------------------------------------------------------------------
-- The grammar between the slashes
-----------------------------------------------------------------------------------------

/-- What stands between the brackets of a class: escapes and all characters but the closing bracket. -/
inductive Text.IsRegexClass : List Char → Prop
  | nil : IsRegexClass []
  | plain {c : Char} {rest : List Char} (noEscape : c ≠ '\\') (noEnd : c ≠ ']')
    (inLine : isLineTerminator c = false) (more : IsRegexClass rest)
    : IsRegexClass (c :: rest)
  | escape {c : Char} {rest : List Char} (inLine : isLineTerminator c = false)
    (more : IsRegexClass rest)
    : IsRegexClass ('\\' :: c :: rest)

/-- What stands between the slashes of a regular expression. -/
inductive Text.IsRegexBody : List Char → Prop
  | nil : IsRegexBody []
  | plain {c : Char} {rest : List Char} (noEscape : c ≠ '\\') (noEnd : c ≠ '/')
    (noClass : c ≠ '[') (inLine : isLineTerminator c = false) (more : IsRegexBody rest)
    : IsRegexBody (c :: rest)
  | escape {c : Char} {rest : List Char} (inLine : isLineTerminator c = false)
    (more : IsRegexBody rest)
    : IsRegexBody ('\\' :: c :: rest)
  | bracketed {inner rest : List Char} (within : IsRegexClass inner) (more : IsRegexBody rest)
    : IsRegexBody ('[' :: (inner ++ ']' :: rest))

/-- The text is a regular expression between its slashes, without flags. -/
def Text.IsDelimitedRegex (text : List Char) : Prop :=
  ∃ body, IsRegexBody body ∧ text = '/' :: (body ++ ['/'])

namespace Text

variable {body other inner rest tail : List Char}

/-- A class ends at its first closing bracket outside of escapes. -/
theorem IsRegexClass.unique (within : IsRegexClass inner) (withinToo : IsRegexClass other)
    (same : inner ++ ']' :: rest = other ++ ']' :: tail)
    : inner = other ∧ rest = tail := by
  induction within generalizing other with
  | nil =>
      cases withinToo with
      | nil => exact ⟨rfl, (List.cons.inj same).2⟩
      | plain _ noEnd => exact absurd (List.cons.inj same).1.symm noEnd
      | escape => cases (List.cons.inj same).1
  | plain noEscape noEnd _ _ ih =>
      cases withinToo with
      | nil => exact absurd (List.cons.inj same).1 noEnd
      | plain _ _ _ more =>
          obtain ⟨rfl, onward⟩ := List.cons.inj same
          obtain ⟨rfl, rest_eq⟩ := ih more onward
          exact ⟨rfl, rest_eq⟩
      | escape => exact absurd (List.cons.inj same).1 noEscape
  | escape _ _ ih =>
      cases withinToo with
      | nil => cases (List.cons.inj same).1
      | plain noEscape => exact absurd (List.cons.inj same).1.symm noEscape
      | escape _ more =>
          obtain ⟨rfl, onward⟩ := List.cons.inj (List.cons.inj same).2
          obtain ⟨rfl, rest_eq⟩ := ih more onward
          exact ⟨rfl, rest_eq⟩

/-- A text begins with at most one body in front of a slash, since the slash is the first one outside of
escapes and classes.
-/
theorem IsRegexBody.unique (within : IsRegexBody body) (withinToo : IsRegexBody other)
    (same : body ++ '/' :: rest = other ++ '/' :: tail)
    : body = other := by
  induction within generalizing other with
  | nil =>
      cases withinToo with
      | nil => rfl
      | plain _ noEnd => exact absurd (List.cons.inj same).1.symm noEnd
      | escape | bracketed => cases (List.cons.inj same).1
  | plain noEscape noEnd noClass _ _ ih =>
      cases withinToo with
      | nil => exact absurd (List.cons.inj same).1 noEnd
      | plain _ _ _ _ more =>
          obtain ⟨rfl, onward⟩ := List.cons.inj same
          rw [ih more onward]
      | escape => exact absurd (List.cons.inj same).1 noEscape
      | bracketed => exact absurd (List.cons.inj same).1 noClass
  | escape _ _ ih =>
      cases withinToo with
      | nil | bracketed => cases (List.cons.inj same).1
      | plain noEscape => exact absurd (List.cons.inj same).1.symm noEscape
      | escape _ more =>
          obtain ⟨rfl, onward⟩ := List.cons.inj (List.cons.inj same).2
          rw [ih more onward]
  | bracketed within _ ih =>
      cases withinToo with
      | nil | escape => cases (List.cons.inj same).1
      | plain _ _ noClass => exact absurd (List.cons.inj same).1.symm noClass
      | bracketed withinToo more =>
          simp only [List.cons_append, List.append_assoc, List.cons.injEq, true_and] at same
          obtain ⟨rfl, onward⟩ := within.unique withinToo same
          rw [ih more onward]

/-- A text begins with at most one regular expression. -/
theorem IsDelimitedRegex.unique {front : List Char} (delimited : IsDelimitedRegex front)
    (delimitedToo : IsDelimitedRegex other) (same : front ++ rest = other ++ tail)
    : front = other := by
  obtain ⟨body, isBody, rfl⟩ := delimited
  obtain ⟨inner, isBodyToo, rfl⟩ := delimitedToo
  simp only [List.cons_append, List.append_assoc, List.nil_append, List.cons.injEq, true_and] at same
  rw [isBody.unique isBodyToo same]

end Text

-----------------------------------------------------------------------------------------
-- The scanner follows the grammar
-----------------------------------------------------------------------------------------

namespace Scan

variable {body inner rest : List Char} {kind : Kind}

/-- The scanner passes over a class up to its closing bracket. -/
theorem regex_class (within : Text.IsRegexClass inner) (rest : List Char)
    : regex true (inner ++ ']' :: rest) = regex false rest := by
  induction within with
  | nil =>
      rw [List.nil_append, regex_cons (by decide), if_neg (by decide), if_neg (by decide)]
      rfl
  | @plain c _ noEscape noEnd inLine _ ih =>
      have stays : (c = '[' || true && c != ']') = true := by simp [noEnd]
      rw [List.cons_append, regex_cons noEscape, if_neg (by simp [inLine]), if_neg (by simp), stays]
      exact ih
  | escape inLine _ ih =>
      rw [List.cons_append, List.cons_append, regex, if_neg (by simp [inLine])]
      exact ih

/-- The scanner passes over what stands between the slashes, and goes on with the flags. -/
theorem regex_body (within : Text.IsRegexBody body) (rest : List Char)
    : regex false (body ++ '/' :: rest) = regexFlags rest := by
  induction within with
  | nil => rw [List.nil_append, regex_cons (by decide), if_neg (by decide), if_pos (by decide)]
  | plain noEscape noEnd noClass inLine _ ih =>
      rw [List.cons_append, regex_cons noEscape, if_neg (by simp [inLine]), if_neg (by simp [noEnd])]
      simpa [noClass] using ih
  | escape inLine _ ih =>
      rw [List.cons_append, List.cons_append, regex, if_neg (by simp [inLine])]
      exact ih
  | bracketed within _ ih =>
      rw [List.cons_append, regex_cons (by decide), if_neg (by decide), if_neg (by decide),
        List.append_assoc, List.cons_append]
      exact (regex_class within _).trans ih

/-- What the scanner passes over from one of its states on: the rest of an open class, and a body. -/
def RegexBehind : Bool → List Char → Prop
  | false, text => Text.IsRegexBody text
  | true, text =>
      ∃ inner body, Text.IsRegexClass inner ∧ Text.IsRegexBody body ∧ text = inner ++ ']' :: body

/-- A plain character in front of what the scanner passes over is passed over too. -/
theorem RegexBehind.cons {inClass : Bool} {c : Char} (plain : c ≠ '\\')
    (inLine : Text.isLineTerminator c = false) (goesOn : c = '/' → inClass = true)
    (behind : RegexBehind (c = '[' || inClass && c != ']') body)
    : RegexBehind inClass (c :: body) := by
  cases inClass with
  | false =>
      by_cases opens : c = '['
      · subst opens
        obtain ⟨inner, rest, isClass, isBody, rfl⟩ := behind
        exact .bracketed isClass isBody
      · have isBody : RegexBehind false body := by simpa [opens] using behind
        exact .plain plain (fun slash => by cases goesOn slash) opens inLine isBody
  | true =>
      by_cases closes : c = ']'
      · subst closes
        exact ⟨[], body, .nil, behind, rfl⟩
      · have stays : (c = '[' || true && c != ']') = true := by simp [closes]
        rw [stays] at behind
        obtain ⟨inner, rest, isClass, isBody, rfl⟩ := behind
        exact ⟨c :: inner, rest, .plain plain closes inLine isClass, isBody, rfl⟩

/-- Either the grammar goes on to a closing slash, or the scanner fails behind characters of one line. -/
theorem regex_outcome (inClass : Bool) (text : List Char)
    : (∃ body tail, text = body ++ '/' :: tail ∧ RegexBehind inClass body)
      ∨ ∃ front rest,
          text = front ++ rest
          ∧ regex inClass text = failed .unterminatedRegex rest
          ∧ ∀ c ∈ front, Text.isLineTerminator c = false := by
  fun_induction regex inClass text with
  | case1 inClass => exact .inr ⟨[], [], rfl, rfl, List.forall_mem_nil _⟩
  | case2 inClass c rest terminator =>
      exact .inr ⟨['\\'], c :: rest, rfl, rfl, List.forall_mem_singleton.mpr (by decide)⟩
  | case3 inClass c rest inLine ih =>
      rw [Bool.not_eq_true] at inLine
      rcases ih with ⟨body, tail, rfl, behind⟩ | ⟨front, left, rfl, failed, within⟩
      · refine .inl ⟨'\\' :: c :: body, tail, rfl, ?_⟩
        cases inClass with
        | false => exact .escape inLine behind
        | true =>
            obtain ⟨inner, rest, isClass, isBody, rfl⟩ := behind
            exact ⟨'\\' :: c :: inner, rest, .escape inLine isClass, isBody, rfl⟩
      · refine .inr ⟨'\\' :: c :: front, left, rfl, failed, ?_⟩
        exact List.forall_mem_cons.mpr ⟨by decide, List.forall_mem_cons.mpr ⟨inLine, within⟩⟩
  | case4 inClass => exact .inr ⟨['\\'], [], rfl, rfl, List.forall_mem_singleton.mpr (by decide)⟩
  | case5 inClass c rest => exact .inr ⟨[], c :: rest, rfl, rfl, List.forall_mem_nil _⟩
  | case6 inClass c rest _ _ _ closes =>
      simp only [Bool.and_eq_true, decide_eq_true_eq, Bool.not_eq_true'] at closes
      obtain ⟨rfl, rfl⟩ := closes
      exact .inl ⟨[], rest, rfl, .nil⟩
  | case7 inClass c rest noEscape noEnd inLine goesOn ih =>
      have plain := plain_of_not_escape noEscape noEnd
      rw [Bool.not_eq_true] at inLine
      rcases ih with ⟨body, tail, rfl, behind⟩ | ⟨front, left, rfl, failed, within⟩
      · refine .inl ⟨c :: body, tail, rfl, ?_⟩
        exact RegexBehind.cons plain inLine (by simpa using goesOn) behind
      · exact .inr ⟨c :: front, left, rfl, failed, List.forall_mem_cons.mpr ⟨inLine, within⟩⟩

end Scan

-----------------------------------------------------------------------------------------
-- Regular expressions as tokens
-----------------------------------------------------------------------------------------

variable {script : Script} {offset : Nat} {rest : List Char}

theorem Trivia.stops_slash (noComment : rest.head? ≠ some '/' ∧ rest.head? ≠ some '*')
    : Trivia.Stops ('/' :: rest) :=
  Trivia.stops_cons.mpr ⟨by decide, fun _ => noComment⟩

/-- A regular expression is read together with the characters of identifiers that follow it. -/
theorem Script.reads_delimitedRegex {front tail : List Char}
    (cut : Text.drop? offset script.source = some ('/' :: rest))
    (noComment : rest.head? ≠ some '/' ∧ rest.head? ≠ some '*')
    (delimited : Text.IsDelimitedRegex front) (opens : '/' :: rest = front ++ tail)
    : script.Reads .regex offset
        {
          kind := .literalRegex
          span :=
            {
              start := offset
              stop := offset + Text.size (front ++ tail.takeWhile Text.asciiPartSet.contains)
            }
          afterNewline := false
        } := by
  have stops := Trivia.stops_slash noComment
  obtain ⟨body, isBody, rfl⟩ := delimited
  have flags := List.takeWhile_append_dropWhile (p := Text.asciiPartSet.contains) (l := tail)
  have whole
      : '/' :: rest
        = '/' :: (body ++ ['/']) ++ tail.takeWhile Text.asciiPartSet.contains
          ++ tail.dropWhile Text.asciiPartSet.contains := by
    rw [List.append_assoc, flags, opens]
  have scanned
      : Scan.token .regex ('/' :: rest)
        = Scan.found .literalRegex (tail.dropWhile Text.asciiPartSet.contains) := by
    have rest_eq : rest = body ++ '/' :: tail := by simpa using opens
    rw [rest_eq]
    exact Scan.regex_body isBody tail
  rw [whole] at cut stops scanned
  exact Token.read?_of_stops cut stops scanned

/-- A slash that begins no comment begins a regular expression where an operand is due if and only if the
grammar delimits one there. There is only one to delimit, and the token is that with its flags; without
one the token is invalid and ends within the line.
-/
theorem Script.exists_reads_regex (cut : Text.drop? offset script.source = some ('/' :: rest))
    (noComment : rest.head? ≠ some '/' ∧ rest.head? ≠ some '*')
    : ∃ token,
        script.Reads .regex offset token
        ∧ (token.kind = .literalRegex
            ↔ ∃ front tail, Text.IsDelimitedRegex front ∧ '/' :: rest = front ++ tail)
        ∧ (∀ front tail,
            Text.IsDelimitedRegex front →
            '/' :: rest = front ++ tail →
            (∀ other left,
              Text.IsDelimitedRegex other → '/' :: rest = other ++ left → other = front)
            ∧ token
              = {
                  kind := .literalRegex
                  span :=
                    {
                      start := offset
                      stop :=
                        offset + Text.size (front ++ tail.takeWhile Text.asciiPartSet.contains)
                    }
                  afterNewline := false
                })
        ∧ (token.kind ≠ .literalRegex →
            ∃ text left,
              '/' :: rest = text ++ left
              ∧ (∀ c ∈ text, Text.isLineTerminator c = false)
              ∧ token
                = {
                    kind := .invalid
                    span :=
                      {
                        start := offset
                        stop := offset + Text.size text
                      }
                    afterNewline := false
                    lexical := some .unterminatedRegex
                  }) := by
  rcases Scan.regex_outcome false rest with
    ⟨body, tail, rfl, isBody⟩ | ⟨front, left, rfl, failed, within⟩
  · have delimited : Text.IsDelimitedRegex ('/' :: (body ++ ['/'])) := ⟨body, isBody, rfl⟩
    have opens : '/' :: (body ++ '/' :: tail) = '/' :: (body ++ ['/']) ++ tail := by simp
    have read := reads_delimitedRegex cut noComment delimited opens
    refine ⟨_, read, iff_of_true rfl ⟨_, _, delimited, opens⟩, ?_, fun other => absurd rfl other⟩
    intro front left delimitedToo opensToo
    refine ⟨fun other _ delimitedThird opensThird => ?_, ?_⟩
    · exact delimitedThird.unique delimitedToo (opensThird.symm.trans opensToo)
    · exact read.unique (reads_delimitedRegex cut noComment delimitedToo opensToo)
  · have stops := Trivia.stops_slash noComment
    have cut : Text.drop? offset script.source = some (('/' :: front) ++ left) := cut
    have scanned
        : Scan.token .regex (('/' :: front) ++ left) = Scan.failed .unterminatedRegex left := failed
    -- What the grammar delimits would have been scanned.
    have undelimited
        : ¬∃ opening tail, Text.IsDelimitedRegex opening ∧ '/' :: (front ++ left) = opening ++ tail := by
      rintro ⟨opening, tail, ⟨body, isBody, rfl⟩, opens⟩
      have body_eq : front ++ left = body ++ '/' :: tail := by simpa using opens
      rw [body_eq, Scan.regex_body isBody] at failed
      exact Scan.failed_ne_found failed.symm
    refine ⟨_, Token.read?_of_failed cut stops scanned,
      iff_of_false nofun undelimited, ?_, fun _ => ⟨'/' :: front, left, rfl, ?_, rfl⟩⟩
    · exact fun opening tail delimited opens => absurd ⟨opening, tail, delimited, opens⟩ undelimited
    · exact List.forall_mem_cons.mpr ⟨by decide, within⟩

/-- A class with a slash and an escaped bracket, an escaped slash, a bracket that closes nothing, and flags
up to a letter beyond ASCII.
-/
theorem Script.exists_reads_regex_class
    : Text.drop? 2 "=\n/[/\\]]\\/]/gié".toList = some "/[/\\]]\\/]/gié".toList
      ∧ ("[/\\]]\\/]/gié".toList.head? ≠ some '/' ∧ "[/\\]]\\/]/gié".toList.head? ≠ some '*')
      ∧ ∃ token,
          Script.Reads
              {
                source := "=\n/[/\\]]\\/]/gié".toList
                dialect := .js
              }
              .regex 2 token
          ∧ token
            = {
                kind := .literalRegex
                span :=
                  {
                    start := 2
                    stop := 14
                  }
                afterNewline := false
              } := by
  have cut
      : Text.drop? 2 "=\n/[/\\]]\\/]/gié".toList = some ('/' :: "[/\\]]\\/]/gié".toList) := by
    decide
  have noComment
      : "[/\\]]\\/]/gié".toList.head? ≠ some '/' ∧ "[/\\]]\\/]/gié".toList.head? ≠ some '*' := by
    decide
  have delimited : Text.IsDelimitedRegex "/[/\\]]\\/]/".toList :=
    ⟨"[/\\]]\\/]".toList,
      .bracketed (.plain (by decide) (by decide) (by decide) (.escape (by decide) .nil))
        (.escape (by decide) (.plain (by decide) (by decide) (by decide) (by decide) .nil)),
      rfl⟩
  obtain ⟨token, read, _, literal, _⟩ :=
    @exists_reads_regex ⟨"=\n/[/\\]]\\/]/gié".toList, .js⟩ 2 _ cut noComment
  exact ⟨cut, noComment, token, read, (literal _ "gié".toList delimited rfl).2.trans (by decide)⟩

end EcmaSyntax
