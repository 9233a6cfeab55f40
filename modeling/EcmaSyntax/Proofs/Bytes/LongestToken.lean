import EcmaSyntax.Proofs.Bytes.Lexer

/-! The lexer by byte offsets takes the longest word or punctuator. What its patterns find first, the
front of a word or a word that is a front of another, does not show in the token.
-/

namespace EcmaSyntax.Bytes

open Text (size)

/-- A text of identifier characters that begins an identifier, and behind it neither another one nor an
escape.
-/
structure IsWholeWord (word rest : List Char) : Prop where
  begins : word.head?.any Text.isIdentifierStart
  parts : ∀ c ∈ word, Text.isIdentifierPart c
  maximal : ∀ c, rest.head? = some c → Text.isIdentifierPart c = false
  noEscape : rest.head? ≠ some '\\'

/-- The text begins with no identifier, number or string. -/
structure OpensNoOperand (text : List Char) : Prop where
  noStart : text.head?.any Text.isIdentifierStart = false
  noEscape : text.head? ≠ some '\\'
  noDigit : text.head?.any Text.isDigit = false
  noFraction : text.head? = some '.' → text.tail.head?.any Text.isDigit = false
  noQuote : text.head? ≠ some '"' ∧ text.head? ≠ some '\''

/-- The punctuator opens the text. Where an operand is due a slash is none. -/
structure Punctuates (mode : LexMode) (text : List Char) (entry : Kind × String) : Prop where
  listed : entry ∈ punctuators
  opens : entry.2.toList <+: text
  noRegex : mode = .regex → entry.2 ≠ "/" ∧ entry.2 ≠ "/="

/-- The valid token that takes up the text from the offset on. -/
def tokenOver (kind : Kind) (newline : Bool) (start : Nat) (text : List Char) : Token :=
  {
    kind
    span :=
      {
        start
        stop := start + size text
      }
    afterNewline := newline
  }

variable {source gap body word text rest : List Char} {offset : Nat} {newline : Bool} {kind : Kind}
variable {mode : LexMode} {entry : Kind × String}

-----------------------------------------------------------------------------------------
-- What is scanned
-----------------------------------------------------------------------------------------

/-- A whole word is scanned as what the table has for it. -/
theorem IsWholeWord.token (whole : IsWholeWord word rest) (mode : LexMode)
    : Scan.token mode (word ++ rest) = Scan.found ((wordKind? word).getD .identifier) rest := by
  have ends : Scan.Ends Scan.continuesName rest := by
    rintro c tail rfl
    have noEscape : c ≠ '\\' := fun same => whole.noEscape (congrArg some same)
    simp [Scan.continuesName, noEscape, whole.maximal c rfl]
  have taken : word.takeWhile Text.isIdentifierPart = word := List.takeWhile_eq_self_iff.mpr whole.parts
  have scanned := Scan.word_of_ends word ends
  rw [taken] at scanned
  rw [← scanned]
  have begins := whole.begins
  cases word with
  | nil => cases begins
  | cons c tail => exact Scan.Scans.eq_token (.word begins)

/-- Among the punctuators, those with a slash in front are the two that a regular expression hides. -/
theorem head?_eq_slash_iff (listed : entry ∈ punctuators)
    : entry.2.toList.head? = some '/' ↔ entry.2 = "/" ∨ entry.2 = "/=" := by
  have all : ∀ entry ∈ punctuators,
      entry.2.toList.head? = some '/' ↔ entry.2 = "/" ∨ entry.2 = "/=" := by
    decide
  exact all entry listed

/-- A punctuator that opens a text has the first character of the text. -/
theorem Punctuates.head?_eq (punctuates : Punctuates mode text entry)
    : text.head? = entry.2.toList.head? := by
  have present := spelling_ne_nil entry punctuates.listed
  obtain ⟨rest, rfl⟩ := punctuates.opens
  exact List.head?_append_of_ne_nil _ present

/-- Where a punctuator opens a text, the text begins with a slash only if that is no regular expression. -/
theorem Punctuates.noSlash (punctuates : Punctuates mode text entry) (slash : text.head? = some '/')
    : mode ≠ .regex := by
  rw [punctuates.head?_eq, head?_eq_slash_iff punctuates.listed] at slash
  intro operand
  obtain ⟨noSlash, noEquals⟩ := punctuates.noRegex operand
  exact slash.elim noSlash noEquals

/-- The longest punctuator that opens the text is one in the mode, if any is. -/
theorem Punctuates.of_longest {other : Kind × String} (punctuates : Punctuates mode text other)
    (longest : OpensLongest text entry)
    : Punctuates mode text entry := by
  have outside : Punctuates .standard text entry := ⟨longest.member, longest.opens, nofun⟩
  refine ⟨longest.member, longest.opens, fun operand => not_or.mp ?_⟩
  rw [← head?_eq_slash_iff longest.member, ← outside.head?_eq]
  exact fun slash => punctuates.noSlash slash operand

/-- Where nothing else begins, the longest punctuator is scanned. -/
theorem OpensNoOperand.token (plain : OpensNoOperand text) (punctuates : Punctuates mode text entry)
    : ∃ longest rest,
        Punctuates mode text longest
        ∧ (∀ other, Punctuates mode text other → other.2.length ≤ longest.2.length)
        ∧ text = longest.2.toList ++ rest
        ∧ Scan.token mode text = Scan.found longest.1 rest := by
  obtain ⟨longest, found⟩ := exists_longestPunctuator? punctuates.listed punctuates.opens
  have opens := longestPunctuator?_eq_some.mp found
  obtain ⟨rest, split⟩ := opens.opens
  refine ⟨longest, rest, punctuates.of_longest opens, ?_, split.symm, ?_⟩
  · exact fun other among => opens.longest other among.listed among.opens
  · have scanned : Scan.punctuator text = Scan.found longest.1 rest := by
      rw [Scan.punctuator, found, ← split]
      simp [← String.length_toList]
    rw [← scanned]
    cases text with
    | nil => exact absurd (List.append_eq_nil_iff.mp split).1 (spelling_ne_nil longest opens.member)
    | cons c tail =>
        refine Scan.Scans.eq_token (.punctuator ?_ ?_ ?_ ?_ ?_)
        · exact fun same => plain.noEscape (congrArg some same)
        · exact Bool.not_eq_true _ ▸ plain.noStart
        · rintro (digit | ⟨point, fraction⟩)
          · exact absurd digit (Bool.not_eq_true _ ▸ plain.noDigit)
          · exact absurd fraction (Bool.not_eq_true _ ▸ plain.noFraction (congrArg some point))
        · exact ⟨fun same => plain.noQuote.1 (congrArg some same),
            fun same => plain.noQuote.2 (congrArg some same)⟩
        · exact fun slash => punctuates.noSlash (congrArg some slash)

-----------------------------------------------------------------------------------------
-- What the lexer finds
-----------------------------------------------------------------------------------------

/-- What is scanned behind trivia, the lexer finds there. -/
theorem lexNext_of_token (cut : Text.drop? offset source = some (gap ++ body))
    (skipped : Trivia.skip .gap false (gap ++ body) = .ended newline body)
    (spelled : body = text ++ rest) (scanned : Scan.token mode body = Scan.found kind rest)
    : Lexing.lexNext mode source offset
      = some
          (.ok (tokenOver kind newline (offset + size gap) text), offset + size gap + size text) := by
  have before : size (gap ++ body) - size body = size gap := by
    rw [Text.size_append, Nat.add_sub_cancel]
  have width : size body - size rest = size text := by
    rw [spelled, Text.size_append, Nat.add_sub_cancel]
  rw [lexNext_eq_read?, Token.read?, cut, Option.map_some, Lexeme.read, skipped]
  simp only [Lexeme.ofScan, scanned, Scan.found, Lexeme.placedAt, before, width, Option.map_some]
  rfl

/-- Behind trivia, a whole word is one token: the reserved word that it spells, or an identifier. Where no
identifier, number or string begins and a punctuator stands, the token is the longest punctuator.
-/
theorem lexNext_longest (cut : Text.drop? offset source = some (gap ++ body))
    (skipped : Trivia.skip .gap false (gap ++ body) = .ended newline body)
    : (∀ word rest,
        body = word ++ rest →
        IsWholeWord word rest →
        Lexing.lexNext mode source offset
          = some
              (.ok
                (tokenOver ((wordKind? word).getD .identifier) newline (offset + size gap) word),
                offset + size gap + size word))
      ∧ ((∃ entry, Punctuates mode body entry) →
          OpensNoOperand body →
          ∃ entry,
            Punctuates mode body entry
            ∧ (∀ other, Punctuates mode body other → other.2.length ≤ entry.2.length)
            ∧ Lexing.lexNext mode source offset
              = some
                  (.ok (tokenOver entry.1 newline (offset + size gap) entry.2.toList),
                    offset + size gap + size entry.2.toList)) := by
  constructor
  · intro word rest spelled whole
    refine lexNext_of_token cut skipped spelled ?_
    rw [spelled]
    exact whole.token mode
  · rintro ⟨entry, punctuates⟩ plain
    obtain ⟨longest, rest, among, bound, spelled, scanned⟩ := plain.token punctuates
    exact ⟨longest, among, bound, lexNext_of_token cut skipped spelled scanned⟩

/-- A reserved word that begins a longer word, after a comment over two lines, and a punctuator that begins
with three others.
-/
theorem lexNext_longest_instanceof
    : Lexing.lexNext .regex "/*\n*/ instanceofé>>>=b".toList 0
          = some (.ok (tokenOver .identifier true 6 "instanceofé".toList), 18)
        ∧ ∃ entry,
            Punctuates .regex ">>>=b".toList entry
            ∧ (∀ other,
                Punctuates .regex ">>>=b".toList other → other.2.length ≤ entry.2.length)
            ∧ Lexing.lexNext .regex "/*\n*/ instanceofé>>>=b".toList 18
              = some
                  (.ok (tokenOver entry.1 false 18 entry.2.toList), 18 + size entry.2.toList) := by
  have head : ">>>=b".toList.head? = some '>' := by decide
  have word : IsWholeWord "instanceofé".toList ">>>=b".toList :=
    {
      begins := by decide +kernel
      parts := List.all_eq_true.mp (by decide +kernel)
      maximal := by
        intro c first
        obtain rfl := Option.some.inj (head.symm.trans first)
        decide
      noEscape := by decide
    }
  have punctuator : Punctuates .regex ">>>=b".toList (.chevronRight, ">") :=
    {
      listed := by decide
      opens := by decide
      noRegex := by decide
    }
  have plain : OpensNoOperand ">>>=b".toList :=
    {
      noStart := by rw [head]; decide
      noEscape := by decide
      noDigit := by decide
      noFraction := by decide
      noQuote := by decide
    }
  have cut
      : Text.drop? 0 "/*\n*/ instanceofé>>>=b".toList
          = some ("/*\n*/ ".toList ++ "instanceofé>>>=b".toList) := by
    decide +kernel
  have skipped
      : Trivia.skip .gap false ("/*\n*/ ".toList ++ "instanceofé>>>=b".toList)
          = .ended true "instanceofé>>>=b".toList := by
    decide +kernel
  have cutBehind
      : Text.drop? 18 "/*\n*/ instanceofé>>>=b".toList = some ([] ++ ">>>=b".toList) := by
    decide +kernel
  have skippedNothing
      : Trivia.skip .gap false ([] ++ ">>>=b".toList) = .ended false ">>>=b".toList := by
    decide +kernel
  exact ⟨(lexNext_longest cut skipped).1 _ _ rfl word,
    (lexNext_longest cutBehind skippedNothing).2 ⟨_, punctuator⟩ plain⟩

end EcmaSyntax.Bytes
