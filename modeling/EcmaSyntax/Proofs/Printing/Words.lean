import EcmaSyntax.Proofs.Token.Cursor
import EcmaSyntax.Proofs.Token.Replacing

/-! Words, which are tokens as they are written, and the texts in which they stand one after the other
with a space between them. Such a text is read as the same words.
-/

namespace EcmaSyntax

/-- The text is an identifier or a reserved word, written without escapes. -/
def Text.IsName (text : List Char) : Prop :=
  ∃ c rest, text = c :: rest ∧ isIdentifierStart c ∧ ∀ part ∈ rest, isIdentifierPart part

/-- Every character of a name is one that identifiers go on with. -/
theorem Text.IsName.isIdentifierPart {text : List Char} (name : Text.IsName text)
    : ∀ c ∈ text, Text.isIdentifierPart c := by
  obtain ⟨c, rest, rfl, start, parts⟩ := name
  rintro d inside
  rcases List.mem_cons.mp inside with rfl | behind
  · exact isIdentifierPart_of_start start
  · exact parts d behind

/-- A character that may open an identifier begins no trivia. -/
theorem Trivia.stops_of_start {c : Char} {rest : List Char} (start : Text.isIdentifierStart c)
    : Stops (c :: rest) := by
  refine stops_cons.mpr ⟨?_, ?_⟩
  · rw [← Bool.not_eq_true]
    intro spacing
    rw [Scan.isIdentifierStart_of_spacing spacing] at start
    cases start
  · rintro rfl
    exact absurd start (by decide)

theorem Text.nameChars_cons {c : Char} {text : List Char} (plain : c ≠ '\\')
    : nameChars 0 (c :: text) = c :: nameChars 0 text := by
  rw [nameChars]
  rintro rest rfl
  exact absurd rfl plain

/-- A text without escapes spells itself. -/
theorem Text.nameChars_of_plain {text : List Char} (plain : '\\' ∉ text) : nameChars 0 text = text := by
  induction text with
  | nil => rfl
  | cons c text ih =>
      rw [List.mem_cons, not_or] at plain
      rw [nameChars_cons (Ne.symm plain.1), ih plain.2]

/-- A name without escapes stands for itself. -/
theorem Text.IsName.decodeName {name : String} (written : Text.IsName name.toList)
    : Text.decodeName name.toList = name := by
  have noEscape : '\\' ∉ name.toList := by
    intro inside
    exact absurd (written.isIdentifierPart _ inside) (by decide)
  rw [Text.decodeName, nameChars_of_plain noEscape, String.ofList_toList]

/-- A token as it is written. -/
structure Word where
  kind : Kind
  text : List Char
  deriving DecidableEq, Repr

namespace Word

/-- The only spelling of a kind. -/
def ofKind (kind : Kind) : Word :=
  {
    kind
    text := ((kind.punctuator?.orElse fun _ => kind.word?).getD "").toList
  }

/-- An identifier or reserved word. -/
def ofName (name : String) : Word :=
  {
    kind := (wordKind? name.toList).getD .identifier
    text := name.toList
  }

/-- The words one after the other, with a space between them. -/
def spaced (words : List Word) : List Char :=
  List.intercalate [' '] (words.map Word.text)

/-- The words with a space in front of each. -/
def trailing (words : List Word) : List Char :=
  words.flatMap fun word => ' ' :: word.text

/-- The text of the word alone is one token of its kind. -/
structure WellFormed (word : Word) : Prop where
  scanned : Scan.token .standard word.text = Scan.found word.kind []
  present : word.text ≠ []
  stops : Trivia.Stops word.text

theorem spaced_cons (word : Word) (words : List Word)
    : spaced (word :: words) = word.text ++ trailing words := by
  induction words generalizing word with
  | nil => simp [spaced, trailing]
  | cons next words ih =>
      have more := ih next
      simp only [spaced, trailing, List.map_cons, List.flatMap_cons] at more ⊢
      rw [List.intercalate_cons_cons, more]
      simp

/-- Words with a space in front of each are spaced from what is in front of them. -/
theorem spaced_trailing (words : List Word) : Text.Spaced (trailing words) := by
  intro c rest same
  cases words with
  | nil => cases same
  | cons word words =>
      obtain ⟨rfl, _⟩ := List.cons.inj same
      decide

-----------------------------------------------------------------------------------------
-- Which words are well-formed
-----------------------------------------------------------------------------------------

/-- Tells the texts that begin with a mark and neither with a number nor with a comment. -/
def opensWithMark : List Char → Bool
  | [] => false
  | c :: rest =>
      !Text.isSpacing c && !Text.isIdentifierStart c && !Text.isDigit c
      && !(c = '.' && rest.head?.any Text.isDigit)
      && !(c = '/' && (rest.head? = some '/' || rest.head? = some '*'))
      && c ≠ '\\' && c ≠ '"' && c ≠ '\''

/-- What begins with a mark is read as a punctuator. -/
theorem token_of_opensWithMark {text : List Char} (opens : opensWithMark text)
    : Scan.token .standard text = Scan.punctuator text
      ∧ text ≠ []
      ∧ Trivia.Stops text := by
  cases text with
  | nil => cases opens
  | cons c rest =>
      simp only [opensWithMark, Bool.and_eq_true, Bool.not_eq_true', decide_eq_true_eq] at opens
      obtain ⟨⟨marks, noDouble⟩, noSingle⟩ := opens
      obtain ⟨⟨⟨⟨⟨visible, noStart⟩, noDigit⟩, noDot⟩, noComment⟩, noEscape⟩ := marks
      have noNumber : ¬Scan.OpensNumber c rest := by
        rintro (digit | ⟨rfl, digit⟩)
        · rw [digit] at noDigit
          cases noDigit
        · simp [digit] at noDot
      have scans : Scan.Scans .standard (c :: rest) (Scan.punctuator (c :: rest)) :=
        .punctuator noEscape (by simp [noStart]) noNumber ⟨noDouble, noSingle⟩ fun _ => by decide
      refine ⟨scans.eq_token, by simp, Trivia.stops_cons.mpr ⟨visible, fun slash => ?_⟩⟩
      simpa [slash] using noComment

/-- A punctuator is the longest one that opens its spelling. -/
theorem wellFormed_of_mem_punctuators {kind : Kind} {spelling : String}
    (listed : (kind, spelling) ∈ punctuators)
    : ({ kind, text := spelling.toList } : Word).WellFormed := by
  have marked : ∀ entry ∈ punctuators, opensWithMark entry.2.toList := by decide
  obtain ⟨token, present, stops⟩ := token_of_opensWithMark (marked _ listed)
  have longest : longestPunctuator? spelling.toList = some (kind, spelling) :=
    longestPunctuator?_eq_some.mpr ⟨listed, List.prefix_rfl, fun _ _ opens => by
      simpa only [String.length_toList] using opens.length_le⟩
  refine ⟨?_, present, stops⟩
  rw [token, Scan.punctuator, longest]
  simp [← String.length_toList]

/-- A name is read as the word that it is. -/
theorem wellFormed_ofName {name : String} (written : Text.IsName name.toList)
    : (ofName name).WellFormed := by
  have parts := written.isIdentifierPart
  obtain ⟨c, rest, text_eq, start, _⟩ := written
  have whole : name.toList.takeWhile Text.isIdentifierPart = name.toList :=
    List.takeWhile_eq_self_iff.mpr parts
  have present : name.toList ≠ [] := by simp [text_eq]
  refine ⟨?_, present, ?_⟩
  · have scanned := Scan.word_of_ends name.toList (Scan.ends_nil _)
    rw [whole, List.append_nil] at scanned
    rw [ofName, ← scanned]
    dsimp only
    rw [text_eq]
    exact (Scan.Scans.word start).eq_token
  · rw [ofName, text_eq]
    exact Trivia.stops_of_start start

/-- The reserved words are names. -/
theorem isName_of_mem_reservedWords {kind : Kind} {spelling : String}
    (listed : (kind, spelling) ∈ reservedWords)
    : Text.IsName spelling.toList := by
  have letters
      : ∀ entry ∈ reservedWords,
          entry.2.toList ≠ [] ∧ entry.2.toList.all Text.isIdentifierStart := by
    decide
  obtain ⟨present, letters⟩ := letters _ listed
  obtain ⟨c, rest, text_eq⟩ := List.exists_cons_of_ne_nil present
  rw [text_eq, List.all_eq_true] at letters
  exact ⟨c, rest, text_eq, letters c List.mem_cons_self, fun part member =>
    Text.isIdentifierPart_of_start (letters part (.tail _ member))⟩

/-- Every kind with one spelling is well-formed in it. -/
theorem wellFormed_ofKind {kind : Kind} (spelled : kind.punctuator?.isSome || kind.isWord)
    : (ofKind kind).WellFormed := by
  unfold ofKind
  cases mark : kind.punctuator? with
  | some spelling =>
      exact wellFormed_of_mem_punctuators (mem_of_lookup mark)
  | none =>
      rw [mark] at spelled
      obtain ⟨spelling, word⟩ := Option.isSome_iff_exists.mp spelled
      have listed : (kind, spelling) ∈ reservedWords := mem_of_lookup word
      have wellFormed := wellFormed_ofName (isName_of_mem_reservedWords listed)
      rw [ofName, wordKind?_of_mem listed] at wellFormed
      rw [word]
      exact wellFormed

end Word

-----------------------------------------------------------------------------------------
-- How a text of words is read
-----------------------------------------------------------------------------------------

namespace Script

variable {script : Script} {offset : Nat}

/-- The tokens are read one after the other from the offset on, all on one line, as the words. -/
def Spells (script : Script) : Nat → List Token → List Word → Prop
  | _, [], [] => True
  | offset, token :: tokens, word :: words =>
      script.Reads .standard offset token
      ∧ token.kind = word.kind
      ∧ token.afterNewline = false
      ∧ script.textOf token.span = word.text
      ∧ script.Spells token.span.stop tokens words
  | _, _, _ => False

/-- The next token ends the input, on the same line. -/
def EndsAt (script : Script) (offset : Nat) : Prop :=
  ∃ last,
    script.Reads .standard offset last ∧ last.kind = .endOfInput ∧ last.afterNewline = false

/-- The first of some words is read at the offset, and the others behind it. -/
theorem spells_cons {tokens : List Token} {word : Word} {words : List Word}
    (spells : script.Spells offset tokens (word :: words))
    : ∃ token rest,
        tokens = token :: rest
        ∧ script.Reads .standard offset token
        ∧ token.kind = word.kind
        ∧ token.afterNewline = false
        ∧ script.textOf token.span = word.text
        ∧ script.Spells token.span.stop rest words := by
  cases tokens with
  | nil => exact spells.elim
  | cons token rest => exact ⟨token, rest, rfl, spells⟩

theorem spells_nil {tokens : List Token} (spells : script.Spells offset tokens []) : tokens = [] := by
  cases tokens with
  | nil => rfl
  | cons => exact spells.elim

/-- Words in two parts are spelled by tokens in two parts. -/
theorem spells_append {tokens : List Token} {first second : List Word}
    (spells : script.Spells offset tokens (first ++ second))
    : ∃ front back,
        tokens = front ++ back
        ∧ script.Spells offset front first
        ∧ script.Spells (Token.endOf offset front) back second := by
  induction first generalizing offset tokens with
  | nil => exact ⟨[], tokens, rfl, trivial, spells⟩
  | cons word first ih =>
      obtain ⟨token, tokens, rfl, read, kind_eq, sameLine, text_eq, spells⟩ := spells_cons spells
      obtain ⟨front, back, rfl, spelled, behind⟩ := ih spells
      exact ⟨token :: front, back, rfl, ⟨read, kind_eq, sameLine, text_eq, spelled⟩, behind⟩

/-- A well-formed word is read where it stands in front of spacing. -/
theorem reads_word {front gap rest : List Char} {word : Word} (wellFormed : word.WellFormed)
    (source_eq : script.source = front ++ (gap ++ (word.text ++ rest)))
    (spaced : Text.Spaced rest) (blank : gap = [] ∨ gap = [' '])
    : ∃ token,
        script.Reads .standard (Text.size front) token
        ∧ token.kind = word.kind
        ∧ token.afterNewline = false
        ∧ script.textOf token.span = word.text
        ∧ token.span.stop = Text.size (front ++ (gap ++ word.text)) := by
  obtain ⟨text, present, text_eq, finds⟩ := Scan.token_replace wellFormed.scanned wellFormed.present
  rw [List.append_nil] at text_eq
  subst text_eq
  have alone : Trivia.Stops (word.text ++ []) := by
    rw [List.append_nil]
    exact wellFormed.stops
  have stops : Trivia.Stops (word.text ++ rest) := alone.replace present (.inl spaced)
  have skipped
      : Trivia.skip .gap false (gap ++ (word.text ++ rest)) = .ended false (word.text ++ rest) := by
    rcases blank with rfl | rfl
    · exact stops false
    · exact (Trivia.skip_blank false _ (by decide)).trans (stops false)
  have read := Token.read?_of_scan front skipped (finds rest (.inl spaced))
  rw [← source_eq] at read
  refine ⟨_, read, rfl, rfl, ?_, by simp [Nat.add_assoc]⟩
  have cut
      : Text.slice? (Text.size front + Text.size gap)
          (Text.size front + Text.size gap + Text.size word.text) script.source
        = some word.text :=
    Text.slice?_eq_some.mpr ⟨front ++ gap, rest, by simp [source_eq], by simp, rfl⟩
  rw [textOf, cut, Option.getD_some]

/-- A text that goes on with well-formed words, each after a space, is read as these words. -/
theorem spells_trailing {words : List Word} (wellFormed : ∀ word ∈ words, word.WellFormed)
    (front : List Char) (source_eq : script.source = front ++ Word.trailing words)
    : ∃ tokens,
        script.Spells (Text.size front) tokens words
        ∧ script.EndsAt (Token.endOf (Text.size front) tokens) := by
  induction words generalizing front with
  | nil =>
      have skipped : Trivia.skip .gap false ([] ++ ([] ++ [])) = .ended false ([] ++ []) := rfl
      have scanned : Scan.token .standard ([] ++ []) = Scan.found .endOfInput [] := rfl
      have read := Token.read?_of_scan front skipped scanned
      have source_eq' : front ++ ([] ++ ([] ++ [])) = script.source := source_eq.symm
      rw [source_eq'] at read
      exact ⟨[], trivial, _, read, rfl, rfl⟩
  | cons word words ih =>
      have source_eq' : script.source = front ++ ([' '] ++ (word.text ++ Word.trailing words)) := by
        simp [source_eq, Word.trailing]
      obtain ⟨token, read, kind_eq, sameLine, text_eq, stop_eq⟩ :=
        reads_word (wellFormed word (List.mem_cons_self ..)) source_eq' (Word.spaced_trailing words)
          (.inr rfl)
      have behind
          : script.source = (front ++ ([' '] ++ word.text)) ++ Word.trailing words := by
        simp [source_eq']
      obtain ⟨tokens, spells, ends⟩ :=
        ih (fun word inside => wellFormed word (List.mem_cons_of_mem _ inside)) _ behind
      rw [← stop_eq] at spells ends
      exact ⟨token :: tokens, ⟨read, kind_eq, sameLine, text_eq, spells⟩, ends⟩

/-- A text of well-formed words with a space between them is read as these words. -/
theorem spells_spaced {words : List Word} (wellFormed : ∀ word ∈ words, word.WellFormed)
    (source_eq : script.source = Word.spaced words)
    : ∃ tokens, script.Spells 0 tokens words ∧ script.EndsAt (Token.endOf 0 tokens) := by
  cases words with
  | nil => exact spells_trailing wellFormed [] source_eq
  | cons word words =>
      have source_eq' : script.source = [] ++ ([] ++ (word.text ++ Word.trailing words)) := by
        rw [source_eq, Word.spaced_cons]
        rfl
      obtain ⟨token, read, kind_eq, sameLine, text_eq, stop_eq⟩ :=
        reads_word (wellFormed word (List.mem_cons_self ..)) source_eq' (Word.spaced_trailing words)
          (.inl rfl)
      obtain ⟨tokens, spells, ends⟩ := spells_trailing
        (fun word inside => wellFormed word (List.mem_cons_of_mem _ inside)) word.text source_eq'
      rw [List.nil_append, List.nil_append] at stop_eq
      rw [← stop_eq] at spells ends
      exact ⟨token :: tokens, ⟨read, kind_eq, sameLine, text_eq, spells⟩, ends⟩

end Script

end EcmaSyntax
