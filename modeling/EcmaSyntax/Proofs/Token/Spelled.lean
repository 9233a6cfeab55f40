import EcmaSyntax.Proofs.Token.Tiling

/-! What is known of the source from a token: a kind that has one spelling is written that way, and between
the place where a token is looked for and its beginning a line ends if the token says so. Neither depends
on the mode in which the token was read.
-/

namespace EcmaSyntax

-----------------------------------------------------------------------------------------
-- Spellings
-----------------------------------------------------------------------------------------

/-- The one way in which a token of the kind is written, if there is one. -/
def Kind.spelling? (kind : Kind) : Option String :=
  kind.punctuator?.orElse fun _ => kind.word?

/-- Every entry of the tables tells the spelling of its kind. -/
theorem spelling?_of_mem
    : ∀ entry ∈ reservedWords ++ punctuators, entry.1.spelling? = some entry.2 := by
  decide

namespace Scan

variable {mode : LexMode} {text rest : List Char} {kind : Kind} {spelling : String}

/-- A reserved word is found only where it is written. -/
theorem word_spelling (scanned : word (text ++ rest) = found kind rest)
    (spells : kind.spelling? = some spelling)
    : text = spelling.toList := by
  have whole := List.takeWhile_append_dropWhile (p := Text.isIdentifierPart) (l := text ++ rest)
  unfold word at scanned
  dsimp only at scanned
  split at scanned
  next =>
    obtain rfl := identifierTail_verdict scanned
    cases spells
  next isWord _ =>
    obtain ⟨entry, found, rfl⟩ := Option.map_eq_some_iff.mp isWord
    obtain ⟨rfl, rest_eq⟩ := found_inj scanned
    rw [rest_eq] at whole
    have same := List.find?_some found
    rw [decide_eq_true_eq, List.append_cancel_right whole] at same
    have listed := List.mem_append_left punctuators (List.mem_of_find?_eq_some found)
    rw [spelling?_of_mem entry listed] at spells
    rw [← Option.some.inj spells, same]
  next =>
    obtain ⟨rfl, _⟩ := found_inj scanned
    cases spells

/-- A punctuator is found only where it is written. -/
theorem punctuator_spelling (scanned : punctuator (text ++ rest) = found kind rest)
    (spells : kind.spelling? = some spelling)
    : text = spelling.toList := by
  unfold punctuator at scanned
  split at scanned
  next kind listed longest =>
    obtain ⟨rfl, rest_eq⟩ := found_inj scanned
    have opens := longestPunctuator?_eq_some.mp longest
    obtain ⟨tail, same⟩ := opens.opens
    have drops : tail = rest := by rw [← rest_eq, ← same]; simp [← String.length_toList]
    rw [drops] at same
    rw [spelling?_of_mem _ (List.mem_append_right reservedWords opens.member)] at spells
    rw [← Option.some.inj spells]
    exact (List.append_cancel_right same).symm
  next => exact absurd scanned failed_ne_found

/-- The text of a token of such a kind is the spelling. -/
theorem token_spelling (scanned : token mode (text ++ rest) = found kind rest)
    (spells : kind.spelling? = some spelling)
    : text = spelling.toList := by
  have found := foundBy_of_token scanned
  generalize whole_eq : text ++ rest = whole at found
  cases found with
  | nothing | hexNumber | number | escape | string | regex => cases spells
  | word _ _ read => exact word_spelling (whole_eq ▸ read) spells
  | punctuator _ read => exact punctuator_spelling (whole_eq ▸ read) spells

end Scan

namespace Script

variable {script : Script} {mode other : LexMode} {offset : Nat} {token another : Token}

/-- The text stands in the source at the offset. -/
def StandsAt (script : Script) (start : Nat) (text : List Char) : Prop :=
  Text.slice? start (start + Text.size text) script.source = some text

/-- A token of a kind with one spelling is written so, from its beginning to its end. -/
theorem Reads.standsAt {spelling : String} (read : script.Reads mode offset token)
    (spells : token.kind.spelling? = some spelling)
    : script.StandsAt token.span.start spelling.toList
      ∧ token.span.start + Text.size spelling.toList = token.span.stop := by
  obtain ⟨front, gap, text, rest, _, lies, origin⟩ := Token.read?_eq_some read
  have valid : token.kind ≠ .invalid := by
    intro invalid
    rw [invalid] at spells
    cases spells
  obtain rfl := Scan.token_spelling (origin.scanned_of_valid valid) spells
  have starts := lies.start_eq
  have stops := lies.stop_eq
  have ends : token.span.start + Text.size spelling.toList = token.span.stop := by omega
  refine ⟨?_, ends⟩
  rw [StandsAt, ends]
  exact script.slice?_of_lies lies

-----------------------------------------------------------------------------------------
-- Lines
-----------------------------------------------------------------------------------------

/-- The source between the offsets has a line terminator, or has none. -/
def Breaks (script : Script) (start stop : Nat) (breaks : Bool) : Prop :=
  ∃ gap, Text.slice? start stop script.source = some gap ∧ gap.any Text.isLineTerminator = breaks

/-- A token says whether a line ends in front of it. -/
theorem Reads.breaks (read : script.Reads mode offset token)
    : script.Breaks offset token.span.start token.afterNewline := by
  have next : Lexed.next? script.source mode offset = some ⟨token, token.span.stop⟩ :=
    Lexed.next?_eq_some.mpr ⟨read, rfl⟩
  obtain ⟨gap, _, slice, _, _, line⟩ := (Lexed.tile_of_next? next).trivia
  exact ⟨gap, slice, line.symm⟩

/-- What lies in front of a token is the same in both modes. -/
theorem Reads.afterNewline_eq (read : script.Reads mode offset token)
    (readToo : script.Reads other offset another)
    : token.afterNewline = another.afterNewline := by
  obtain ⟨rest, cut, rfl⟩ := Option.map_eq_some_iff.mp read
  obtain ⟨rest', cut', rfl⟩ := Option.map_eq_some_iff.mp readToo
  obtain rfl := Option.some.inj (cut.symm.trans cut')
  unfold Lexeme.read
  split <;> rfl

end Script

end EcmaSyntax
