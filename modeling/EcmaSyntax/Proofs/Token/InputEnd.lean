import EcmaSyntax.Proofs.Token.Cursor

/-! The end of the input: it is read where nothing but trivia is left, and nowhere else, for every scanner
that reads a text finds a token of another kind, or none for a lexical reason.
-/

namespace EcmaSyntax

namespace Scan

/-- The scanner found something else than the end of the input, or nothing for a lexical reason. -/
def FindsText (scan : Scan) : Prop :=
  match scan.verdict with
  | .ok kind => kind ≠ .endOfInput
  | .error cause => cause.kind = .lexical

theorem findsText_found {kind : Kind} (rest : List Char) (present : kind ≠ .endOfInput)
    : (found kind rest).FindsText :=
  present

theorem findsText_failed {cause : Cause} (rest : List Char) (lexical : cause.kind = .lexical)
    : (failed cause rest).FindsText :=
  lexical

/-- The rest of an identifier is no end of the input, by induction on the text. -/
theorem identifierTail_findsText (escaped : Nat) (text : List Char)
    : (identifierTail escaped text).FindsText := by
  fun_induction identifierTail escaped text with
  | _ => first | exact findsText_found _ (by decide) | exact findsText_failed _ rfl | assumption

theorem escapedIdentifier_findsText (text : List Char) : (escapedIdentifier text).FindsText := by
  unfold escapedIdentifier
  split
  · split
    · exact identifierTail_findsText 6 text
    · exact findsText_failed _ rfl
  · exact findsText_failed _ rfl

theorem reservedWords_present : ∀ entry ∈ reservedWords, entry.1 ≠ .endOfInput := by decide

/-- A word is an identifier or a reserved one. -/
theorem word_findsText (text : List Char) : (word text).FindsText := by
  simp only [word]
  split
  · exact identifierTail_findsText 0 _
  · next spelled _ =>
      obtain ⟨entry, found, rfl⟩ := Option.map_eq_some_iff.mp spelled
      exact findsText_found _ (reservedWords_present entry (List.mem_of_find?_eq_some found))
  · exact findsText_found _ (by decide)

theorem numberEnd_findsText (text : List Char) : (numberEnd text).FindsText := by
  unfold numberEnd
  split
  · split
    · exact findsText_failed _ rfl
    · exact findsText_found _ (by decide)
  · exact findsText_found _ (by decide)

theorem numberExponent_findsText (text : List Char) : (numberExponent text).FindsText := by
  cases text with
  | nil => exact numberEnd_findsText []
  | cons c rest =>
      simp only [numberExponent]
      split
      · split
        · exact findsText_failed _ rfl
        · exact numberEnd_findsText _
      · exact numberEnd_findsText _

/-- A number is no end of the input, nor is anything wrong in it but lexically. -/
theorem number_findsText (text : List Char) : (number text).FindsText := by
  simp only [number]
  split
  · exact numberEnd_findsText _
  · split
    · exact numberExponent_findsText _
    · exact numberExponent_findsText _

theorem hexNumber_findsText (digits : List Char) : (hexNumber digits).FindsText := by
  unfold hexNumber
  split
  · exact findsText_failed _ rfl
  · exact numberEnd_findsText _

/-- A string without an end is a lexical error. -/
theorem string_findsText (quote : Char) (text : List Char) : (string quote text).FindsText := by
  fun_induction string quote text with
  | _ => first | exact findsText_found _ (by decide) | exact findsText_failed _ rfl | assumption

/-- A regular expression without an end is a lexical error. -/
theorem regex_findsText (inClass : Bool) (text : List Char) : (regex inClass text).FindsText := by
  fun_induction regex inClass text with
  | _ => first | exact findsText_found _ (by decide) | exact findsText_failed _ rfl | assumption

theorem punctuators_present : ∀ entry ∈ punctuators, entry.1 ≠ .endOfInput := by decide

theorem punctuator_findsText (text : List Char) : (punctuator text).FindsText := by
  unfold punctuator
  split
  · next found =>
      exact findsText_found _ (punctuators_present _ (longestPunctuator?_eq_some.mp found).member)
  · exact findsText_failed _ rfl

/-- Where a character is left, every scanner finds a text or fails for a lexical reason. -/
theorem token_findsText (mode : LexMode) (c : Char) (rest : List Char)
    : (token mode (c :: rest)).FindsText := by
  have scans := scans_token mode (c :: rest)
  generalize token mode (c :: rest) = scan at scans
  cases scans with
  | hexNumber => exact hexNumber_findsText _
  | escape => exact escapedIdentifier_findsText _
  | word => exact word_findsText _
  | number => exact number_findsText _
  | string => exact string_findsText _ _
  | regex => exact regex_findsText _ _
  | punctuator => exact punctuator_findsText _

/-- Only in the empty text the end of the input is found. -/
theorem eq_nil_of_ends {mode : LexMode} {text : List Char}
    (ends : (token mode text).verdict = .ok .endOfInput)
    : text = [] := by
  by_contra present
  obtain ⟨c, rest, rfl⟩ := List.exists_cons_of_ne_nil present
  have finds := token_findsText mode c rest
  rw [FindsText, ends] at finds
  exact finds rfl

/-- A text that does not begin with a token does not for a lexical reason. -/
theorem lexical_of_failed {mode : LexMode} {text : List Char} {cause : Cause}
    (failed : (token mode text).verdict = .error cause)
    : cause.kind = .lexical := by
  cases text with
  | nil => cases failed
  | cons c rest =>
      have finds := token_findsText mode c rest
      rwa [FindsText, failed] at finds

end Scan

/-- The end of the input has no text, and nothing follows it. -/
theorem Token.Origin.nothing_of_ends {mode : LexMode} {token : Token} {gap text rest : List Char}
    (origin : token.Origin mode gap text rest) (ends : token.kind = .endOfInput)
    : text ++ rest = [] := by
  have scanned := origin.scanned_of_valid (by rw [ends]; decide)
  rw [ends] at scanned
  exact Scan.eq_nil_of_ends (congrArg Scan.verdict scanned)

namespace Script

variable {script : Script} {mode : LexMode} {offset : Nat} {token : Token}

/-- Where the end of the input is read, nothing but trivia is left. -/
theorem Reads.gap_of_ends (read : script.Reads mode offset token) (ends : token.kind = .endOfInput)
    : ∃ front gap,
        Text.size front = offset
        ∧ script.source = front ++ gap
        ∧ Trivia.skip .gap false gap = .ended token.afterNewline [] := by
  obtain ⟨front, gap, text, rest, size_eq, lies, origin⟩ := Token.read?_eq_some read
  have nothing := origin.nothing_of_ends ends
  cases origin with
  | unterminated kind_eq => cases ends.symm.trans kind_eq
  | scanned skipped =>
      rw [nothing, List.append_nil] at skipped
      refine ⟨front, gap, size_eq, ?_, skipped⟩
      rw [lies.source_eq, nothing, List.append_nil]

/-- The end of the input is read behind trivia. -/
theorem exists_reads_end (mode : LexMode) {front gap : List Char} {newline : Bool}
    (source_eq : script.source = front ++ gap)
    (skipped : Trivia.skip .gap false gap = .ended newline [])
    : ∃ last,
        script.Reads mode (Text.size front) last
        ∧ last.kind = .endOfInput
        ∧ last.afterNewline = newline := by
  have found : Scan.token mode ([] ++ []) = Scan.found .endOfInput [] := rfl
  have read := Token.read?_of_scan front (by simpa using skipped) found
  simp only [List.append_nil] at read
  rw [← source_eq] at read
  exact ⟨_, read, rfl, rfl⟩

end Script

end EcmaSyntax
