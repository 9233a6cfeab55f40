import EcmaSyntax.Proofs.Printing.Words
import EcmaSyntax.Proofs.Text.Digits
import EcmaSyntax.Proofs.Token.Found

/-! The names that identifiers spell. The lexer lets an escape pass only if it stands for a character that
may stand there; the decoder does not look again, but it takes the same digits for the same character. So
the name of an identifier is one that could have been written without escapes.
-/

namespace EcmaSyntax

-----------------------------------------------------------------------------------------
-- Escapes
-----------------------------------------------------------------------------------------

namespace Text

variable {c : Char} {text : List Char}

theorem utf8Size_of_isHexDigit (digit : isHexDigit c) : c.utf8Size = 1 := by
  have range := isHexDigit_iff.mp digit
  have ascii : c.val ≤ 127 := by
    rw [UInt32.le_iff_toNat_le]
    change c.toNat ≤ 127
    omega
  simp [Char.utf8Size, ascii]

/-- Characters of identifiers stand for themselves. -/
theorem nameChars_append {front : List Char} (parts : ∀ c ∈ front, isIdentifierPart c)
    (text : List Char)
    : nameChars 0 (front ++ text) = front ++ nameChars 0 text := by
  induction front with
  | nil => rfl
  | cons c front ih =>
      obtain ⟨part, parts⟩ := List.forall_mem_cons.mp parts
      have plain : c ≠ '\\' := by
        rintro rfl
        exact absurd part (by decide)
      rw [List.cons_append, nameChars_cons plain, ih parts, List.cons_append]

/-- An escape that the lexer lets pass is decoded as the character that the lexer took it for. -/
theorem nameChars_escape {part : Char} (escaped : Scan.escapedChar? ('\\' :: text) = some part)
    : nameChars 0 ('\\' :: text) = part :: nameChars 0 (text.drop 5) := by
  unfold Scan.escapedChar? at escaped
  split at escaped
  next first second third fourth tail same =>
    obtain ⟨_, rfl⟩ := List.cons.inj same
    have digits : ∀ c ∈ [first, second, third, fourth], isHexDigit c := by
      obtain ⟨value, valued, _⟩ := Option.bind_eq_some_iff.mp escaped
      rw [digitsValue?_of_ne_nil (List.cons_ne_nil _ _)] at valued
      exact digit_of_foldDigits? valued
    have short : size [first, second, third, fourth] = 4 := by
      simp only [List.forall_mem_cons] at digits
      simp [utf8Size_of_isHexDigit, digits]
    have taken : take? 4 (first :: second :: third :: fourth :: tail)
        = some [first, second, third, fourth] := by
      have whole := take?_size_append [first, second, third, fourth] tail
      rwa [short] at whole
    have unsigned : signedHexValue? [first, second, third, fourth]
        = digitsValue? 16 [first, second, third, fourth] := by
      unfold signedHexValue?
      split
      next sign =>
        obtain ⟨rfl, _⟩ := List.cons.inj sign
        exact absurd (digits '+' List.mem_cons_self) (by decide)
      next => rfl
    simp [nameChars, taken, unsigned, escaped]
  next => cases escaped

end Text

-----------------------------------------------------------------------------------------
-- Identifiers
-----------------------------------------------------------------------------------------

namespace Scan

variable {kind : Kind} {whole rest : List Char} {c : Char}

/-- The scan of an identifier passes over characters that may go on a name. -/
theorem isIdentifierPart_of_identifierTail {escaped : Nat}
    (scanned : identifierTail escaped whole = found kind rest) (long : escaped ≤ whole.length)
    : ∃ text,
        whole = text ++ rest
        ∧ escaped ≤ text.length
        ∧ ∀ part ∈ Text.nameChars 0 (text.drop escaped), Text.isIdentifierPart part := by
  fun_induction identifierTail escaped whole with
  | case1 escaped =>
      obtain ⟨_, rfl⟩ := found_inj scanned
      exact ⟨[], rfl, long, by simp [Text.nameChars]⟩
  | case2 escaped c tail ih =>
      obtain ⟨text, rfl, enough, parts⟩ := ih scanned (by simpa using long)
      exact ⟨c :: text, rfl, by simpa using enough, parts⟩
  | case3 tail part inner isPart ih =>
      obtain ⟨length, escape⟩ := escapedChar?_eq_some isPart
      obtain ⟨text, rfl, enough, parts⟩ := ih scanned length
      refine ⟨'\\' :: text, rfl, Nat.zero_le _, ?_⟩
      have whole := escape text rest [] rfl enough
      rw [List.append_nil] at whole
      rw [List.drop_zero, Text.nameChars_escape whole]
      exact List.forall_mem_cons.mpr ⟨inner, parts⟩
  | case4 => exact absurd scanned failed_ne_found
  | case5 => exact absurd scanned failed_ne_found
  | case6 c tail notEscape inner ih =>
      obtain ⟨text, rfl, _, parts⟩ := ih scanned (Nat.zero_le _)
      refine ⟨c :: text, rfl, Nat.zero_le _, ?_⟩
      rw [List.drop_zero, Text.nameChars_cons notEscape]
      exact List.forall_mem_cons.mpr ⟨inner, parts⟩
  | case7 =>
      obtain ⟨_, rfl⟩ := found_inj scanned
      exact ⟨[], rfl, Nat.le_refl _, by simp [Text.nameChars]⟩

/-- An identifier that begins with an escape spells a name. -/
theorem isName_of_escapedIdentifier (scanned : escapedIdentifier ('\\' :: whole) = found kind rest)
    : ∃ text, '\\' :: whole = text ++ rest ∧ Text.IsName (Text.nameChars 0 text) := by
  unfold escapedIdentifier at scanned
  split at scanned
  next start isStart =>
    split at scanned
    next starts =>
      obtain ⟨length, escape⟩ := escapedChar?_eq_some isStart
      obtain ⟨text, same, enough, parts⟩ :=
        isIdentifierPart_of_identifierTail scanned (by simpa using length)
      obtain ⟨c, text, rfl⟩ := List.exists_cons_of_length_pos (Nat.zero_lt_of_lt enough)
      obtain ⟨rfl, tail⟩ := List.cons.inj same
      have whole := escape text rest [] tail (by simpa using enough)
      rw [List.append_nil] at whole
      exact ⟨'\\' :: text, same, start, _, Text.nameChars_escape whole, starts, parts⟩
    next => exact absurd scanned failed_ne_found
  next => exact absurd scanned failed_ne_found

/-- An identifier that begins with a character of its own spells a name. -/
theorem isName_of_word (start : Text.isIdentifierStart c)
    (scanned : word (c :: whole) = found kind rest)
    : ∃ text, c :: whole = text ++ rest ∧ Text.IsName (Text.nameChars 0 text) := by
  have parts := List.takeWhile_append_dropWhile (p := Text.isIdentifierPart) (l := c :: whole)
  have front : ∀ c ∈ whole.takeWhile Text.isIdentifierPart, Text.isIdentifierPart c :=
    fun c => List.mem_takeWhile_imp
  have opens := Text.isIdentifierPart_of_start start
  -- The scanner stops behind the characters that need no escape, or goes on from there.
  have taken : ∃ back,
      (c :: whole).dropWhile Text.isIdentifierPart = back ++ rest
      ∧ ∀ part ∈ Text.nameChars 0 back, Text.isIdentifierPart part := by
    unfold word at scanned
    dsimp only at scanned
    split at scanned
    next =>
      obtain ⟨back, same, _, passed⟩ :=
        isIdentifierPart_of_identifierTail scanned (Nat.zero_le _)
      exact ⟨back, same, passed⟩
    next => exact ⟨[], (found_inj scanned).2, by simp [Text.nameChars]⟩
    next => exact ⟨[], (found_inj scanned).2, by simp [Text.nameChars]⟩
  obtain ⟨back, same, passed⟩ := taken
  rw [List.takeWhile_cons_of_pos opens, same] at parts
  refine ⟨c :: (whole.takeWhile Text.isIdentifierPart ++ back), by simpa using parts.symm, c,
    whole.takeWhile Text.isIdentifierPart ++ Text.nameChars 0 back, ?_, start, ?_⟩
  · exact Text.nameChars_append (List.forall_mem_cons.mpr ⟨opens, front⟩) back
  · intro part member
    rcases List.mem_append.mp member with member | member
    · exact front part member
    · exact passed part member

/-- An identifier spells a name. -/
theorem isName_of_token {mode : LexMode} (scanned : token mode whole = found .identifier rest)
    : ∃ text, whole = text ++ rest ∧ Text.IsName (Text.nameChars 0 text) := by
  cases foundBy_of_token scanned with
  | escape read => exact isName_of_escapedIdentifier read
  | word start _ read => exact isName_of_word start read
  | punctuator spelled => cases spelled

end Scan

variable {script : Script} {mode : LexMode} {offset : Nat} {token : Token}

/-- The name of an identifier begins with a character that may open one, and goes on with characters that
may stand in one.
-/
theorem Script.Reads.isName (read : script.Reads mode offset token)
    (named : token.kind = .identifier)
    : Text.IsName (script.nameOf token).toList := by
  obtain ⟨front, gap, text, rest, lies, scanned⟩ := Token.exists_found read named (by decide)
  obtain ⟨whole, same, isName⟩ := Scan.isName_of_token scanned
  rw [nameOf, script.textOf_of_lies lies, Text.decodeName, String.toList_ofList]
  rwa [List.append_cancel_right same]

end EcmaSyntax
